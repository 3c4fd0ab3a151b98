import LanguageClient.Proofs.Json.Object

/-! # The texts of an object.

`ObjectText` says without reference to the reader which texts spell an object: its
members between braces, each a name and a value with a colon between them, commas
between the members, and white space wherever it may stand. These are the texts the
reader takes for objects (`objectText_iff`), and what it finds in one are the members the
text was made of (`parse?_of_objectText`): the white space is gone from them, but for what
stands before a value.

The one direction takes apart what the automaton accepts. A run through a value that
stands inside brackets is a run through the value alone (`split_value`), for as long as
the value goes on the brackets around it are out of reach (`Inner`). -/

namespace LanguageClient.Json

/-! ### Values inside brackets -/

/-- The states inside a value: it is not complete, and only where it starts no bracket
of its own is open. -/
def Inner (s : Expect × List Bracket) : Prop := s.1 ≠ .nothing ∧ (s.1 = .value ∨ s.2 ≠ [])

theorem inner_value : Inner (.value, []) := ⟨by simp, Or.inl rfl⟩

theorem inner_afterValue (stack : List Bracket) :
    afterValue stack = (.nothing, []) ∨ Inner (afterValue stack) := by
  cases stack with
  | nil => exact Or.inl rfl
  | cons b stack => exact Or.inr ⟨by simp [afterValue], Or.inr (by simp [afterValue])⟩

theorem inner_pushBracket {limit : Option Nat} {b : Bracket} {stack : List Bracket}
    {s : Expect × List Bracket} (h : pushBracket limit b stack = some s) : Inner s := by
  cases limit with
  | none => cases b <;> cases h <;> exact ⟨by simp, Or.inr (by simp)⟩
  | some n =>
      simp only [pushBracket] at h
      split at h
      · cases h
      · cases b <;> cases h <;> exact ⟨by simp, Or.inr (by simp)⟩

theorem inner_stepValue {limit : Option Nat} {stack : List Bracket} {k : Kind}
    {s : Expect × List Bracket} (h : stepValue limit stack k = some s) : s = (.nothing, []) ∨ Inner s := by
  cases k with
  | openObject | openArray =>
      simp only [stepValue] at h
      exact Or.inr (inner_pushBracket h)
  | string | number | bool | null =>
      cases h
      exact inner_afterValue stack
  | closeObject | closeArray | colon | comma => cases h

/-- A step inside a value completes it or stays inside. -/
theorem Inner.step {limit : Option Nat} {s s' : Expect × List Bracket} {k : Kind} (hs : Inner s)
    (h : Json.step limit s k = some s') : s' = (.nothing, []) ∨ Inner s' := by
  obtain ⟨expect, stack⟩ := s
  obtain ⟨hnothing, hstack⟩ := hs
  cases expect with
  | nothing => exact absurd rfl hnothing
  | value => exact inner_stepValue h
  | valueOrClose =>
      by_cases hk : k = .closeArray
      · subst hk
        cases stack with
        | nil => cases h
        | cons b stack =>
            cases h
            exact inner_afterValue stack
      · rw [step_valueOrClose hk] at h
        exact inner_stepValue h
  | key | keyOrClose | colon | commaOrClose =>
      cases stack with
      | nil => simp at hstack
      | cons b stack =>
          cases b <;> cases k <;> cases h
          -- a bracket was closed, or the one on top is open still
          all_goals first | exact inner_afterValue stack | exact Or.inr ⟨by simp, Or.inr (by simp)⟩

/-- Inside a value the brackets around it make no difference. -/
theorem Inner.step_lift {n : Nat} {s : Expect × List Bracket} (hs : Inner s) (k : Kind)
    (base : List Bracket) : Json.step (some (n + base.length)) (lift base s) k =
      (Json.step (some n) s k).map (lift base) := by
  obtain ⟨expect, stack⟩ := s
  obtain ⟨hnothing, hstack⟩ := hs
  cases expect with
  | nothing => exact absurd rfl hnothing
  | value => exact stepValue_lift n stack base k
  -- A bracket that closes is looked up on the stack, which is not empty inside.
  | valueOrClose =>
      by_cases hk : k = .closeArray
      · subst hk
        cases stack with
        | nil => simp at hstack
        | cons b stack => exact congrArg some (lift_afterValue base stack).symm
      · rw [step_valueOrClose hk, ← stepValue_lift, lift, step_valueOrClose hk]
        simp
  | key | keyOrClose | colon | commaOrClose =>
      cases stack with
      | nil => simp at hstack
      | cons b stack =>
          cases b <;> cases k <;>
            first
            | rfl
            | exact congrArg some (lift_afterValue base stack).symm

theorem run_cons {limit : Option Nat} {s s' : Expect × List Bracket} {t : Token} {ts : List Token} :
    run limit s (t :: ts) = some s' ↔
      ∃ s₁, step limit s t.kind = some s₁ ∧ run limit s₁ ts = some s' := by
  rw [run]
  cases step limit s t.kind with
  | none => simp
  | some s₁ => simp

/-- **A run that starts with a value goes through the value first**, as through one that
stands alone. -/
theorem split_value {n : Nat} (base : List Bracket) {s : Expect × List Bracket} {ts : List Token}
    (hs : Inner s) (h : run (some (n + base.length)) (lift base s) ts = some (.nothing, [])) :
    ∃ v rest, ts = v ++ rest ∧ run (some n) s v = some (.nothing, []) ∧
      run (some (n + base.length)) (afterValue base) rest = some (.nothing, []) := by
  induction ts generalizing s with
  | nil =>
      obtain ⟨expect, stack⟩ := s
      cases expect with
      | nothing => exact absurd rfl hs.1
      | _ => cases h
  | cons t ts ih =>
      obtain ⟨s', hstep, hrun⟩ := run_cons.mp h
      rw [hs.step_lift] at hstep
      obtain ⟨s₁, halone, rfl⟩ := Option.map_eq_some_iff.mp hstep
      rcases hs.step halone with rfl | hinner
      · exact ⟨[t], ts, rfl, run_cons.mpr ⟨_, halone, rfl⟩, hrun⟩
      · obtain ⟨v, rest, rfl, hv, hrest⟩ := ih hinner hrun
        exact ⟨t :: v, rest, rfl, run_cons.mpr ⟨s₁, halone, hv⟩, hrest⟩

/-! ### Members, by their tokens -/

/-- The members of an object by their tokens, with commas between them. A member is what
its name is spelled as, and its value. -/
inductive Listed (n : Nat) : List (Bytes × List Token) → List Token → Prop where
  | one {name colon : Token} {v : List Token} (hname : name.kind = .string) (hcolon : colon.kind = .colon)
      (hv : isValue (some n) v = true) : Listed n [(name.lexeme, v)] (name :: colon :: v)
  | more {name colon comma : Token} {v ts : List Token} {ms : List (Bytes × List Token)}
      (hname : name.kind = .string) (hcolon : colon.kind = .colon) (hv : isValue (some n) v = true)
      (hcomma : comma.kind = .comma) (hms : Listed n ms ts) :
      Listed n ((name.lexeme, v) :: ms) (name :: colon :: (v ++ comma :: ts))

/-- Where a name may come: behind the brace and behind a comma. -/
def Expect.Names (expect : Expect) : Prop := expect = .keyOrClose ∨ expect = .key

section
variable {n : Nat} {ms : List (Bytes × List Token)} {ts : List Token} {expect : Expect}

/-- A name, a colon and a value are a step from member to member. -/
theorem run_name {name colon : Token} {v : List Token} (hexpect : expect.Names)
    (hname : name.kind = .string) (hcolon : colon.kind = .colon) (hv : isValue (some n) v = true) :
    run (some (n + 1)) (expect, [.object]) (name :: colon :: v) = some (.commaOrClose, [.object]) := by
  have hrun : run (some n) (.value, []) v = some (.nothing, []) := by simpa [isValue] using hv
  have hlift : run (some (n + 1)) (.value, [.object]) v = some (.commaOrClose, [.object]) :=
    run_lift hrun [.object]
  rcases hexpect with rfl | rfl <;> simp [run, step, hname, hcolon, hlift]

/-- The automaton accepts the members of an object. -/
theorem Listed.run (h : Listed n ms ts) (hexpect : expect.Names) :
    Json.run (some (n + 1)) (expect, [.object]) ts = some (.commaOrClose, [.object]) := by
  induction h generalizing expect with
  | one hname hcolon hv => exact run_name hexpect hname hcolon hv
  | more hname hcolon hv hcomma _ ih =>
      have hmember := run_name hexpect hname hcolon hv
      rw [← List.cons_append, ← List.cons_append, run_append hmember, Json.run, hcomma]
      exact ih (Or.inr rfl)

/-- Behind a value nothing more may come. -/
theorem run_nothing {limit : Option Nat} {s : Expect × List Bracket}
    (h : run limit (.nothing, []) ts = some s) : ts = [] := by
  cases ts with
  | nil => rfl
  | cons t ts =>
      obtain ⟨_, hstep, -⟩ := run_cons.mp h
      cases hk : t.kind <;> rw [hk] at hstep <;> cases hstep

/-- What comes where a name may: a name, or the brace behind the one that opens. -/
theorem step_names {limit : Option Nat} {k : Kind} {s : Expect × List Bracket} (hexpect : expect.Names)
    (h : step limit (expect, [.object]) k = some s) :
    k = .string ∧ s = (.colon, [.object]) ∨
      expect = .keyOrClose ∧ k = .closeObject ∧ s = (.nothing, []) := by
  rcases hexpect with rfl | rfl <;> cases k <;> cases h
  · exact Or.inr ⟨rfl, rfl, rfl⟩
  · exact Or.inl ⟨rfl, rfl⟩
  · exact Or.inl ⟨rfl, rfl⟩

/-- What comes behind a member: a comma or the brace that closes. -/
theorem step_behind {limit : Option Nat} {k : Kind} {s : Expect × List Bracket}
    (h : step limit (.commaOrClose, [.object]) k = some s) :
    k = .comma ∧ s = (.key, [.object]) ∨ k = .closeObject ∧ s = (.nothing, []) := by
  cases k <;> cases h
  · exact Or.inr ⟨rfl, rfl⟩
  · exact Or.inl ⟨rfl, rfl⟩

/-- **What is accepted behind an opening brace** is the closing one, or members before it. -/
theorem listed_of_run (hexpect : expect.Names)
    (h : run (some (n + 1)) (expect, [.object]) ts = some (.nothing, [])) :
    ∃ inner close, ts = inner ++ [close] ∧ close.kind = .closeObject ∧
      (expect = .keyOrClose ∧ inner = [] ∨ ∃ ms, Listed n ms inner) := by
  -- the members are of different lengths, so the induction is on the number of tokens
  induction hlength : ts.length using Nat.strong_induction_on generalizing ts expect with
  | _ length ih =>
  cases ts with
  | nil => rcases hexpect with rfl | rfl <;> cases h
  | cons name ts =>
      obtain ⟨s₁, hstep, hrun⟩ := run_cons.mp h
      rcases step_names hexpect hstep with ⟨hname, rfl⟩ | ⟨hclosing, hclose, rfl⟩
      · cases ts with
        | nil => cases hrun
        | cons colon ts =>
            obtain ⟨s₂, hstep, hrun⟩ := run_cons.mp hrun
            obtain ⟨hcolon, rfl⟩ : colon.kind = .colon ∧ s₂ = (.value, [.object]) := by
              cases hk : colon.kind <;> rw [hk] at hstep <;> cases hstep
              exact ⟨rfl, rfl⟩
            obtain ⟨v, rest, rfl, hv, hrest⟩ := split_value [.object] inner_value hrun
            have hvalue : isValue (some n) v = true := by simp [isValue, hv]
            cases rest with
            | nil => cases hrest
            | cons mark rest =>
                obtain ⟨s₃, hstep, hrun⟩ := run_cons.mp hrest
                rcases step_behind hstep with ⟨hcomma, rfl⟩ | ⟨hclose, rfl⟩
                · have hshorter : rest.length < length := by
                    rw [← hlength]
                    simp only [List.length_cons, List.length_append]
                    omega
                  obtain ⟨inner, close, rfl, hclose, hinner⟩ := ih _ hshorter (Or.inr rfl) hrun rfl
                  rcases hinner with ⟨hnot, -⟩ | ⟨ms, hms⟩
                  · cases hnot
                  · refine ⟨name :: colon :: (v ++ mark :: inner), close, by simp, hclose, Or.inr ?_⟩
                    exact ⟨(name.lexeme, v) :: ms, .more hname hcolon hvalue hcomma hms⟩
                · obtain rfl := run_nothing hrun
                  exact ⟨name :: colon :: v, mark, by simp, hclose, Or.inr ⟨_, .one hname hcolon hvalue⟩⟩
      · obtain rfl := run_nothing hrun
        exact ⟨[], name, rfl, hclose, Or.inl ⟨hclosing, rfl⟩⟩

/-- A member as it is found between commas. -/
def memberOf? : List Token → Option (Bytes × List Token)
  | name :: _ :: value => some (name.lexeme, value)
  | _ => none

theorem members_eq (ts : List Token) : members ts = (inside ts).filterMap memberOf? := rfl

/-- No comma inside a member cuts it. -/
theorem cutCommas_name {name colon : Token} {v : List Token} (hname : name.kind = .string)
    (hcolon : colon.kind = .colon) (hv : isValue (some n) v = true) (parts : List (List Token))
    (rest : List Token) : cutCommas parts [] 0 (name :: colon :: (v ++ rest)) =
      cutCommas parts (name :: colon :: v).reverse 0 rest := by
  have hvalue := cutCommas_value hv parts [colon, name] rest
  have hsimple : ∀ part ts (t : Token), t.kind = .string ∨ t.kind = .colon →
      cutCommas parts part 0 (t :: ts) = cutCommas parts (t :: part) 0 ts := by
    intro part ts t ht
    rcases ht with ht | ht <;> simp [cutCommas, ht, Kind.opens, Kind.closes]
  rw [hsimple _ _ _ (Or.inl hname), hsimple _ _ _ (Or.inr hcolon), hvalue]
  simp

/-- Cutting at the commas gives back the members that are listed. -/
theorem Listed.cutCommas (h : Listed n ms ts) (parts : List (List Token)) :
    (Json.cutCommas parts [] 0 ts).filterMap memberOf? = parts.reverse.filterMap memberOf? ++ ms := by
  induction h generalizing parts with
  | @one name colon v hname hcolon hv =>
      have hcut := cutCommas_name hname hcolon hv parts []
      rw [List.append_nil] at hcut
      rw [hcut, Json.cutCommas, List.reverse_reverse, List.reverse_cons, List.filterMap_append]
      rfl
  | @more name colon comma v ts ms hname hcolon hv hcomma _ ih =>
      rw [cutCommas_name hname hcolon hv, Json.cutCommas, if_pos (by simp [hcomma]), ih,
        List.reverse_reverse, List.reverse_cons, List.filterMap_append, List.append_assoc]
      rfl

theorem Listed.ne_nil (h : Listed n ms ts) : ts ≠ [] := by
  cases h <;> simp

/-- **The members of an object are those that are listed in it.** -/
theorem Listed.members (h : Listed n ms ts) (brace close : Token) :
    Json.members (brace :: (ts ++ [close])) = ms := by
  rw [members_eq, inside, List.dropLast_concat]
  cases ts with
  | nil => exact absurd rfl h.ne_nil
  | cons t ts => exact h.cutCommas []

end

/-! ### Members, by their texts -/

/-- A member as it is spelled: its name between quotes, and its value. -/
structure Member where
  name : Bytes
  value : Bytes
  deriving DecidableEq

/-- The text of a value, without white space around it. -/
def IsFragment (n : Nat) (text : Bytes) : Prop := ∃ ts, parse? (some n) text = some ts ∧ fragment ts = text

/-- The text of a member, with white space around the name and around the value. -/
inductive MemberText (n : Nat) (m : Member) : Bytes → Prop where
  | mk {a b c d : Bytes} (hname : Spells .string m.name) (hvalue : IsFragment n m.value) (ha : Blank a)
      (hb : Blank b) (hc : Blank c) (hd : Blank d) :
      MemberText n m (a ++ m.name ++ b ++ 0x3A :: (c ++ m.value ++ d))

/-- The text of some members, with commas between them. -/
inductive MembersText (n : Nat) : List Member → Bytes → Prop where
  | one {m : Member} {text : Bytes} (h : MemberText n m text) : MembersText n [m] text
  | more {m : Member} {ms : List Member} {text rest : Bytes} (h : MemberText n m text)
      (hms : MembersText n ms rest) : MembersText n (m :: ms) (text ++ 0x2C :: rest)

/-- The text of an object with these members, whose values are nested so deep at most. -/
inductive ObjectText (n : Nat) : List Member → Bytes → Prop where
  | empty {a b c : Bytes} (ha : Blank a) (hb : Blank b) (hc : Blank c) :
      ObjectText n [] (a ++ 0x7B :: (b ++ 0x7D :: c))
  | full {ms : List Member} {a inner c : Bytes} (ha : Blank a) (h : MembersText n ms inner)
      (hc : Blank c) : ObjectText n ms (a ++ 0x7B :: (inner ++ 0x7D :: c))

/-- A member by its tokens, without what white space its value has in front. -/
def Member.tokens (n : Nat) (m : Member) : Bytes × List Token :=
  (m.name, respace [] ((parse? (some n) m.value).getD []))

/-- A member that was read, without what white space its value has in front. -/
def unspaced (m : Bytes × List Token) : Bytes × List Token := (m.1, respace [] m.2)

def IsObject (ts : List Token) : Prop := ∃ t rest, ts = t :: rest ∧ t.kind = .openObject

section
variable {n : Nat} {m : Member} {ms : List Member} {text : Bytes}

/-- A fragment is laid out as a value, behind white space as well. -/
theorem IsFragment.laid (h : IsFragment n text) {space : Bytes} (hspace : Blank space) :
    ∃ v, written v = space ++ text ∧ isValue (some n) v = true ∧ (∀ t ∈ v, t.Laid) ∧
      respace [] v = respace [] ((parse? (some n) text).getD []) := by
  obtain ⟨ts, hparse, htext⟩ := h
  obtain ⟨htokens, hvalue⟩ := parse?_eq_some.mp hparse
  obtain ⟨-, -, -, hlaid⟩ := laid_of_tokens? htokens
  refine ⟨respace space ts, ?_, ?_, laid_respace hspace hlaid, ?_⟩
  · rw [written_respace (ne_nil_of_isValue hvalue), htext]
  · rwa [isValue_respace]
  · rw [hparse, respace_respace]
    rfl

theorem isFragment_fragment {v : List Token} (hv : isValue (some n) v = true) (hlaid : ∀ t ∈ v, t.Laid) :
    IsFragment n (fragment v) := ⟨respace [] v, parse?_fragment hv hlaid, fragment_respace [] v⟩

/-- The tokens of a member, and the white space behind it. -/
theorem MemberText.laid (h : MemberText n m text) :
    ∃ name colon v tail, text = written (name :: colon :: v) ++ tail ∧ Blank tail ∧
      (∀ t ∈ name :: colon :: v, t.Laid) ∧ name.kind = .string ∧ colon.kind = .colon ∧
      isValue (some n) v = true ∧ unspaced (name.lexeme, v) = m.tokens n := by
  cases h with
  | @mk a b c d hname hvalue ha hb hc hd =>
      obtain ⟨v, hwritten, hv, hlaid, htokens⟩ := hvalue.laid hc
      refine ⟨⟨a, .string, m.name⟩, ⟨b, .colon, [0x3A]⟩, v, d, ?_, hd, ?_, rfl, rfl, hv, ?_⟩
      · simp [hwritten]
      · refine List.forall_mem_cons.mpr ⟨⟨ha, hname⟩, ?_⟩
        exact List.forall_mem_cons.mpr ⟨⟨hb, .colon⟩, hlaid⟩
      · exact Prod.ext rfl htokens

/-- The tokens of some members, and the white space behind them. -/
theorem MembersText.laid (h : MembersText n ms text) :
    ∃ read ts tail, text = written ts ++ tail ∧ Blank tail ∧ (∀ t ∈ ts, t.Laid) ∧
      Listed n read ts ∧ read.map unspaced = ms.map (Member.tokens n) := by
  induction h with
  | one h =>
      obtain ⟨name, colon, v, tail, htext, htail, hlaid, hname, hcolon, hv, htokens⟩ := h.laid
      refine ⟨_, _, tail, htext, htail, hlaid, .one hname hcolon hv, ?_⟩
      rw [List.map_singleton, List.map_singleton, htokens]
  | more h _ ih =>
      obtain ⟨name, colon, v, space, rfl, hspace, hlaid, hname, hcolon, hv, htokens⟩ := h.laid
      obtain ⟨read, ts, tail, rfl, htail, hrest, hlisted, hread⟩ := ih
      have hcomma : (⟨space, .comma, [0x2C]⟩ : Token).kind = .comma := rfl
      refine ⟨_, _, tail, ?_, htail, ?_, .more hname hcolon hv hcomma hlisted, ?_⟩
      · simp
      · intro t ht
        rw [← List.cons_append, ← List.cons_append] at ht
        rcases List.mem_append.mp ht with ht | ht
        · exact hlaid t ht
        · rcases List.mem_cons.mp ht with rfl | ht
          · exact ⟨hspace, .comma⟩
          · exact hrest t ht
      · rw [List.map_cons, List.map_cons, htokens, hread]

theorem tokens_unspaced {name : Token} {v : List Token} (hv : isValue (some n) v = true)
    (hlaid : ∀ t ∈ v, t.Laid) : (Member.mk name.lexeme (fragment v)).tokens n = unspaced (name.lexeme, v) := by
  rw [Member.tokens, parse?_fragment hv hlaid, Option.getD_some, respace_respace]
  rfl

/-- How the tokens of a kind are spelled, if they are all spelled alike. -/
def Kind.mark? : Kind → Option Bytes
  | .openObject => some [0x7B]
  | .closeObject => some [0x7D]
  | .openArray => some [0x5B]
  | .closeArray => some [0x5D]
  | .colon => some [0x3A]
  | .comma => some [0x2C]
  | .bool true => some [0x74, 0x72, 0x75, 0x65]
  | .bool false => some [0x66, 0x61, 0x6C, 0x73, 0x65]
  | .null => some [0x6E, 0x75, 0x6C, 0x6C]
  | .string | .number => none

theorem Spells.eq_mark {k : Kind} {lexeme mark : Bytes} (h : Spells k lexeme) (hmark : k.mark? = some mark) :
    lexeme = mark := by
  cases h <;> cases hmark <;> rfl

/-- A member as it is laid out, with white space behind it. -/
theorem memberText_of_laid {name colon : Token} {v : List Token} {tail : Bytes}
    (hname : name.kind = .string) (hcolon : colon.kind = .colon) (hv : isValue (some n) v = true)
    (hlaid : ∀ t ∈ name :: colon :: v, t.Laid) (htail : Blank tail) :
    MemberText n ⟨name.lexeme, fragment v⟩ (written (name :: colon :: v) ++ tail) := by
  obtain ⟨⟨hnameSpace, hspells⟩, hlaid⟩ := List.forall_mem_cons.mp hlaid
  obtain ⟨hcolonLaid, hlaid⟩ := List.forall_mem_cons.mp hlaid
  rw [hname] at hspells
  have hmark : colon.lexeme = [0x3A] := hcolonLaid.spells.eq_mark (by rw [hcolon]; rfl)
  cases v with
  | nil => exact absurd rfl (ne_nil_of_isValue hv)
  | cons t ts =>
      have hspace := (List.forall_mem_cons.mp hlaid).1.blank
      have htext : MemberText n ⟨name.lexeme, fragment (t :: ts)⟩ _ :=
        .mk hspells (isFragment_fragment hv hlaid) hnameSpace hcolonLaid.blank hspace htail
      have hwritten : written (name :: colon :: t :: ts) ++ tail =
          name.space ++ name.lexeme ++ colon.space ++ 0x3A :: (t.space ++ fragment (t :: ts) ++ tail) := by
        simp [hmark, fragment, written]
      rw [hwritten]
      exact htext

/-- Members as they are laid out, with white space behind them. -/
theorem membersText_of_listed {read : List (Bytes × List Token)} {ts : List Token} {tail : Bytes}
    (h : Listed n read ts) (hlaid : ∀ t ∈ ts, t.Laid) (htail : Blank tail) :
    ∃ ms, MembersText n ms (written ts ++ tail) ∧ ms.map (Member.tokens n) = read.map unspaced := by
  induction h with
  | one hname hcolon hv =>
      refine ⟨_, .one (memberText_of_laid hname hcolon hv hlaid htail), ?_⟩
      rw [List.map_singleton, List.map_singleton, tokens_unspaced hv]
      intro t ht
      exact hlaid t (by simp [ht])
  | @more name colon comma v ts _ hname hcolon hv hcomma _ ih =>
      rw [← List.cons_append, ← List.cons_append] at hlaid ⊢
      obtain ⟨hmember, hlaid⟩ := List.forall_mem_append.mp hlaid
      obtain ⟨hcommaLaid, hlaid⟩ := List.forall_mem_cons.mp hlaid
      obtain ⟨ms, hms, htokens⟩ := ih hlaid
      have hmark : comma.lexeme = [0x2C] := hcommaLaid.spells.eq_mark (by rw [hcomma]; rfl)
      refine ⟨⟨name.lexeme, fragment v⟩ :: ms, ?_, ?_⟩
      · have htext := MembersText.more (memberText_of_laid hname hcolon hv hmember hcommaLaid.blank) hms
        rw [written_append, written_cons comma, hmark]
        simpa using htext
      · rw [List.map_cons, List.map_cons, htokens, tokens_unspaced hv]
        intro t ht
        exact hmember t (by simp [ht])

/-- **The text of an object is read as an object with the members it was made of.** -/
theorem parse?_of_objectText (h : ObjectText n ms text) :
    ∃ ts, parse? (some (n + 1)) text = some ts ∧ IsObject ts ∧
      (members ts).map unspaced = ms.map (Member.tokens n) := by
  -- The brace at the front leaves the automaton inside an object.
  have hopen : ∀ space rest, run (some (n + 1)) (.value, []) (⟨space, .openObject, [0x7B]⟩ :: rest) =
      run (some (n + 1)) (.keyOrClose, [.object]) rest := by
    intro space rest
    simp [run, step, stepValue, pushBracket]
  cases h with
  | @empty a b c ha hb hc =>
      have hrun : run (some (n + 1)) (.value, []) [⟨a, .openObject, [0x7B]⟩, ⟨b, .closeObject, [0x7D]⟩] =
          some (.nothing, []) := hopen a _
      have hlaid : ∀ t ∈ [(⟨a, .openObject, [0x7B]⟩ : Token), ⟨b, .closeObject, [0x7D]⟩], t.Laid := by
        refine List.forall_mem_cons.mpr ⟨⟨ha, .openObject⟩, ?_⟩
        exact List.forall_mem_singleton.mpr ⟨hb, .closeObject⟩
      refine ⟨[⟨a, .openObject, [0x7B]⟩, ⟨b, .closeObject, [0x7D]⟩], parse?_eq_some.mpr ⟨?_, ?_⟩,
        ⟨_, _, rfl, rfl⟩, rfl⟩
      · have htokens := tokens?_written hrun hlaid hc
        simpa using htokens
      · simp [isValue, hrun]
  | @full _ a inner c ha h hc =>
      obtain ⟨read, ts, space, rfl, hspace, hlaid, hlisted, hread⟩ := h.laid
      have hrun : run (some (n + 1)) (.value, [])
          (⟨a, .openObject, [0x7B]⟩ :: (ts ++ [⟨space, .closeObject, [0x7D]⟩])) = some (.nothing, []) := by
        rw [hopen, run_append (hlisted.run (Or.inl rfl))]
        rfl
      have hlaid' : ∀ t ∈ (⟨a, .openObject, [0x7B]⟩ : Token) :: (ts ++ [⟨space, .closeObject, [0x7D]⟩]),
          t.Laid := by
        refine List.forall_mem_cons.mpr ⟨⟨ha, .openObject⟩, ?_⟩
        refine List.forall_mem_append.mpr ⟨hlaid, ?_⟩
        exact List.forall_mem_singleton.mpr ⟨hspace, .closeObject⟩
      refine ⟨⟨a, .openObject, [0x7B]⟩ :: (ts ++ [⟨space, .closeObject, [0x7D]⟩]),
        parse?_eq_some.mpr ⟨?_, ?_⟩, ⟨_, _, rfl, rfl⟩, ?_⟩
      · have htokens := tokens?_written hrun hlaid' hc
        simpa using htokens
      · simp [isValue, hrun]
      · rw [hlisted.members, hread]

/-- Whatever is read as an object is the text of one. -/
theorem exists_objectText {ts : List Token} (h : parse? (some (n + 1)) text = some ts)
    (hobject : IsObject ts) : ∃ ms, ObjectText n ms text := by
  obtain ⟨htokens, hvalue⟩ := parse?_eq_some.mp h
  have hrun : run (some (n + 1)) (.value, []) ts = some (.nothing, []) := by simpa [isValue] using hvalue
  obtain ⟨tail, rfl, htail, hlaid⟩ := laid_of_tokens? htokens
  obtain ⟨brace, rest, rfl, hbrace⟩ := hobject
  obtain ⟨s, hstep, hrun⟩ := run_cons.mp hrun
  -- The first token is a brace, so the automaton is inside an object.
  obtain rfl : (.keyOrClose, [.object]) = s := by
    rw [hbrace] at hstep
    simpa [step, stepValue, pushBracket] using hstep
  obtain ⟨hbraceLaid, hlaid⟩ := List.forall_mem_cons.mp hlaid
  obtain ⟨inner, close, rfl, hclose, hinner⟩ := listed_of_run (Or.inl rfl) hrun
  obtain ⟨hlaid, hcloses⟩ := List.forall_mem_append.mp hlaid
  have hcloseLaid := hcloses close List.mem_cons_self
  -- Braces have one spelling only.
  have hopening : brace.lexeme = [0x7B] := hbraceLaid.spells.eq_mark (by rw [hbrace]; rfl)
  have hclosing : close.lexeme = [0x7D] := hcloseLaid.spells.eq_mark (by rw [hclose]; rfl)
  have hwritten : written (brace :: (inner ++ [close])) ++ tail =
      brace.space ++ 0x7B :: ((written inner ++ close.space) ++ 0x7D :: tail) := by
    simp [hopening, hclosing]
  rw [hwritten]
  rcases hinner with ⟨-, rfl⟩ | ⟨read, hlisted⟩
  · exact ⟨[], .empty hbraceLaid.blank hcloseLaid.blank htail⟩
  · obtain ⟨ms, hms, -⟩ := membersText_of_listed hlisted hlaid hcloseLaid.blank
    exact ⟨ms, .full hbraceLaid.blank hms htail⟩

/-- The values of the members are fragments. -/
theorem MembersText.isFragment (h : MembersText n ms text) : ∀ m ∈ ms, IsFragment n m.value := by
  induction h with
  | one h =>
      cases h with
      | mk _ hvalue => exact List.forall_mem_singleton.mpr hvalue
  | more h _ ih =>
      cases h with
      | mk _ hvalue => exact List.forall_mem_cons.mpr ⟨hvalue, ih⟩

/-- The values of an object's members are fragments. -/
theorem ObjectText.isFragment (h : ObjectText n ms text) : ∀ m ∈ ms, IsFragment n m.value := by
  cases h with
  | empty => exact fun _ hm => nomatch hm
  | full _ h => exact h.isFragment

/-- The member that was read as these tokens. -/
def Member.ofTokens (m : Bytes × List Token) : Member := ⟨m.1, fragment m.2⟩

theorem IsFragment.ofTokens_tokens (h : IsFragment n m.value) : Member.ofTokens (m.tokens n) = m := by
  obtain ⟨ts, hparse, htext⟩ := h
  rw [Member.tokens, Member.ofTokens, hparse, Option.getD_some, fragment_respace, htext]

/-- What an object's text is read as determines the members it was made of. -/
theorem ObjectText.ofTokens_tokens (h : ObjectText n ms text) :
    (ms.map (Member.tokens n)).map Member.ofTokens = ms := by
  have hmember : ∀ m ∈ ms, (Member.ofTokens ∘ Member.tokens n) m = id m := by
    intro m hm
    exact (h.isFragment m hm).ofTokens_tokens
  rw [List.map_map, List.map_congr_left hmember, List.map_id]

/-- A text is made of its members in one way. -/
theorem ObjectText.unique {ms' : List Member} (h : ObjectText n ms text) (h' : ObjectText n ms' text) :
    ms = ms' := by
  obtain ⟨ts, hparse, -, hread⟩ := parse?_of_objectText h
  obtain ⟨ts', hparse', -, hread'⟩ := parse?_of_objectText h'
  rw [hparse, Option.some.injEq] at hparse'
  rw [← h.ofTokens_tokens, ← h'.ofTokens_tokens, ← hread, ← hread', hparse']

/-- **Whatever is read as an object is the text of one**, with the members that are read. -/
theorem objectText_of_parse? {ts : List Token} (h : parse? (some (n + 1)) text = some ts)
    (hobject : IsObject ts) : ObjectText n ((members ts).map Member.ofTokens) text := by
  obtain ⟨ms, hms⟩ := exists_objectText h hobject
  obtain ⟨ts', hparse, -, hread⟩ := parse?_of_objectText hms
  obtain rfl : ts = ts' := by
    rw [h] at hparse
    exact Option.some.inj hparse
  have hspace : ∀ m, Member.ofTokens (unspaced m) = Member.ofTokens m := by
    intro m
    rw [unspaced, Member.ofTokens, fragment_respace]
    rfl
  have hmembers : (members ts).map Member.ofTokens = ms := by
    rw [← hms.ofTokens_tokens, ← hread, List.map_map]
    exact List.map_congr_left fun m _ => (hspace m).symm
  rwa [hmembers]

/-- **The texts of objects are those that are read as objects.** -/
theorem objectText_iff : (∃ ms, ObjectText n ms text) ↔
    ∃ ts, parse? (some (n + 1)) text = some ts ∧ IsObject ts := by
  constructor
  · rintro ⟨ms, h⟩
    obtain ⟨ts, hparse, hobject, -⟩ := parse?_of_objectText h
    exact ⟨ts, hparse, hobject⟩
  · rintro ⟨ts, hparse, hobject⟩
    exact exists_objectText hparse hobject

end

end LanguageClient.Json
