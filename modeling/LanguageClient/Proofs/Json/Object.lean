import LanguageClient.Json.Decode
import LanguageClient.Json.Writer
import LanguageClient.Proofs.Json.Layout
import LanguageClient.Proofs.Json.Text

/-! # Objects are read back member by member.

The automaton does the same on a value inside brackets as on one that stands alone,
only deeper (`run_lift`), and no comma of a value is taken for one that divides
members (`cutCommas_run`). So the object that is written for values is a value again
(`isValue_objectTokens`), is read as its own tokens (`parse?_object`), and has these
values for its members (`members_objectTokens`). -/

namespace LanguageClient.Json

/-! ### Values inside brackets -/

/-- A state of the automaton inside brackets that are open already. -/
def lift (base : List Bracket) : Expect × List Bracket → Expect × List Bracket
  | (.nothing, _) => afterValue base
  | (expect, stack) => (expect, stack ++ base)

theorem lift_afterValue (base stack : List Bracket) :
    lift base (afterValue stack) = afterValue (stack ++ base) := by
  cases stack <;> rfl

theorem pushBracket_lift (n : Nat) (b : Bracket) (stack base : List Bracket) :
    pushBracket (some (n + base.length)) b (stack ++ base) =
      (pushBracket (some n) b stack).map (lift base) := by
  have hdeep : n + base.length < (stack ++ base).length + 1 ↔ n < stack.length + 1 := by
    rw [List.length_append]
    omega
  simp only [pushBracket, hdeep]
  split
  · rfl
  · cases b <;> rfl

theorem stepValue_lift (n : Nat) (stack base : List Bracket) (k : Kind) :
    stepValue (some (n + base.length)) (stack ++ base) k =
      (stepValue (some n) stack k).map (lift base) := by
  cases k with
  | openObject => exact pushBracket_lift n .object stack base
  | openArray => exact pushBracket_lift n .array stack base
  | string | number | bool | null => exact congrArg some (lift_afterValue base stack).symm
  | closeObject | closeArray | colon | comma => rfl

theorem step_valueOrClose {limit : Option Nat} {k : Kind} (h : k ≠ .closeArray) (stack : List Bracket) :
    step limit (.valueOrClose, stack) k = stepValue limit stack k := by
  cases stack <;> cases k <;> first | rfl | exact absurd rfl h

/-- A step of the automaton does not look below the brackets it is inside of, as long as there is room
for them in the depth. -/
theorem step_lift {n : Nat} {s s' : Expect × List Bracket} {k : Kind}
    (h : step (some n) s k = some s') (base : List Bracket) :
    step (some (n + base.length)) (lift base s) k = some (lift base s') := by
  obtain ⟨expect, stack⟩ := s
  cases expect with
  | value =>
      simp only [step, lift] at h ⊢
      rw [stepValue_lift, h]
      rfl
  | valueOrClose =>
      by_cases hk : k = .closeArray
      · subst hk
        cases stack with
        | nil => cases h
        | cons b stack =>
            cases h
            exact congrArg some (lift_afterValue base stack).symm
      · rw [step_valueOrClose hk] at h
        rw [lift, step_valueOrClose hk, stepValue_lift, h]
        · rfl
        · simp
  | key | colon =>
      cases k <;> cases h
      rfl
  | keyOrClose =>
      cases stack with
      | nil =>
          cases k <;> cases h
          cases base <;> rfl
      | cons b stack =>
          cases k <;> cases h
          · exact congrArg some (lift_afterValue base stack).symm
          · rfl
  | commaOrClose =>
      cases stack with
      | nil => cases k <;> cases h
      | cons b stack =>
          -- behind a comma the kind of bracket decides what comes
          cases b <;> cases k <;> cases h
          all_goals first | rfl | exact congrArg some (lift_afterValue base stack).symm
  | nothing => cases stack <;> cases k <;> cases h

/-- Neither does a run of the automaton. -/
theorem run_lift {n : Nat} {s s' : Expect × List Bracket} {ts : List Token}
    (h : run (some n) s ts = some s') (base : List Bracket) :
    run (some (n + base.length)) (lift base s) ts = some (lift base s') := by
  induction ts generalizing s with
  | nil =>
      cases h
      rfl
  | cons t ts ih =>
      rw [run] at h
      split at h
      · cases h
      · next s₁ hstep =>
          rw [run, step_lift hstep base]
          exact ih h

theorem run_append {limit : Option Nat} {s s' : Expect × List Bracket} {ts : List Token}
    (h : run limit s ts = some s') (ts' : List Token) : run limit s (ts ++ ts') = run limit s' ts' := by
  induction ts generalizing s with
  | nil =>
      cases h
      rfl
  | cons t ts ih =>
      rw [run] at h
      split at h
      · cases h
      · next s₁ hstep =>
          rw [List.cons_append, run, hstep]
          exact ih h

/-! ### Parts -/

def Kind.depth (k : Kind) (d : Nat) : Nat :=
  if k.opens then d + 1 else if k.closes then d - 1 else d

theorem length_afterValue (stack : List Bracket) : (afterValue stack).2.length = stack.length := by
  cases stack <;> rfl

theorem length_pushBracket {limit : Option Nat} {b : Bracket} {stack : List Bracket}
    {s : Expect × List Bracket} (h : pushBracket limit b stack = some s) :
    s.2.length = stack.length + 1 := by
  cases limit with
  | none => cases b <;> cases h <;> rfl
  | some n =>
      simp only [pushBracket] at h
      split at h
      · cases h
      · cases b <;> cases h <;> rfl

theorem length_stepValue {limit : Option Nat} {stack : List Bracket} {k : Kind}
    {s : Expect × List Bracket} (h : stepValue limit stack k = some s) :
    s.2.length = k.depth stack.length ∧ k ≠ .comma := by
  cases k with
  | openObject | openArray =>
      simp only [stepValue] at h
      exact ⟨length_pushBracket h, by simp⟩
  | string | number | bool | null =>
      cases h
      exact ⟨length_afterValue stack, by simp⟩
  | closeObject | closeArray | colon | comma => cases h

/-- The stack of the automaton is as deep as the brackets that are open, and commas
stand inside some. -/
theorem length_step {limit : Option Nat} {s s' : Expect × List Bracket} {k : Kind}
    (h : step limit s k = some s') :
    s'.2.length = k.depth s.2.length ∧ (k = .comma → s.2.length ≠ 0) := by
  obtain ⟨expect, stack⟩ := s
  cases expect with
  | value =>
      simp only [step] at h
      exact ⟨(length_stepValue h).1, fun hk => absurd hk (length_stepValue h).2⟩
  | valueOrClose =>
      by_cases hk : k = .closeArray
      · subst hk
        cases stack with
        | nil => cases h
        | cons b stack =>
            cases h
            exact ⟨length_afterValue stack, by simp⟩
      · rw [step_valueOrClose hk] at h
        exact ⟨(length_stepValue h).1, fun hk => absurd hk (length_stepValue h).2⟩
  | key | colon =>
      cases k <;> cases h
      exact ⟨rfl, by simp⟩
  | keyOrClose =>
      cases stack with
      | nil =>
          cases k <;> cases h
          exact ⟨rfl, by simp⟩
      | cons b stack =>
          cases k <;> cases h
          · exact ⟨length_afterValue stack, by simp⟩
          · exact ⟨rfl, by simp⟩
  | commaOrClose =>
      -- Behind a value, the bracket around it decides what may come.
      cases stack with
      | nil => cases k <;> cases h
      | cons b stack =>
          cases b <;> cases k <;> cases h
          all_goals first | exact ⟨rfl, by simp⟩ | exact ⟨length_afterValue stack, by simp⟩
  | nothing => cases stack <;> cases k <;> cases h

/-- **No comma of a value is taken for one that divides its surroundings.** -/
theorem cutCommas_run {limit : Option Nat} {s s' : Expect × List Bracket} {ts : List Token}
    (h : run limit s ts = some s') (parts : List (List Token)) (part rest : List Token) :
    cutCommas parts part s.2.length (ts ++ rest) =
      cutCommas parts (ts.reverse ++ part) s'.2.length rest := by
  induction ts generalizing s part with
  | nil =>
      cases h
      rfl
  | cons t ts ih =>
      rw [run] at h
      split at h
      · cases h
      · next s₁ hstep =>
          obtain ⟨hdepth, hcomma⟩ := length_step hstep
          -- A comma in the value stands inside one of its own brackets.
          have hinner : (decide (t.kind = .comma) && s.2.length == 0) = false := by
            cases hk : decide (t.kind = .comma) with
            | false => rfl
            | true => simpa using hcomma (of_decide_eq_true hk)
          rw [List.reverse_cons, List.append_assoc, List.singleton_append, ← ih h, hdepth,
            List.cons_append, cutCommas]
          simp only [hinner, Bool.false_eq_true, if_false, Kind.depth]
          split
          · rfl
          · split <;> rfl

/-- Cutting passes over a value. -/
theorem cutCommas_value {limit : Option Nat} {ts : List Token} (h : isValue limit ts = true)
    (parts : List (List Token)) (part rest : List Token) :
    cutCommas parts part 0 (ts ++ rest) = cutCommas parts (ts.reverse ++ part) 0 rest := by
  have hrun : run limit (.value, []) ts = some (.nothing, []) := by simpa [isValue] using h
  exact cutCommas_run hrun parts part rest

/-! ### Objects -/

def memberTokens (m : String × List Token) : List Token :=
  ⟨[], .string, quote m.1⟩ :: ⟨[], .colon, [0x3A]⟩ :: m.2

def commaSeparated : List (List Token) → List Token
  | [] => []
  | [p] => p
  | p :: ps => p ++ ⟨[], .comma, [0x2C]⟩ :: commaSeparated ps

def objectTokens (ms : List (String × List Token)) : List Token :=
  ⟨[], .openObject, [0x7B]⟩ :: (commaSeparated (ms.map memberTokens) ++ [⟨[], .closeObject, [0x7D]⟩])

variable {n : Nat} {m : String × List Token} {ms : List (String × List Token)}

theorem spell_commaSeparated (ps : List (List Token)) :
    spell (commaSeparated ps) = separated 0x2C (ps.map spell) := by
  induction ps with
  | nil => rfl
  | cons p ps ih =>
      cases ps with
      | nil => rfl
      | cons q ps =>
          rw [commaSeparated, spell_append, spell_cons, ih]
          · rfl
          · simp

/-- The tokens of an object spell the object that is written. -/
theorem spell_objectTokens (ms : List (String × List Token)) :
    spell (objectTokens ms) = object (ms.map fun m => (m.1, spell m.2)) := by
  have hmembers : (ms.map memberTokens).map spell =
      (ms.map fun m => (m.1, spell m.2)).map fun m => quote m.1 ++ 0x3A :: m.2 := by
    rw [List.map_map, List.map_map]
    rfl
  rw [objectTokens, spell_cons, spell_append, spell_commaSeparated, hmembers]
  rfl

theorem mem_commaSeparated {ps : List (List Token)} {t : Token} (h : t ∈ commaSeparated ps) :
    t = ⟨[], .comma, [0x2C]⟩ ∨ ∃ p ∈ ps, t ∈ p := by
  induction ps with
  | nil => cases h
  | cons p ps ih =>
      cases ps with
      | nil => exact Or.inr ⟨p, List.mem_cons_self, h⟩
      | cons q ps =>
          rw [commaSeparated, List.mem_append, List.mem_cons] at h
          · rcases h with h | rfl | h
            · exact Or.inr ⟨p, List.mem_cons_self, h⟩
            · exact Or.inl rfl
            · rcases ih h with rfl | ⟨p', hp', ht⟩
              · exact Or.inl rfl
              · exact Or.inr ⟨p', List.mem_cons_of_mem p hp', ht⟩
          · simp

/-- A token of an object is one of its marks, or a name, or stands in a value. -/
theorem mem_objectTokens {t : Token} (h : t ∈ objectTokens ms) :
    t ∈ [⟨[], .openObject, [0x7B]⟩, ⟨[], .closeObject, [0x7D]⟩, ⟨[], .comma, [0x2C]⟩,
        (⟨[], .colon, [0x3A]⟩ : Token)] ∨
      (∃ m ∈ ms, t = ⟨[], .string, quote m.1⟩) ∨ ∃ m ∈ ms, t ∈ m.2 := by
  rcases List.mem_cons.mp h with rfl | h
  · exact Or.inl (by simp)
  rcases List.mem_append.mp h with h | h
  · rcases mem_commaSeparated h with rfl | ⟨p, hp, h⟩
    · exact Or.inl (by simp)
    · obtain ⟨m, hm, rfl⟩ := List.mem_map.mp hp
      rcases List.mem_cons.mp h with rfl | h
      · exact Or.inr (Or.inl ⟨m, hm, rfl⟩)
      rcases List.mem_cons.mp h with rfl | h
      · exact Or.inl (by simp)
      · exact Or.inr (Or.inr ⟨m, hm, h⟩)
  · rw [List.mem_singleton.mp h]
    exact Or.inl (by simp)

theorem proper_objectTokens (h : ∀ m ∈ ms, ∀ t ∈ m.2, t.Proper) :
    ∀ t ∈ objectTokens ms, t.Proper := by
  intro t ht
  rcases mem_objectTokens ht with hmark | ⟨m, -, rfl⟩ | ⟨m, hm, ht⟩
  · simp only [List.mem_cons, List.not_mem_nil, or_false] at hmark
    rcases hmark with rfl | rfl | rfl | rfl
    · exact ⟨rfl, .openObject⟩
    · exact ⟨rfl, .closeObject⟩
    · exact ⟨rfl, .comma⟩
    · exact ⟨rfl, .colon⟩
  · exact ⟨rfl, spells_quote m.1⟩
  · exact h m hm t ht

/-- A member, as the first of an object or behind a comma. -/
theorem run_memberTokens (h : isValue (some n) m.2 = true) {expect : Expect}
    (hexpect : expect = .keyOrClose ∨ expect = .key) :
    run (some (n + 1)) (expect, [.object]) (memberTokens m) = some (.commaOrClose, [.object]) := by
  have hrun : run (some n) (.value, []) m.2 = some (.nothing, []) := by simpa [isValue] using h
  have hlift := run_lift hrun [.object]
  rcases hexpect with rfl | rfl <;> exact hlift

theorem run_commaSeparated (hne : ms ≠ []) (h : ∀ m ∈ ms, isValue (some n) m.2 = true) {expect : Expect}
    (hexpect : expect = .keyOrClose ∨ expect = .key) :
    run (some (n + 1)) (expect, [.object]) (commaSeparated (ms.map memberTokens)) =
      some (.commaOrClose, [.object]) := by
  induction ms generalizing expect with
  | nil => exact absurd rfl hne
  | cons m ms ih =>
      obtain ⟨hm, hms⟩ := List.forall_mem_cons.mp h
      have hmember := run_memberTokens hm hexpect
      cases ms with
      | nil => exact hmember
      | cons m' ms =>
          rw [List.map_cons, List.map_cons, commaSeparated, run_append hmember]
          · exact ih (List.cons_ne_nil m' ms) hms (Or.inr rfl)
          · simp

/-- An object of values is a value, one level deeper. -/
theorem isValue_objectTokens (hne : ms ≠ []) (h : ∀ m ∈ ms, isValue (some n) m.2 = true) :
    isValue (some (n + 1)) (objectTokens ms) = true := by
  have hstart : run (some (n + 1)) (.value, []) [⟨[], .openObject, [0x7B]⟩] =
      some (.keyOrClose, [.object]) := by
    simp [run, step, stepValue, pushBracket]
  have hmembers := run_commaSeparated hne h (Or.inl rfl)
  have hrun : run (some (n + 1)) (.value, []) (objectTokens ms) = some (.nothing, []) := by
    rw [objectTokens, ← List.singleton_append, run_append hstart, run_append hmembers]
    rfl
  rw [isValue, hrun]
  rfl

/-- **The object that is written for some values is read as their tokens.** -/
theorem parse?_object (hne : ms ≠ []) (hproper : ∀ m ∈ ms, ∀ t ∈ m.2, t.Proper)
    (h : ∀ m ∈ ms, isValue (some n) m.2 = true) :
    parse? (some (n + 1)) (object (ms.map fun m => (m.1, spell m.2))) = some (objectTokens ms) := by
  rw [← spell_objectTokens]
  exact parse?_spell (proper_objectTokens hproper) (isValue_objectTokens hne h)

theorem cutCommas_memberTokens (h : isValue (some n) m.2 = true) (parts : List (List Token))
    (rest : List Token) :
    cutCommas parts [] 0 (memberTokens m ++ rest) =
      cutCommas parts (memberTokens m).reverse 0 rest := by
  have hcut := cutCommas_value h parts [⟨[], .colon, [0x3A]⟩, ⟨[], .string, quote m.1⟩] rest
  rw [memberTokens, List.reverse_cons, List.reverse_cons, List.append_assoc, List.singleton_append]
  exact hcut

/-- Members are cut apart at the commas between them, and nowhere else. -/
theorem cutCommas_commaSeparated (hne : ms ≠ []) (h : ∀ m ∈ ms, isValue (some n) m.2 = true)
    (parts : List (List Token)) :
    cutCommas parts [] 0 (commaSeparated (ms.map memberTokens)) =
      parts.reverse ++ ms.map memberTokens := by
  induction ms generalizing parts with
  | nil => exact absurd rfl hne
  | cons m ms ih =>
      obtain ⟨hm, hms⟩ := List.forall_mem_cons.mp h
      have hcut := cutCommas_memberTokens hm parts
      cases ms with
      | nil =>
          have hlast := hcut []
          rw [List.append_nil] at hlast
          rw [List.map_singleton, commaSeparated, hlast, cutCommas]
          simp
      | cons m' ms =>
          rw [List.map_cons, List.map_cons, commaSeparated, hcut, cutCommas]
          · rw [if_pos (by decide), List.reverse_reverse, ← List.map_cons, ih (List.cons_ne_nil m' ms) hms]
            simp
          · simp

/-- **The members of a written object are those it was written from.** -/
theorem members_objectTokens (hne : ms ≠ []) (h : ∀ m ∈ ms, isValue (some n) m.2 = true) :
    members (objectTokens ms) = ms.map fun m => (quote m.1, m.2) := by
  have hcut := cutCommas_commaSeparated hne h []
  have hinner : commaSeparated (ms.map memberTokens) ≠ [] := by
    cases ms with
    | nil => exact absurd rfl hne
    | cons m ms => cases ms <;> simp [commaSeparated, memberTokens]
  have hinside : inside (objectTokens ms) = ms.map memberTokens := by
    rw [objectTokens, inside, List.dropLast_concat]
    split
    · next hnil => exact absurd hnil hinner
    · exact hcut
  rw [members, hinside, List.filterMap_map]
  exact congrFun List.filterMap_eq_map ms

/-- A member that is written under its name goes to the reader of that name. -/
theorem membersInto_quote {α : Type} {fields : List (Decoder.FieldReader α)}
    {f : Decoder.FieldReader α} {name : String} (hf : fields.find? (fun f => Text.sameName f.name.toList name.toList) = some f)
    (current : α) (value : List Token) (rest : List (Bytes × List Token)) :
    Decoder.membersInto fields current ((quote name, value) :: rest) =
      (f.update current value).bind fun current => Decoder.membersInto fields current rest := by
  rw [Decoder.membersInto, unquote_quote, hf]
  dsimp only
  cases f.update current value <;> rfl

/-- A member whose value can be read leads on to the members behind it. -/
theorem membersInto_of_update {α : Type} {fields : List (Decoder.FieldReader α)}
    {f : Decoder.FieldReader α} {name : String} (hf : fields.find? (fun f => Text.sameName f.name.toList name.toList) = some f)
    {current next : α} {value : List Token} (h : f.update current value = some next)
    (rest : List (Bytes × List Token)) :
    Decoder.membersInto fields current ((quote name, value) :: rest) =
      Decoder.membersInto fields next rest := by
  rw [membersInto_quote hf, h, Option.bind_some]

/-- A record is read from a written object, member by member. -/
theorem record_objectTokens {α : Type} (fields : List (Decoder.FieldReader α)) (current : α)
    (hne : ms ≠ []) (h : ∀ m ∈ ms, isValue (some n) m.2 = true) :
    Decoder.record fields current (objectTokens ms) =
      Decoder.membersInto fields current (ms.map fun m => (quote m.1, m.2)) := by
  rw [← members_objectTokens hne h]
  rfl

end LanguageClient.Json
