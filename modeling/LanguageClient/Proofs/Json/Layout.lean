import Mathlib.Data.List.TakeWhile
import LanguageClient.Proofs.Json.Token

/-! # Tokens and the white space before them.

The reader keeps the white space before each token, so a text is what its tokens are, laid
out one after the other, and white space at its end (`laid_of_tokens?`). In a value every
number is followed by what ends it (`flows_of_run`), white space as well as a comma or a
bracket, and so what is laid out for the tokens of a value is read as these tokens again
(`tokens?_written`). The fragment of a value is read as the value, less the white space
before it (`parse?_fragment`), and tokens with nothing between them are read back from
their octets (`parse?_spell`). -/

namespace LanguageClient.Json

/-! ### White space -/

def Blank (bs : Bytes) : Prop := ∀ b ∈ bs, isSpace b = true

theorem blank_nil : Blank [] := by
  intro b hb
  cases hb

theorem blank_takeWhile (bs : Bytes) : Blank (bs.takeWhile isSpace) := by
  intro b hb
  exact List.all_eq_true.mp List.all_takeWhile b hb

/-- White space ends a number. -/
theorem ends_of_isSpace {b : UInt8} (h : isSpace b = true) (rest : Bytes) : Ends (b :: rest) := by
  intro c hc
  cases hc
  have hall : ∀ b : UInt8, isSpace b = true → isDigit b = false ∧ b ≠ 0x2E ∧ b ≠ 0x65 ∧ b ≠ 0x45 := by
    apply Utf8.forall_octet
    decide +kernel
  exact hall b h

/-- What ends a number does so behind white space as well. -/
theorem Ends.blank_append {space rest : Bytes} (h : Ends rest) (hspace : Blank space) :
    Ends (space ++ rest) := by
  cases space with
  | nil => exact h
  | cons b space => exact ends_of_isSpace (hspace b List.mem_cons_self) _

theorem Blank.ends {space : Bytes} (h : Blank space) : Ends space := by
  rw [← List.append_nil space]
  exact ends_nil.blank_append h

/-! ### What is laid out -/

/-- A token with white space before it, spelled as tokens are. -/
structure Token.Laid (t : Token) : Prop where
  blank : Blank t.space
  spells : Spells t.kind t.lexeme

/-- Tokens as they are laid out, each behind its white space. -/
def written (ts : List Token) : Bytes := ts.flatMap fun t => t.space ++ t.lexeme

@[simp] theorem written_nil : written [] = [] := rfl

@[simp] theorem written_cons (t : Token) (ts : List Token) :
    written (t :: ts) = t.space ++ (t.lexeme ++ written ts) := by
  rw [written, List.flatMap_cons, List.append_assoc]
  rfl

@[simp] theorem written_append (ts ts' : List Token) : written (ts ++ ts') = written ts ++ written ts' :=
  List.flatMap_append

/-- Tokens of which none runs into what follows it, up to the end of a text. -/
def Flows (tail : Bytes) : List Token → Prop
  | [] => True
  | t :: ts => t.Laid ∧ (t.kind = .number → Ends (written ts ++ tail)) ∧ Flows tail ts

/-- White space behind a token is taken off with nothing more. -/
theorem takeWhile_space {space lexeme : Bytes} {k : Kind} (hspace : Blank space) (h : Spells k lexeme)
    (rest : Bytes) : (space ++ (lexeme ++ rest)).takeWhile isSpace = space ∧
      (space ++ (lexeme ++ rest)).dropWhile isSpace = lexeme ++ rest := by
  obtain ⟨b, r, rfl, hb⟩ := h.cons
  constructor
  · rw [List.takeWhile_append_of_pos hspace, List.cons_append, List.takeWhile_cons_of_neg (by simp [hb]),
      List.append_nil]
  · rw [List.dropWhile_append_of_pos hspace, List.cons_append, List.dropWhile_cons_of_neg (by simp [hb])]

/-- Tokens that were laid out are read back, behind those found before. -/
theorem tokensFrom_written {ts : List Token} {tail : Bytes} (h : Flows tail ts) (htail : Blank tail)
    {fuel : Nat} (hfuel : ts.length < fuel) (found : List Token) :
    tokensFrom found fuel (written ts ++ tail) = some (found.reverse ++ ts) := by
  induction ts generalizing fuel found with
  | nil =>
      cases fuel with
      | zero => cases hfuel
      | succ fuel =>
          have hdrop : tail.dropWhile isSpace = [] := List.dropWhile_eq_nil_iff.mpr htail
          simp [tokensFrom, hdrop]
  | cons t ts ih =>
      obtain ⟨⟨hspace, hspells⟩, hends, hflows⟩ := h
      cases fuel with
      | zero => cases hfuel
      | succ fuel =>
          obtain ⟨b, r, hb, -⟩ := hspells.cons
          obtain ⟨htake, hdrop⟩ := takeWhile_space hspace hspells (written ts ++ tail)
          have htoken := token?_of_spells hspells hends t.space
          rw [written_cons, List.append_assoc, List.append_assoc]
          rw [hb, List.cons_append] at htake hdrop
          rw [hb, List.cons_append, ← hb] at htoken
          rw [hb, List.cons_append]
          simp only [tokensFrom, htake, hdrop, htoken]
          rw [ih hflows (Nat.lt_of_succ_lt_succ hfuel), List.reverse_cons, List.append_assoc]
          rfl

/-- Every token takes an octet at least. -/
theorem length_le_written {ts : List Token} {tail : Bytes} (h : Flows tail ts) :
    ts.length ≤ (written ts).length := by
  induction ts with
  | nil => exact Nat.le_refl 0
  | cons t ts ih =>
      obtain ⟨⟨-, hspells⟩, -, hflows⟩ := h
      obtain ⟨b, r, hb, -⟩ := hspells.cons
      have hrest := ih hflows
      rw [written_cons, hb]
      simp only [List.length_cons, List.length_append]
      omega

/-- **Tokens are read back from where they are laid out.** -/
theorem tokens?_of_flows {ts : List Token} {tail : Bytes} (h : Flows tail ts) (htail : Blank tail) :
    tokens? (written ts ++ tail) = some ts := by
  have hlength := length_le_written h
  rw [tokens?, tokensFrom_written h htail]
  · rfl
  · rw [List.length_append]
    omega

/-- A text that was read as tokens is their layout, with white space behind it. -/
theorem laid_of_tokensFrom {found ts : List Token} {fuel : Nat} {bs : Bytes}
    (h : tokensFrom found fuel bs = some ts) :
    ∃ new tail, ts = found.reverse ++ new ∧ bs = written new ++ tail ∧ Blank tail ∧ ∀ t ∈ new, t.Laid := by
  induction fuel generalizing found bs with
  | zero => cases h
  | succ fuel ih =>
      simp only [tokensFrom] at h
      split at h
      · next hdrop =>
          cases h
          refine ⟨[], bs, by simp, rfl, ?_, by simp⟩
          exact List.dropWhile_eq_nil_iff.mp hdrop
      -- The white space in front of a token is part of its layout.
      · split at h
        · cases h
        · next t rest htoken =>
            obtain ⟨hspace, hspells, hbs⟩ := spells_of_token? htoken
            obtain ⟨new, tail, hts, hrest, htail, hnew⟩ := ih h
            refine ⟨t :: new, tail, ?_, ?_, htail, ?_⟩
            · rw [hts, List.reverse_cons, List.append_assoc]
              rfl
            · calc bs = bs.takeWhile isSpace ++ bs.dropWhile isSpace := List.takeWhile_append_dropWhile.symm
                _ = t.space ++ (t.lexeme ++ rest) := by rw [hspace, hbs]
                _ = written (t :: new) ++ tail := by
                    rw [hrest, written_cons, List.append_assoc, List.append_assoc]
            · exact List.forall_mem_cons.mpr ⟨⟨hspace ▸ blank_takeWhile bs, hspells⟩, hnew⟩

/-- **A text is its tokens, laid out, and white space at its end.** -/
theorem laid_of_tokens? {bs : Bytes} {ts : List Token} (h : tokens? bs = some ts) :
    ∃ tail, bs = written ts ++ tail ∧ Blank tail ∧ ∀ t ∈ ts, t.Laid := by
  obtain ⟨new, tail, hts, hbs, htail, hnew⟩ := laid_of_tokensFrom h
  obtain rfl : ts = new := hts
  exact ⟨tail, hbs, htail, hnew⟩

/-- The tokens of a text are spelled as tokens are. -/
theorem spells_of_tokens? {bs : Bytes} {ts : List Token} (h : tokens? bs = some ts) :
    ∀ t ∈ ts, Spells t.kind t.lexeme := by
  obtain ⟨-, -, -, hlaid⟩ := laid_of_tokens? h
  exact fun t ht => (hlaid t ht).spells

/-! ### Values -/

/-- Behind a number stands the state behind a value. -/
theorem step_number {limit : Option Nat} {s s' : Expect × List Bracket}
    (h : step limit s .number = some s') : ∃ stack, s' = afterValue stack := by
  obtain ⟨expect, stack⟩ := s
  cases expect <;> cases stack <;> simp [step, stepValue] at h <;> exact ⟨_, h.symm⟩

/-- A value is followed by a comma or a closing bracket. -/
theorem step_afterValue {limit : Option Nat} {stack : List Bracket} {k : Kind}
    {s : Expect × List Bracket} (h : step limit (afterValue stack) k = some s) :
    k = .comma ∨ k = .closeObject ∨ k = .closeArray := by
  cases stack with
  | nil => cases k <;> simp [afterValue, step] at h
  | cons b stack => cases b <;> cases k <;> simp [afterValue, step] at h ⊢

theorem Spells.ends {k : Kind} {lexeme : Bytes} (h : Spells k lexeme)
    (hk : k = .comma ∨ k = .closeObject ∨ k = .closeArray) (rest : Bytes) : Ends (lexeme ++ rest) := by
  rcases hk with rfl | rfl | rfl <;> cases h <;> simp [Ends] <;> decide

/-- In a value every number is followed by what ends it. -/
theorem flows_of_run {limit : Option Nat} {s s' : Expect × List Bracket} {ts : List Token} {tail : Bytes}
    (h : run limit s ts = some s') (hts : ∀ t ∈ ts, t.Laid) (htail : Blank tail) : Flows tail ts := by
  induction ts generalizing s with
  | nil => trivial
  | cons t ts ih =>
      obtain ⟨ht, hts⟩ := List.forall_mem_cons.mp hts
      rw [run] at h
      split at h
      · cases h
      · next s₁ hstep =>
          -- Only a number needs something to end it: the token behind it does.
          refine ⟨ht, fun hnumber => ?_, ih h hts⟩
          rw [hnumber] at hstep
          obtain ⟨stack, rfl⟩ := step_number hstep
          cases ts with
          | nil => exact htail.ends
          | cons t' ts =>
              rw [run] at h
              split at h
              · cases h
              · next hstep' =>
                  obtain ⟨hspace, hspells⟩ := hts t' List.mem_cons_self
                  rw [written_cons, List.append_assoc, List.append_assoc]
                  exact (hspells.ends (step_afterValue hstep') _).blank_append hspace

/-- **The tokens of a value are read back from where they are laid out**, with white space
at the end as well. -/
theorem tokens?_written {limit : Option Nat} {s s' : Expect × List Bracket} {ts : List Token}
    {tail : Bytes} (h : run limit s ts = some s') (hts : ∀ t ∈ ts, t.Laid) (htail : Blank tail) :
    tokens? (written ts ++ tail) = some ts :=
  tokens?_of_flows (flows_of_run h hts htail) htail

/-- A text is parsed exactly as the tokens it consists of, if they are a value. -/
theorem parse?_eq_some {limit : Option Nat} {bs : Bytes} {ts : List Token} :
    parse? limit bs = some ts ↔ tokens? bs = some ts ∧ isValue limit ts = true := by
  rw [parse?]
  cases tokens? bs with
  | none => simp
  | some ts' => by_cases hvalue : isValue limit ts' = true <;> grind

/-! ### Nothing between tokens -/

/-- The octets of tokens with nothing between them. -/
def spell (ts : List Token) : Bytes := ts.flatMap Token.lexeme

theorem spell_cons (t : Token) (ts : List Token) : spell (t :: ts) = t.lexeme ++ spell ts := rfl

theorem spell_append (ts ts' : List Token) : spell (ts ++ ts') = spell ts ++ spell ts' :=
  List.flatMap_append

/-- A token without white space before it, spelled as tokens are. -/
def Token.Proper (t : Token) : Prop := t.space = [] ∧ Spells t.kind t.lexeme

theorem written_of_proper {ts : List Token} (h : ∀ t ∈ ts, t.Proper) : written ts = spell ts := by
  induction ts with
  | nil => rfl
  | cons t ts ih =>
      obtain ⟨⟨hspace, -⟩, hts⟩ := List.forall_mem_cons.mp h
      rw [written_cons, hspace, ih hts, spell_cons, List.nil_append]

theorem Token.Proper.laid {t : Token} (h : t.Proper) : t.Laid := by
  obtain ⟨hspace, hspells⟩ := h
  exact ⟨hspace ▸ blank_nil, hspells⟩

/-- **A value is read back from its octets.** -/
theorem parse?_spell {limit : Option Nat} {ts : List Token} (hts : ∀ t ∈ ts, t.Proper)
    (h : isValue limit ts = true) : parse? limit (spell ts) = some ts := by
  have hrun : run limit (.value, []) ts = some (.nothing, []) := by simpa [isValue] using h
  have htokens := tokens?_written hrun (fun t ht => (hts t ht).laid) blank_nil
  rw [List.append_nil, written_of_proper hts] at htokens
  exact parse?_eq_some.mpr ⟨htokens, h⟩

/-! ### Fragments -/

/-- Tokens with other white space in front. -/
def respace (space : Bytes) : List Token → List Token
  | [] => []
  | t :: ts => { t with space } :: ts

@[simp] theorem respace_cons (space : Bytes) (t : Token) (ts : List Token) :
    respace space (t :: ts) = { t with space } :: ts := rfl

@[simp] theorem respace_respace (a b : Bytes) (ts : List Token) :
    respace a (respace b ts) = respace a ts := by
  cases ts <;> rfl

/-- White space in front does not belong to a fragment. -/
@[simp] theorem fragment_respace (space : Bytes) (ts : List Token) :
    fragment (respace space ts) = fragment ts := by
  cases ts <;> rfl

theorem written_respace {ts : List Token} (h : ts ≠ []) (space : Bytes) :
    written (respace space ts) = space ++ fragment ts := by
  cases ts with
  | nil => exact absurd rfl h
  | cons t ts =>
      rw [respace_cons, written_cons]
      rfl

theorem run_respace (limit : Option Nat) (s : Expect × List Bracket) (space : Bytes) (ts : List Token) :
    run limit s (respace space ts) = run limit s ts := by
  cases ts <;> rfl

@[simp] theorem isValue_respace (limit : Option Nat) (space : Bytes) (ts : List Token) :
    isValue limit (respace space ts) = isValue limit ts := by
  rw [isValue, run_respace, isValue]

theorem laid_respace {space : Bytes} {ts : List Token} (hspace : Blank space) (h : ∀ t ∈ ts, t.Laid) :
    ∀ t ∈ respace space ts, t.Laid := by
  cases ts with
  | nil => exact h
  | cons t ts =>
      obtain ⟨ht, hts⟩ := List.forall_mem_cons.mp h
      exact List.forall_mem_cons.mpr ⟨⟨hspace, ht.spells⟩, hts⟩

theorem ne_nil_of_isValue {limit : Option Nat} {ts : List Token} (h : isValue limit ts = true) : ts ≠ [] := by
  rintro rfl
  cases h

/-- **The fragment of a value is read as the value**, less the white space before it. -/
theorem parse?_fragment {limit : Option Nat} {ts : List Token} (h : isValue limit ts = true)
    (hts : ∀ t ∈ ts, t.Laid) : parse? limit (fragment ts) = some (respace [] ts) := by
  have hvalue : isValue limit (respace [] ts) = true := by rwa [isValue_respace]
  have hrun : run limit (.value, []) (respace [] ts) = some (.nothing, []) := by simpa [isValue] using hvalue
  have htokens := tokens?_written hrun (laid_respace blank_nil hts) blank_nil
  rw [written_respace (ne_nil_of_isValue h), List.nil_append, List.append_nil] at htokens
  exact parse?_eq_some.mpr ⟨htokens, hvalue⟩

end LanguageClient.Json
