import LanguageClient.Json.Decode
import LanguageClient.Proofs.Json.Layout
import LanguageClient.Proofs.Json.Text

/-! # Compact texts.

A compact text spells the tokens of the value it was made from, less the white space
and with markup escaped (`parse?_compact`). The automaton reads the kinds of tokens
only, and no escape changes what a string denotes, so the two have one value
(`ofTokens?_squeeze`): whoever decodes the one decodes the other (`run_any_compact`). -/

namespace LanguageClient.Json

variable {limit : Option Nat} {t : Token} {ts : List Token}

/-! ### Tokens of a compact text -/

/-- A token as it stands in a compact text. -/
def Token.squeeze (t : Token) : Token := ⟨[], t.kind, escapeMarkup [] t.lexeme⟩

theorem proper_squeeze (h : Spells t.kind t.lexeme) : t.squeeze.Proper := ⟨rfl, h.escapeMarkup⟩

theorem proper_map_squeeze (h : ∀ t ∈ ts, Spells t.kind t.lexeme) :
    ∀ t ∈ ts.map Token.squeeze, t.Proper := by
  intro t ht
  obtain ⟨u, hu, rfl⟩ := List.mem_map.mp ht
  exact proper_squeeze (h u hu)

/-- Squeezed tokens spell the compact text. -/
theorem spell_map_squeeze (ts : List Token) : spell (ts.map Token.squeeze) = compact ts :=
  List.flatMap_map Token.squeeze Token.lexeme ts

/-- A fragment of a compact text is compact too. -/
theorem fragment_map_squeeze (ts : List Token) : fragment (ts.map Token.squeeze) = compact ts := by
  cases ts with
  | nil => rfl
  | cons t ts =>
      rw [List.map_cons, fragment, List.flatMap_map]
      rfl

theorem run_map_squeeze (limit : Option Nat) (s : Expect × List Bracket) (ts : List Token) :
    run limit s (ts.map Token.squeeze) = run limit s ts := by
  induction ts generalizing s with
  | nil => rfl
  | cons t ts ih =>
      simp only [List.map_cons, run, Token.squeeze]
      cases step limit s t.kind with
      | none => rfl
      | some s₁ => exact ih s₁

/-- Squeezing makes no difference to whether tokens are a value. -/
theorem isValue_map_squeeze (limit : Option Nat) (ts : List Token) :
    isValue limit (ts.map Token.squeeze) = isValue limit ts := by
  rw [isValue, run_map_squeeze, isValue]

/-- **A compact text is read as the tokens it was made from.** -/
theorem parse?_compact {text : Bytes} (h : parse? limit text = some ts) :
    parse? limit (compact ts) = some (ts.map Token.squeeze) := by
  obtain ⟨htokens, hvalue⟩ := parse?_eq_some.mp h
  rw [← spell_map_squeeze]
  apply parse?_spell
  · exact proper_map_squeeze (spells_of_tokens? htokens)
  · rw [isValue_map_squeeze]
    exact hvalue

/-! ### Values -/

theorem scalar?_squeeze (h : Spells t.kind t.lexeme) : scalar? t.squeeze = scalar? t := by
  obtain ⟨space, kind, lexeme⟩ := t
  cases kind with
  | string => exact congrArg (some ∘ Value.string) (unquote_escapeMarkup h)
  | number =>
      cases h with
      | number hn => exact congrArg (fun n => (numberOf? n).map Value.number) (escapeMarkup_numeral hn)
  | openObject | closeObject | openArray | closeArray | colon | comma | bool | null => rfl

/-- Squeezing makes no difference to the value that is built. -/
theorem build_map_squeeze (h : ∀ t ∈ ts, Spells t.kind t.lexeme) (result : Option Value)
    (stack : List Open) :
    build result stack (ts.map Token.squeeze) = build result stack ts := by
  induction ts generalizing result stack with
  | nil => rfl
  | cons t ts ih =>
      obtain ⟨ht, hts⟩ := List.forall_mem_cons.mp h
      have hscalar := scalar?_squeeze ht
      obtain ⟨space, kind, lexeme⟩ := t
      cases kind with
      | openObject | openArray | colon | comma | bool | null => exact ih hts _ _
      | closeObject | closeArray =>
          -- brackets that do not match give no value on either side
          rcases stack with _ | ⟨done | ⟨done, name⟩, stack⟩ <;> first | exact ih hts _ _ | rfl
      | number =>
          simp only [List.map_cons, Token.squeeze, build] at hscalar ⊢
          rw [hscalar]
          cases scalar? ⟨space, .number, lexeme⟩ with
          | none => rfl
          | some v => exact ih hts _ _
      | string =>
          have hname := unquote_escapeMarkup ht
          rcases stack with _ | ⟨done | ⟨done, _ | name⟩, stack⟩
          all_goals
            simp only [List.map_cons, Token.squeeze, build, scalar?, hname]
            exact ih hts _ _

/-- **Compacting keeps the value.** -/
theorem ofTokens?_squeeze (h : ∀ t ∈ ts, Spells t.kind t.lexeme) :
    Value.ofTokens? (ts.map Token.squeeze) = Value.ofTokens? ts := build_map_squeeze h none []

/-- **Whoever decodes a compact text decodes the text it was made from.** -/
theorem run_any_compact {text : Bytes} (h : parse? (some maxDepth) text = some ts) (zero : Value) :
    Decoder.any.run zero (compact ts) = Decoder.any.run zero text := by
  have hsame : Decoder.any zero (ts.map Token.squeeze) = Decoder.any zero ts :=
    ofTokens?_squeeze (spells_of_tokens? (parse?_eq_some.mp h).1)
  rw [Decoder.run, Decoder.run, parse?_compact h, h]
  dsimp only
  rw [hsame]

end LanguageClient.Json
