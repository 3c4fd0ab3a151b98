import LanguageClient.Proofs.Json.Object
import LanguageClient.Proofs.Number.Decimal

/-! # What is written is read back, and is compact already.

Numbers are spelled as the numbers of JSON are (`numeral_integer`) and denote what was
written (`integerOf?_integer`). A written string has no markup in it that would have to
be escaped (`escapeMarkup_quote`), and octets are written as their text
(`quoteBytes_eq`). The array that is written for values has these values for its elements
(`elements_arrayTokens`). -/

namespace LanguageClient.Json

/-! ### Numbers -/

theorem toNat_of_mem_natText {n : Nat} {c : Char} (h : c ∈ Number.natText n) :
    0x30 ≤ c.toNat ∧ c.toNat ≤ 0x39 := by
  have hdigit := Number.isDigit_of_mem_natText h
  simp only [Char.isDigit, Bool.and_eq_true, decide_eq_true_eq] at hdigit
  exact hdigit

theorem decode_integer (n : Int) : Utf8.decode (integer n) = (Number.intText n).toList := by
  have hencode : integer n = Utf8.encode (Number.intText n).toList ++ [] := (List.append_nil _).symm
  rw [hencode, decode_append_encode]
  exact List.append_nil _

theorem integer_natCast (n : Nat) : integer n = ascii (Number.natText n) := by
  have hascii : ∀ c ∈ Number.natText n, c.toNat < 0x80 := fun c hc =>
    Nat.lt_of_le_of_lt (toNat_of_mem_natText hc).2 (by decide)
  rw [ascii_eq_encode hascii]
  exact congrArg Utf8.encode String.toList_ofList

/-- A number without a sign is written in digits. -/
theorem isDigit_of_mem_integer {n : Nat} {b : UInt8} (h : b ∈ integer n) : isDigit b = true := by
  rw [integer_natCast] at h
  obtain ⟨c, hc, rfl⟩ := List.mem_map.mp h
  obtain ⟨hlow, hhigh⟩ := toNat_of_mem_natText hc
  have htoNat : (UInt8.ofNat c.toNat).toNat = c.toNat :=
    UInt8.toNat_ofNat_of_lt' (show c.toNat < 256 by omega)
  simp only [isDigit, Bool.and_eq_true, decide_eq_true_eq, UInt8.le_iff_toNat_le, htoNat]
  exact ⟨hlow, hhigh⟩

/-- No number starts with a zero, unless it is one. -/
theorem head?_integer {n : Nat} (h : n ≠ 0) : (integer n).head? ≠ some 0x30 := by
  intro hzero
  rw [integer_natCast, ascii, List.head?_map, Option.map_eq_some_iff] at hzero
  obtain ⟨c, hc, hoctet⟩ := hzero
  have hrange := toNat_of_mem_natText (List.mem_of_head? hc)
  have htoNat := congrArg UInt8.toNat hoctet
  rw [UInt8.toNat_ofNat_of_lt' (show c.toNat < 256 by omega)] at htoNat
  rw [show c = '0' from eq_of_toNat htoNat] at hc
  exact Number.head?_natText h hc

/-- A number is written without zeros in front. -/
theorem whole_integer (n : Nat) : Whole (integer n) := by
  by_cases hn : n = 0
  · subst hn
    exact Or.inl (by decide)
  · refine Or.inr ⟨⟨?_, fun b hb => isDigit_of_mem_integer hb⟩, head?_integer hn⟩
    rw [integer_natCast]
    simp [ascii, Number.natText_ne_nil]

theorem integer_negSucc (n : Nat) : integer (Int.negSucc n) = 0x2D :: integer ((n + 1 : Nat) : Int) := by
  have hcons (c : Char) (cs : List Char) :
      utf8 (String.ofList (c :: cs)) = Utf8.encodeChar c ++ utf8 (String.ofList cs) := by
    rw [utf8, utf8, String.toList_ofList, String.toList_ofList]
    rfl
  exact hcons '-' (Number.natText (n + 1))

/-- **A number is spelled as the numbers of JSON are.** -/
theorem numeral_integer (n : Int) : Numeral (integer n) := by
  cases n with
  | ofNat n =>
      exact ⟨[], integer n, [], [], by decide, whole_integer n, Or.inl rfl, Or.inl rfl, by simp⟩
  | negSucc n =>
      refine ⟨[0x2D], integer ((n + 1 : Nat) : Int), [], [], by decide, whole_integer (n + 1), Or.inl rfl,
        Or.inl rfl, ?_⟩
      rw [integer_negSucc]
      simp

/-- A number of 64 bits is read back. -/
theorem integerOf?_integer {n : Int} (h : Number.fitsInt64 n = true) :
    integerOf? (integer n) = some n := by
  rw [integerOf?, decode_integer]
  exact Number.int64?_intText h

/-! ### Written strings -/

/-- A character that is written as it is. -/
def Unmarked (c : Char) : Prop := c ∉ ['<', '>', '&', '\u2028', '\u2029']

instance (c : Char) : Decidable (Unmarked c) :=
  inferInstanceAs (Decidable (c ∉ ['<', '>', '&', '\u2028', '\u2029']))

theorem ofNat_not_marked {n : Nat} (hn : n < 256) (h : n ∉ [0x3C, 0x3E, 0x26, 0xE2]) :
    UInt8.ofNat n ∉ [0x3C, 0x3E, 0x26, 0xE2] := by
  intro hm
  have hm' := List.mem_map_of_mem (f := UInt8.toNat) hm
  rw [UInt8.toNat_ofNat_of_lt' hn] at hm'
  exact h hm'

theorem escapeOctet_of_high {b : UInt8} (h : 0x80 ≤ b.toNat) : escapeOctet b = [b] := by
  have hne {n : UInt8} (hn : n.toNat < 0x80) : (b == n) = false := by
    rw [beq_eq_false_iff_ne]
    rintro rfl
    omega
  simp [escapeOctet, hne (n := 0x3C) (by decide), hne (n := 0x3E) (by decide),
    hne (n := 0x26) (by decide)]

/-- The octets of a character that is not marked are left alone. -/
theorem escapeMarkup_encodeChar {c : Char} (h : Unmarked c) (r : Bytes) :
    escapeMarkup [] (Utf8.encodeChar c ++ r) = Utf8.encodeChar c ++ escapeMarkup [] r := by
  have hvalue (d : Char) (hd : d ∈ ['<', '>', '&', '\u2028', '\u2029']) : c.val.toNat ≠ d.toNat :=
    fun he => h (eq_of_toNat he ▸ hd)
  have hlimit : c.val.toNat < 0x110000 := by have := c.valid; omega
  simp only [List.mem_cons, List.not_mem_nil, or_false, forall_eq_or_imp, forall_eq,
    Char.reduceToNat] at hvalue
  unfold Utf8.encodeChar String.utf8EncodeChar
  generalize c.val.toNat = v at *
  simp only
  have hother (n : Nat) (h : n ≠ 0x3C ∧ n ≠ 0x3E ∧ n ≠ 0x26 ∧ n ≠ 0xE2) (hn : n < 256) :
      UInt8.ofNat n ∉ [0x3C, 0x3E, 0x26, 0xE2] := ofNat_not_marked hn (by simpa using h)
  -- One case for each number of octets.
  split
  · apply escapeMarkup_of_forall
    simp only [List.forall_mem_singleton]
    exact hother _ (by omega) (by omega)
  split
  · apply escapeMarkup_of_forall
    simp only [List.forall_mem_cons, List.not_mem_nil, false_imp_iff, implies_true, and_true]
    exact ⟨hother _ (by omega) (by omega), hother _ (by omega) (by omega)⟩
  split
  · -- three octets may be those of a separator, but not here
    have hsep : ¬ Separates (UInt8.ofNat (v / 4096 % 16 + 0xE0) :: (UInt8.ofNat (v / 64 % 64 + 0x80) ::
        UInt8.ofNat (v % 64 + 0x80) :: r)) := by
      have h0 := UInt8.toNat_ofNat_of_lt' (show v / 4096 % 16 + 0xE0 < 256 by omega)
      have h1 := UInt8.toNat_ofNat_of_lt' (show v / 64 % 64 + 0x80 < 256 by omega)
      have h2 := UInt8.toNat_ofNat_of_lt' (show v % 64 + 0x80 < 256 by omega)
      rintro (⟨r', heq⟩ | ⟨r', heq⟩) <;>
        simp only [List.cons.injEq, ← UInt8.toNat_inj, h0, h1, h2, UInt8.reduceToNat] at heq <;> omega
    have hlead : escapeOctet (UInt8.ofNat (v / 4096 % 16 + 0xE0)) = [UInt8.ofNat (v / 4096 % 16 + 0xE0)] := by
      have h0 := UInt8.toNat_ofNat_of_lt' (show v / 4096 % 16 + 0xE0 < 256 by omega)
      exact escapeOctet_of_high (by omega)
    rw [List.cons_append, List.cons_append, List.cons_append, List.nil_append, escapeMarkup_cons hsep,
      hlead]
    refine congrArg (_ :: ·) (show escapeMarkup [] ([_, _] ++ r) = [_, _] ++ escapeMarkup [] r from ?_)
    apply escapeMarkup_of_forall
    simp only [List.forall_mem_cons, List.not_mem_nil, false_imp_iff, implies_true, and_true]
    exact ⟨hother _ (by omega) (by omega), hother _ (by omega) (by omega)⟩
  · apply escapeMarkup_of_forall
    simp only [List.forall_mem_cons, List.not_mem_nil, false_imp_iff, implies_true, and_true]
    exact ⟨hother _ (by omega) (by omega), hother _ (by omega) (by omega), hother _ (by omega) (by omega),
      hother _ (by omega) (by omega)⟩

/-- Characters that are no markup are written as they are. -/
theorem escapeMarkup_encode {cs : List Char} (h : ∀ c ∈ cs, Unmarked c) (r : Bytes) :
    escapeMarkup [] (Utf8.encode cs ++ r) = Utf8.encode cs ++ escapeMarkup [] r := by
  induction cs with
  | nil => rfl
  | cons c cs ih =>
      obtain ⟨hc, hcs⟩ := List.forall_mem_cons.mp h
      have hcons : Utf8.encode (c :: cs) = Utf8.encodeChar c ++ Utf8.encode cs := rfl
      rw [hcons, List.append_assoc, escapeMarkup_encodeChar hc, ih hcs, List.append_assoc]

theorem unmarked_hexDigit (n : Nat) : Unmarked (Text.hexDigit (n % 16)) := by
  have hall : ∀ n < 16, Text.hexDigit n ∉ ['<', '>', '&', '\u2028', '\u2029'] := by decide
  exact hall _ (Nat.mod_lt _ (by decide))

/-- What is marked is not written as it is. -/
theorem unmarked_quotedChar (c : Char) : ∀ d ∈ quotedChar c, Unmarked d := by
  have hletter (d : Char) (hd : Unmarked d) : ∀ x ∈ ['\\', d], Unmarked x := by
    rw [List.forall_mem_cons, List.forall_mem_singleton]
    exact ⟨by decide, hd⟩
  unfold quotedChar
  simp only
  split
  · next h =>
      apply hletter
      have hc : c = '\x22' ∨ c = '\\' := by simpa using h
      rcases hc with rfl | rfl <;> decide
  -- The escapes of letters, then the numbered escape, then what stands for itself.
  · repeat' split
    · exact hletter 'b' (by decide)
    · exact hletter 'f' (by decide)
    · exact hletter 'n' (by decide)
    · exact hletter 'r' (by decide)
    · exact hletter 't' (by decide)
    · simp only [unicodeEscape, hex_four, List.forall_mem_cons]
      exact ⟨by decide, by decide, unmarked_hexDigit _, unmarked_hexDigit _, unmarked_hexDigit _,
        unmarked_hexDigit _, by simp⟩
    · next hspecial =>
        rw [List.forall_mem_singleton]
        intro hm
        simp only [List.mem_cons, List.not_mem_nil, or_false] at hm
        apply hspecial
        rcases hm with rfl | rfl | rfl | rfl | rfl <;> decide

/-- **A written string needs no more escapes.** -/
theorem escapeMarkup_quote (s : String) : escapeMarkup [] (quote s) = quote s := by
  have hunmarked : ∀ c ∈ s.toList.flatMap quotedChar, Unmarked c := by
    intro c hc
    obtain ⟨d, -, hd⟩ := List.mem_flatMap.mp hc
    exact unmarked_quotedChar d c hd
  rw [quote_eq, escapeMarkup_cons_self (by decide), escapeMarkup_encode hunmarked]
  rfl

/-- **Octets are written as their text.** -/
theorem quoteBytes_eq (bs : Bytes) : quoteBytes bs = quote (textOf bs) := by
  have hsymbol (s : Symbol) : quoteSymbol s = quoteSymbol (.char s.toChar) := by
    cases s with
    | char c => rfl
    | stray b =>
        have hreplacement : Utf8.encodeChar '\uFFFD' = quoteSymbol (.char Utf8.replacement) := by decide
        exact hreplacement
  rw [quoteBytes, quote, textOf, String.toList_ofList, Utf8.decode, List.map_map, quoteSymbols,
    quoteSymbols, List.flatMap_map]
  congr 3
  exact funext hsymbol

/-! ### Arrays -/

def arrayTokens (es : List (List Token)) : List Token :=
  ⟨[], .openArray, [0x5B]⟩ :: (commaSeparated es ++ [⟨[], .closeArray, [0x5D]⟩])

variable {n : Nat} {e : List Token} {es : List (List Token)}

theorem spell_arrayTokens (es : List (List Token)) : spell (arrayTokens es) = array (es.map spell) := by
  rw [arrayTokens, spell_cons, spell_append, spell_commaSeparated]
  rfl

/-- A value is more than no tokens, and does not begin by closing an array. -/
theorem exists_cons_of_isValue {limit : Option Nat} (h : isValue limit e = true) :
    ∃ t rest, e = t :: rest ∧ t.kind ≠ .closeArray := by
  cases e with
  | nil => simp [isValue, run] at h
  | cons t rest =>
      refine ⟨t, rest, rfl, ?_⟩
      intro hk
      simp [isValue, run, step, stepValue, hk] at h

/-- An element, as the first of an array or behind a comma. -/
theorem run_element (h : isValue (some n) e = true) {expect : Expect}
    (hexpect : expect = .valueOrClose ∨ expect = .value) :
    run (some (n + 1)) (expect, [.array]) e = some (.commaOrClose, [.array]) := by
  have hrun : run (some n) (.value, []) e = some (.nothing, []) := by simpa [isValue] using h
  have hlift : run (some (n + 1)) (.value, [.array]) e = some (.commaOrClose, [.array]) :=
    run_lift hrun [.array]
  rcases hexpect with rfl | rfl
  · obtain ⟨t, rest, rfl, ht⟩ := exists_cons_of_isValue h
    rw [run, step_valueOrClose ht]
    exact hlift
  · exact hlift

theorem run_elements (hne : es ≠ []) (h : ∀ e ∈ es, isValue (some n) e = true) {expect : Expect}
    (hexpect : expect = .valueOrClose ∨ expect = .value) :
    run (some (n + 1)) (expect, [.array]) (commaSeparated es) = some (.commaOrClose, [.array]) := by
  induction es generalizing expect with
  | nil => exact absurd rfl hne
  | cons e es ih =>
      obtain ⟨he, hes⟩ := List.forall_mem_cons.mp h
      have helement := run_element he hexpect
      cases es with
      | nil => exact helement
      | cons e' es =>
          rw [commaSeparated, run_append helement]
          · exact ih (List.cons_ne_nil e' es) hes (Or.inr rfl)
          · simp

/-- An array of values is a value, one level deeper. -/
theorem isValue_arrayTokens (h : ∀ e ∈ es, isValue (some n) e = true) :
    isValue (some (n + 1)) (arrayTokens es) = true := by
  have hstart : run (some (n + 1)) (.value, []) [⟨[], .openArray, [0x5B]⟩] =
      some (.valueOrClose, [.array]) := by
    simp [run, step, stepValue, pushBracket]
  have hrun : run (some (n + 1)) (.value, []) (arrayTokens es) = some (.nothing, []) := by
    rw [arrayTokens, ← List.singleton_append, run_append hstart]
    cases es with
    | nil => rfl
    | cons e es =>
        rw [run_append (run_elements (List.cons_ne_nil e es) h (Or.inl rfl))]
        rfl
  rw [isValue, hrun]
  rfl

/-- Elements are cut apart at the commas between them, and nowhere else. -/
theorem cutCommas_elements (hne : es ≠ []) (h : ∀ e ∈ es, isValue (some n) e = true)
    (parts : List (List Token)) :
    cutCommas parts [] 0 (commaSeparated es) = parts.reverse ++ es := by
  induction es generalizing parts with
  | nil => exact absurd rfl hne
  | cons e es ih =>
      obtain ⟨he, hes⟩ := List.forall_mem_cons.mp h
      have hcut := cutCommas_value he parts []
      cases es with
      | nil =>
          have hlast := hcut []
          rw [List.append_nil] at hlast
          rw [commaSeparated, hlast, cutCommas]
          simp
      | cons e' es =>
          rw [commaSeparated, hcut, cutCommas]
          · rw [if_pos (by decide), ih (List.cons_ne_nil e' es) hes]
            simp
          · simp

/-- **The elements of a written array are those it was written from.** -/
theorem elements_arrayTokens (h : ∀ e ∈ es, isValue (some n) e = true) :
    elements (arrayTokens es) = es := by
  cases es with
  | nil => rfl
  | cons e es =>
      obtain ⟨t, rest, rfl, -⟩ := exists_cons_of_isValue (h e List.mem_cons_self)
      have hinner : commaSeparated ((t :: rest) :: es) ≠ [] := by
        cases es <;> simp [commaSeparated]
      rw [elements, arrayTokens, inside, List.dropLast_concat]
      split
      · next hnil => exact absurd hnil hinner
      · exact cutCommas_elements (List.cons_ne_nil _ _) h []

/-- A list is read from a written array, element by element. -/
theorem list_arrayTokens {α : Type} (zero : α) (d : Decoder α) (current : List α)
    (h : ∀ e ∈ es, isValue (some n) e = true) :
    Decoder.list zero d current (arrayTokens es) = Decoder.listFrom zero d current es := by
  calc Decoder.list zero d current (arrayTokens es)
      = Decoder.listFrom zero d current (elements (arrayTokens es)) := rfl
    _ = Decoder.listFrom zero d current es := by rw [elements_arrayTokens h]

/-! ### Plain tokens -/

/-- A token as the writer writes it, which escaping leaves alone. -/
structure Token.Plain (t : Token) : Prop where
  proper : t.Proper
  escaped : escapeMarkup [] t.lexeme = t.lexeme

theorem plain_textToken (s : String) : Token.Plain ⟨[], .string, quote s⟩ :=
  ⟨⟨rfl, spells_quote s⟩, escapeMarkup_quote s⟩

theorem plain_integerToken (n : Int) : Token.Plain ⟨[], .number, integer n⟩ :=
  ⟨⟨rfl, .number (numeral_integer n)⟩, escapeMarkup_numeral (numeral_integer n)⟩

theorem plain_objectTokens {ms : List (String × List Token)} (h : ∀ m ∈ ms, ∀ t ∈ m.2, t.Plain) :
    ∀ t ∈ objectTokens ms, t.Plain := by
  intro t ht
  refine ⟨proper_objectTokens (fun m hm t ht => (h m hm t ht).proper) t ht, ?_⟩
  rcases mem_objectTokens ht with hmark | ⟨m, -, rfl⟩ | ⟨m, hm, ht⟩
  · simp only [List.mem_cons, List.not_mem_nil, or_false] at hmark
    rcases hmark with rfl | rfl | rfl | rfl <;> rfl
  · exact escapeMarkup_quote m.1
  · exact (h m hm t ht).escaped

theorem plain_arrayTokens (h : ∀ e ∈ es, ∀ t ∈ e, t.Plain) : ∀ t ∈ arrayTokens es, t.Plain := by
  intro t ht
  rcases List.mem_cons.mp ht with rfl | ht
  · exact ⟨⟨rfl, .openArray⟩, rfl⟩
  rcases List.mem_append.mp ht with ht | ht
  · rcases mem_commaSeparated ht with rfl | ⟨e, he, ht⟩
    · exact ⟨⟨rfl, .comma⟩, rfl⟩
    · exact h e he t ht
  · rw [List.mem_singleton.mp ht]
    exact ⟨⟨rfl, .closeArray⟩, rfl⟩

/-- **What the writer has written is compact.** -/
theorem compact_of_plain {ts : List Token} (h : ∀ t ∈ ts, t.Plain) : compact ts = spell ts :=
  congrArg List.flatten (List.map_congr_left fun t ht => (h t ht).escaped)

end LanguageClient.Json
