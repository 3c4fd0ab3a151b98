import LanguageClient.Json.Text
import LanguageClient.Proofs.Json.Token

/-! # Strings keep their meaning.

A text is read back from the string token it was written as (`unquote_quote`). A
token that somebody else wrote may be escaped further, so that it can stand inside a
page; it is then still a token (`Spells.escapeMarkup`), and one for the same text
(`unquote_escapeMarkup`), whatever stray octets it holds. -/

namespace LanguageClient.Json

/-! ### Escapes -/

theorem hex_four (n : Nat) : Text.hex 4 n = [Text.hexDigit (n / 16 / 16 / 16 % 16),
    Text.hexDigit (n / 16 / 16 % 16), Text.hexDigit (n / 16 % 16), Text.hexDigit (n % 16)] := rfl

theorem hexDigit_facts : ∀ n < 16, hexValue (Text.hexDigit n) = n ∧ (Text.hexDigit n).toNat < 0x80 ∧
    isHex (UInt8.ofNat (Text.hexDigit n).toNat) = true := by decide

/-- Four hexadecimal digits denote the number they were written for. -/
theorem unit_hex {n : Nat} (h : n < 0x10000) : unit (Text.hexDigit (n / 16 / 16 / 16 % 16))
    (Text.hexDigit (n / 16 / 16 % 16)) (Text.hexDigit (n / 16 % 16)) (Text.hexDigit (n % 16)) = n := by
  have hvalue : ∀ m, hexValue (Text.hexDigit (m % 16)) = m % 16 := fun m =>
    (hexDigit_facts (m % 16) (Nat.mod_lt _ (by decide))).1
  simp only [unit, hvalue]
  omega

/-- A character below the surrogates is read back from its escape. -/
theorem resolve_unicodeEscape {c : Char} (h : c.toNat < 0xD800) (found rest : List Char) :
    resolve found (unicodeEscape c.toNat ++ rest) = resolve (c :: found) rest := by
  have hunit := unit_hex (show c.toNat < 0x10000 by omega)
  have hhigh : isHighSurrogate c.toNat = false := by
    simp only [isHighSurrogate, Bool.and_eq_false_iff, decide_eq_false_iff_not]
    omega
  have hlow : isLowSurrogate c.toNat = false := by
    simp only [isLowSurrogate, Bool.and_eq_false_iff, decide_eq_false_iff_not]
    omega
  have hchar : unitChar c.toNat = c := by
    rw [unitChar, hhigh, hlow]
    exact Char.ofNat_toNat c
  rw [unicodeEscape, hex_four]
  simp only [List.cons_append, List.nil_append]
  rw [resolve.eq_def]
  simp only [hunit, hhigh, hchar, Bool.false_eq_true, if_false]

theorem ascii_eq_encode {cs : List Char} (h : ∀ c ∈ cs, c.toNat < 0x80) : ascii cs = Utf8.encode cs :=
  (Utf8.encode_ascii h).symm

theorem ascii_backslash {c : Char} (h : c.toNat < 0x80) : ascii ['\\', c] = Utf8.encode ['\\', c] := by
  apply ascii_eq_encode
  rw [List.forall_mem_cons, List.forall_mem_singleton]
  exact ⟨by decide, h⟩

theorem ascii_unicodeEscape (n : Nat) : ascii (unicodeEscape n) = Utf8.encode (unicodeEscape n) := by
  apply ascii_eq_encode
  have hdigit : ∀ m, (Text.hexDigit (m % 16)).toNat < 0x80 := fun m =>
    (hexDigit_facts (m % 16) (Nat.mod_lt _ (by decide))).2.1
  simp only [unicodeEscape, hex_four, List.forall_mem_cons]
  exact ⟨by decide, by decide, hdigit _, hdigit _, hdigit _, hdigit _, by simp⟩

theorem content_unicodeEscape (n : Nat) {r : Bytes} (h : Content r) :
    Content (ascii (unicodeEscape n) ++ r) := by
  have hdigit : ∀ m, isHex (UInt8.ofNat (Text.hexDigit (m % 16)).toNat) = true := fun m =>
    (hexDigit_facts (m % 16) (Nat.mod_lt _ (by decide))).2.2
  refine .unit ?_ h
  simp only [hdigit, Bool.and_self]

/-! ### Writing -/

def quotedChar (c : Char) : List Char :=
  let n := c.toNat
  if c = '\x22' || c = '\\' then ['\\', c]
  else if n = 0x08 then ['\\', 'b']
  else if n = 0x0C then ['\\', 'f']
  else if n = 0x0A then ['\\', 'n']
  else if n = 0x0D then ['\\', 'r']
  else if n = 0x09 then ['\\', 't']
  else if n < 0x20 || c = '<' || c = '>' || c = '&' || n = 0x2028 || n = 0x2029 then unicodeEscape n
  else [c]

theorem quoteSymbol_char (c : Char) : quoteSymbol (.char c) = Utf8.encode (quotedChar c) := by
  simp only [quoteSymbol, quotedChar]
  split
  · next h =>
      apply ascii_backslash
      have hc : c = '\x22' ∨ c = '\\' := by simpa using h
      rcases hc with rfl | rfl <;> decide
  · repeat' split
    all_goals first | exact ascii_backslash (by decide) | exact ascii_unicodeEscape _ | skip
    simp [Utf8.encode]

theorem eq_of_toNat {c d : Char} (h : c.toNat = d.toNat) : c = d := by
  rw [← Char.ofNat_toNat c, h, Char.ofNat_toNat]

/-- A character is read back from what is written for it. -/
theorem resolve_quotedChar (c : Char) (found rest : List Char) :
    resolve found (quotedChar c ++ rest) = resolve (c :: found) rest := by
  unfold quotedChar
  simp only
  split
  · next h =>
      have hc : c = '\x22' ∨ c = '\\' := by simpa using h
      rcases hc with rfl | rfl <;> rfl
  · next hplain =>
      split
      · next h => rw [eq_of_toNat (d := '\x08') h]; rfl
      split
      · next h => rw [eq_of_toNat (d := '\x0C') h]; rfl
      split
      · next h => rw [eq_of_toNat (d := '\n') h]; rfl
      split
      · next h => rw [eq_of_toNat (d := '\r') h]; rfl
      split
      · next h => rw [eq_of_toNat (d := '\t') h]; rfl
      split
      · next h =>
          apply resolve_unicodeEscape
          simp only [Bool.or_eq_true, decide_eq_true_eq] at h
          rcases h with ((((h | rfl) | rfl) | rfl) | h) | h <;> first | omega | decide
      · -- What stands for itself is not taken for the start of an escape.
        have hc : c ≠ '\\' := by
          rintro rfl
          exact hplain (by decide)
        rw [List.singleton_append, resolve.eq_def]
        split
        · next heq => cases heq
        · next heq => exact absurd (List.cons.inj heq).1 hc
        · next heq => exact absurd (List.cons.inj heq).1 hc
        · next heq =>
            cases heq
            rfl

/-- Resolving the escapes of quoted characters gives the characters back. -/
theorem resolve_quoted (cs found : List Char) : resolve found (cs.flatMap quotedChar) = found.reverse ++ cs := by
  induction cs generalizing found with
  | nil =>
      rw [List.flatMap_nil, resolve.eq_def]
      simp
  | cons c cs ih =>
      rw [List.flatMap_cons, resolve_quotedChar, ih]
      simp

/-- The inside of a written string. -/
theorem quote_eq (s : String) : quote s = 0x22 :: (Utf8.encode (s.toList.flatMap quotedChar) ++ [0x22]) := by
  have hflat : (s.toList.map Symbol.char).flatMap quoteSymbol = Utf8.encode (s.toList.flatMap quotedChar) := by
    rw [List.flatMap_map, Utf8.encode, List.flatMap_assoc]
    exact congrArg (s.toList.flatMap ·) (funext quoteSymbol_char)
  rw [quote, quoteSymbols, hflat, List.cons_append]

theorem unquote_cons (content : Bytes) :
    unquote (0x22 :: (content ++ [0x22])) = String.ofList (resolve [] (Utf8.decode content)) := by
  rw [unquote, List.drop_one, List.tail_cons, List.dropLast_concat]

/-- **A text is read back from the token it was written as.** -/
theorem unquote_quote (s : String) : unquote (quote s) = s := by
  rw [quote_eq, unquote_cons, Utf8.decode, Utf8.symbols_encode, List.map_map]
  have hid : List.map (Symbol.toChar ∘ Symbol.char) (s.toList.flatMap quotedChar) = s.toList.flatMap quotedChar :=
    List.map_id _
  rw [hid, resolve_quoted]
  exact String.ofList_toList

/-- An octet that stands for itself between quotes. -/
def IsPlain (b : UInt8) : Prop := b ≠ 0x22 ∧ b ≠ 0x5C ∧ ¬ b < 0x20

theorem Content.append_plain {bs r : Bytes} (h : ∀ b ∈ bs, IsPlain b) (hr : Content r) :
    Content (bs ++ r) := by
  induction bs with
  | nil => exact hr
  | cons b bs ih =>
      obtain ⟨⟨hquote, hescape, hlow⟩, hbs⟩ := List.forall_mem_cons.mp h
      exact .plain hquote hescape hlow (ih hbs)

/-- The octets of a character that is written as it is. -/
theorem isPlain_of_mem_encodeChar {c : Char} (hquote : c ≠ '\x22') (hescape : c ≠ '\\')
    (hlow : ¬ c.toNat < 0x20) {b : UInt8} (hb : b ∈ Utf8.encodeChar c) : IsPlain b := by
  have htoNat : b.toNat < 0x80 → b.toNat = c.toNat := Utf8.toNat_eq_of_mem_encodeChar hb
  have hne : ∀ d : Char, d.toNat < 0x80 → c ≠ d → b ≠ UInt8.ofNat d.toNat := by
    rintro d hd hcd rfl
    have hbd : (UInt8.ofNat d.toNat).toNat = d.toNat := UInt8.toNat_ofNat_of_lt' (show d.toNat < 256 by omega)
    rw [hbd] at htoNat
    exact hcd (eq_of_toNat (htoNat hd).symm)
  refine ⟨hne '\x22' (by decide) hquote, hne '\\' (by decide) hescape, fun hlt => ?_⟩
  rw [UInt8.lt_iff_toNat_lt] at hlt
  have hlt' : b.toNat < 0x20 := hlt
  have := htoNat (by omega)
  omega

/-- A quoted character may stand between quotes. -/
theorem content_quotedChar (c : Char) {r : Bytes} (h : Content r) :
    Content (Utf8.encode (quotedChar c) ++ r) := by
  unfold quotedChar
  simp only
  split
  · next hc =>
      have hc' : c = '\x22' ∨ c = '\\' := by simpa using hc
      rcases hc' with rfl | rfl <;> exact .letter (by decide) h
  -- The letters that have an escape of their own come one by one.
  · next hplain =>
      have hquote : c ≠ '\x22' ∧ c ≠ '\\' := by simpa using hplain
      split
      · exact .letter (by decide) h
      split
      · exact .letter (by decide) h
      split
      · exact .letter (by decide) h
      split
      · exact .letter (by decide) h
      split
      · exact .letter (by decide) h
      split
      · rw [← ascii_unicodeEscape]
        exact content_unicodeEscape _ h
      · next hspecial =>
          have hlow : ¬ c.toNat < 0x20 := by
            intro hlt
            exact hspecial (by simp [hlt])
          rw [Utf8.encode, List.flatMap_singleton]
          exact Content.append_plain (fun b hb => isPlain_of_mem_encodeChar hquote.1 hquote.2 hlow hb) h

/-- What is written for a text is a string token. -/
theorem spells_quote (s : String) : Spells .string (quote s) := by
  rw [quote_eq]
  refine .string ?_
  induction s.toList with
  | nil => exact .nil
  | cons c cs ih =>
      rw [List.flatMap_cons, Utf8.encode, List.flatMap_append]
      exact content_quotedChar c ih

/-! ### Markup -/

/-- What was found before stays in front of what is escaped later. -/
theorem escapeMarkup_eq (found bs : Bytes) : escapeMarkup found bs = found.reverse ++ escapeMarkup [] bs := by
  -- Every octet that is passed moves to the front, so the induction is on what is left.
  induction hn : bs.length using Nat.strongRecOn generalizing found bs with
  | ind n ih =>
      subst hn
      rw [escapeMarkup.eq_def, escapeMarkup.eq_def []]
      split
      · simp
      · next r =>
          have hshorter : r.length < (0xE2 :: 0x80 :: 0xA8 :: r).length := by grind
          rw [ih _ hshorter _ _ rfl, ih _ hshorter (_ ++ []) _ rfl]
          simp
      · next r =>
          have hshorter : r.length < (0xE2 :: 0x80 :: 0xA9 :: r).length := by grind
          rw [ih _ hshorter _ _ rfl, ih _ hshorter (_ ++ []) _ rfl]
          simp
      · split
        · rw [ih _ (by simp) _ _ rfl, ih _ (by simp) (_ ++ []) _ rfl]
          simp
        · rw [ih _ (by simp) _ _ rfl, ih _ (by simp) [_] _ rfl]
          simp

/-- How an octet of a token is written, separators apart. -/
def escapeOctet (b : UInt8) : Bytes :=
  if b == 0x3C || b == 0x3E || b == 0x26 then ascii (unicodeEscape b.toNat) else [b]

/-- The octets of a line separator or a paragraph separator stand in front. -/
def Separates (bs : Bytes) : Prop :=
  (∃ r, bs = 0xE2 :: 0x80 :: 0xA8 :: r) ∨ ∃ r, bs = 0xE2 :: 0x80 :: 0xA9 :: r

theorem escapeMarkup_nil : escapeMarkup [] [] = [] := rfl

theorem escapeMarkup_lines (r : Bytes) :
    escapeMarkup [] (0xE2 :: 0x80 :: 0xA8 :: r) = ascii (unicodeEscape 0x2028) ++ escapeMarkup [] r := by
  rw [escapeMarkup.eq_def]
  simp only
  rw [escapeMarkup_eq]
  simp

theorem escapeMarkup_paragraphs (r : Bytes) :
    escapeMarkup [] (0xE2 :: 0x80 :: 0xA9 :: r) = ascii (unicodeEscape 0x2029) ++ escapeMarkup [] r := by
  rw [escapeMarkup.eq_def]
  simp only
  rw [escapeMarkup_eq]
  simp

theorem escapeMarkup_cons {b : UInt8} {r : Bytes} (h : ¬ Separates (b :: r)) :
    escapeMarkup [] (b :: r) = escapeOctet b ++ escapeMarkup [] r := by
  rw [escapeMarkup.eq_def, escapeOctet]
  split
  · next heq => cases heq
  · next r' heq => exact absurd (Or.inl ⟨r', heq⟩) h
  · next r' heq => exact absurd (Or.inr ⟨r', heq⟩) h
  · next heq =>
      cases heq
      split <;> rw [escapeMarkup_eq] <;> simp

theorem not_separates {b : UInt8} (h : b ≠ 0xE2) (r : Bytes) : ¬ Separates (b :: r) := by
  rintro (⟨r', heq⟩ | ⟨r', heq⟩) <;> exact h (List.cons.inj heq).1

/-- An octet that is neither markup nor the start of a separator is left alone. -/
theorem escapeMarkup_cons_self {b : UInt8} (h : b ∉ [0x3C, 0x3E, 0x26, 0xE2]) (r : Bytes) :
    escapeMarkup [] (b :: r) = b :: escapeMarkup [] r := by
  simp only [List.mem_cons, List.not_mem_nil, or_false, not_or] at h
  rw [escapeMarkup_cons (not_separates h.2.2.2 r), escapeOctet]
  simp [h.1, h.2.1, h.2.2.1]

theorem escapeMarkup_of_forall {bs : Bytes} (h : ∀ b ∈ bs, b ∉ [0x3C, 0x3E, 0x26, 0xE2]) (r : Bytes) :
    escapeMarkup [] (bs ++ r) = bs ++ escapeMarkup [] r := by
  induction bs with
  | nil => rfl
  | cons b bs ih =>
      obtain ⟨hb, hbs⟩ := List.forall_mem_cons.mp h
      rw [List.cons_append, escapeMarkup_cons_self hb, ih hbs, List.cons_append]

/-- The closing quote ends whatever stands before it. -/
theorem escapeMarkup_append_quote (bs : Bytes) :
    escapeMarkup [] (bs ++ [0x22]) = escapeMarkup [] bs ++ [0x22] := by
  induction hn : bs.length using Nat.strongRecOn generalizing bs with
  | ind n ih =>
      subst hn
      cases bs with
      | nil => decide
      | cons b r =>
          by_cases hsep : Separates (b :: r)
          · rcases hsep with ⟨r', heq⟩ | ⟨r', heq⟩
            · rw [heq] at ih ⊢
              simp only [List.cons_append, escapeMarkup_lines]
              rw [ih r'.length (by grind) r' rfl, List.append_assoc]
            · rw [heq] at ih ⊢
              simp only [List.cons_append, escapeMarkup_paragraphs]
              rw [ih r'.length (by grind) r' rfl, List.append_assoc]
          · have hsep' : ¬ Separates (b :: (r ++ [0x22])) := by
              -- a separator would have to end in the quote
              rintro (⟨r', heq⟩ | ⟨r', heq⟩)
              · match r, heq with
                | [], heq => cases heq
                | [x], heq => cases heq
                | x :: y :: r, heq =>
                    cases heq
                    exact hsep (Or.inl ⟨r, rfl⟩)
              · match r, heq with
                | [], heq => cases heq
                | [x], heq => cases heq
                | x :: y :: r, heq =>
                    cases heq
                    exact hsep (Or.inr ⟨r, rfl⟩)
            rw [List.cons_append, escapeMarkup_cons hsep', escapeMarkup_cons hsep,
              ih r.length (by simp) r rfl, List.append_assoc]

theorem not_markup_of_isEscapeLetter {e : UInt8} (h : isEscapeLetter e = true) :
    e ∉ [0x3C, 0x3E, 0x26, 0xE2] := by
  revert h e
  apply Utf8.forall_octet
  decide +kernel

theorem not_markup_of_isHex {b : UInt8} (h : isHex b = true) : b ∉ [0x3C, 0x3E, 0x26, 0xE2] := by
  revert h b
  apply Utf8.forall_octet
  decide +kernel

theorem Content.tail {b : UInt8} {r : Bytes} (h : Content (b :: r)) (hb : b ≠ 0x5C) : Content r := by
  cases h with
  | plain _ _ _ h => exact h
  | letter => exact absurd rfl hb
  | unit => exact absurd rfl hb

/-- The octets of a separator are two that could stand alone, and those behind them. -/
theorem content_of_separator {b : UInt8} (hb : b = 0xA8 ∨ b = 0xA9) {r : Bytes}
    (h : Content (escapeMarkup [] (0x80 :: b :: r))) : Content (escapeMarkup [] r) := by
  have hb' : b ∉ [0x3C, 0x3E, 0x26, 0xE2] ∧ b ≠ 0x5C := by
    rcases hb with rfl | rfl <;> decide
  rw [escapeMarkup_cons_self (by decide), escapeMarkup_cons_self hb'.1] at h
  exact (h.tail (by decide)).tail hb'.2

/-- What may stand between quotes still may when markup has been escaped. -/
theorem Content.escapeMarkup {content : Bytes} (h : Content content) :
    Content (escapeMarkup [] content) := by
  induction h with
  | nil => exact .nil
  | @plain b r hquote hescape hlow _ ih =>
      -- A separator is three octets that become one escape, so the case takes two more.
      by_cases hsep : Separates (b :: r)
      · rcases hsep with ⟨r', heq⟩ | ⟨r', heq⟩
        · cases heq
          rw [escapeMarkup_lines]
          exact content_unicodeEscape _ (content_of_separator (Or.inl rfl) ih)
        · cases heq
          rw [escapeMarkup_paragraphs]
          exact content_unicodeEscape _ (content_of_separator (Or.inr rfl) ih)
      · rw [escapeMarkup_cons hsep, escapeOctet]
        split
        · exact content_unicodeEscape _ ih
        · exact .plain hquote hescape hlow ih
  | letter he _ ih =>
      rw [escapeMarkup_cons_self (by decide), escapeMarkup_cons_self (not_markup_of_isEscapeLetter he)]
      exact .letter he ih
  | unit hhex _ ih =>
      have hdigits := hhex
      simp only [Bool.and_eq_true] at hdigits
      obtain ⟨⟨⟨h1, h2⟩, h3⟩, h4⟩ := hdigits
      rw [escapeMarkup_cons_self (by decide), escapeMarkup_cons_self (by decide),
        escapeMarkup_cons_self (not_markup_of_isHex h1), escapeMarkup_cons_self (not_markup_of_isHex h2),
        escapeMarkup_cons_self (not_markup_of_isHex h3), escapeMarkup_cons_self (not_markup_of_isHex h4)]
      exact .unit hhex ih

theorem escapeMarkup_string (content : Bytes) :
    escapeMarkup [] (0x22 :: (content ++ [0x22])) = 0x22 :: (escapeMarkup [] content ++ [0x22]) := by
  rw [escapeMarkup_cons_self (by decide), escapeMarkup_append_quote]

/-- Nothing in a number is markup. -/
theorem escapeMarkup_numeral {n : Bytes} (h : Numeral n) : escapeMarkup [] n = n := by
  have hall : ∀ b ∈ n, b ∉ [0x3C, 0x3E, 0x26, 0xE2] := by
    intro b hb
    rcases mem_numeral h hb with hdigit | hsign
    · exact not_markup_of_isHex (by simp [isHex, hdigit])
    · revert hsign b
      intro b _ hsign
      simp only [List.mem_cons, List.not_mem_nil, or_false] at hsign
      rcases hsign with rfl | rfl | rfl | rfl | rfl <;> decide
  have happend := escapeMarkup_of_forall hall []
  rwa [List.append_nil, escapeMarkup_nil, List.append_nil] at happend

/-- **An escaped token is a token of the same kind.** -/
theorem Spells.escapeMarkup {k : Kind} {lexeme : Bytes} (h : Spells k lexeme) :
    Spells k (escapeMarkup [] lexeme) := by
  cases h with
  | string hcontent =>
      rw [escapeMarkup_string]
      exact .string hcontent.escapeMarkup
  | number hn =>
      rw [escapeMarkup_numeral hn]
      exact .number hn
  | openObject => exact .openObject
  | closeObject => exact .closeObject
  | openArray => exact .openArray
  | closeArray => exact .closeArray
  | colon => exact .colon
  | comma => exact .comma
  | yes => exact .yes
  | no => exact .no
  | null => exact .null

/-! ### Meaning -/

/-- How a character of a token is written. -/
def escapedChar (c : Char) : List Char :=
  if c = '<' || c = '>' || c = '&' || c.toNat = 0x2028 || c.toNat = 0x2029 then unicodeEscape c.toNat else [c]

theorem decode_append_encode (cs : List Char) (bs : Bytes) :
    Utf8.decode (Utf8.encode cs ++ bs) = cs ++ Utf8.decode bs := by
  rw [Utf8.decode, Utf8.symbols_encode_append, List.map_append, List.map_map]
  exact congrArg (· ++ Utf8.decode bs) (List.map_id cs)

theorem decode_escape_append (n : Nat) (bs : Bytes) :
    Utf8.decode (ascii (unicodeEscape n) ++ bs) = unicodeEscape n ++ Utf8.decode bs := by
  rw [ascii_unicodeEscape, decode_append_encode]

theorem decode_cons_ascii {b : UInt8} (h : b.toNat < 0x80) (bs : Bytes) :
    Utf8.decode (b :: bs) = Char.ofNat b.toNat :: Utf8.decode bs := by
  rw [Utf8.decode, Utf8.symbols_cons, Utf8.first_ascii h]
  rfl

theorem decode_cons (b : UInt8) (bs : Bytes) :
    Utf8.decode (b :: bs) = (Utf8.first b bs).1.toChar :: Utf8.decode (Utf8.first b bs).2 := by
  rw [Utf8.decode, Utf8.symbols_cons]
  rfl

theorem not_markup_of_isContinuation {b : UInt8} (h : Utf8.isContinuation b = true) :
    b ∉ [0x3C, 0x3E, 0x26, 0xE2] ∧ b ≠ 0x5C := by
  revert h b
  apply Utf8.forall_octet
  decide +kernel

theorem noLead_escape_append (n : Nat) (bs : Bytes) : Utf8.NoLead (ascii (unicodeEscape n) ++ bs) := by
  rintro _ ⟨⟩
  decide

/-- Escaping leaves the continuations in front alone. -/
theorem sameLead_escapeMarkup (r : Bytes) : Utf8.SameLead r (escapeMarkup [] r) := by
  induction r with
  | nil => exact .rfl []
  | cons b r ih =>
      cases hb : Utf8.isContinuation b with
      | true =>
          rw [escapeMarkup_cons_self (not_markup_of_isContinuation hb).1]
          exact .cons hb ih
      | false =>
          -- Escaping replaces an octet that is no continuation by one that is none.
          have hstop : ∀ bs, Utf8.NoLead (b :: bs) := by
            rintro bs _ ⟨⟩
            exact hb
          refine .stop (hstop r) ?_
          by_cases hsep : Separates (b :: r)
          · rcases hsep with ⟨r', heq⟩ | ⟨r', heq⟩
            · rw [heq, escapeMarkup_lines]
              exact noLead_escape_append _ _
            · rw [heq, escapeMarkup_paragraphs]
              exact noLead_escape_append _ _
          · rw [escapeMarkup_cons hsep, escapeOctet]
            split
            · exact noLead_escape_append _ _
            · exact hstop _

/-- A character that starts above ASCII needs no escape, unless it is a separator. -/
theorem escapedChar_first {b : UInt8} {r : Bytes} (hb : ¬ b < 0x80) (hsep : ¬ Separates (b :: r)) :
    escapedChar (Utf8.first b r).1.toChar = [(Utf8.first b r).1.toChar] := by
  obtain ⟨hlow, hrange⟩ := Utf8.first_cases hb r
  have hascii : ∀ d : Char, d.toNat < 0x80 → (Utf8.first b r).1.toChar ≠ d := by
    intro d hd heq
    rw [heq] at hlow
    omega
  have hlines : (Utf8.first b r).1.toChar.toNat ≠ 0x2028 ∧ (Utf8.first b r).1.toChar.toNat ≠ 0x2029 := by
    rcases hrange with hshort | hlong | ⟨b1, b2, t, c, rfl, hthree, hfirst⟩
    · omega
    · omega
    · rw [hfirst]
      obtain ⟨h1, h2, h1', h2', h0, -, hvalue⟩ := Utf8.toNat_of_three? hthree
      -- the value determines the three octets
      have hoctets : ∀ n : Nat, c.toNat = n → n < 0x2040 → 0x2000 ≤ n →
          b = 0xE2 ∧ b1 = 0x80 ∧ b2.toNat = n - 0x2000 + 0x80 := by
        intro n hn hlt hge
        rw [← UInt8.toNat_inj, ← UInt8.toNat_inj]
        simp only [UInt8.reduceToNat]
        omega
      constructor
      · intro hc
        obtain ⟨rfl, rfl, hb2⟩ := hoctets _ hc (by decide) (by decide)
        have hb2' : b2 = 0xA8 := UInt8.toNat_inj.mp hb2
        exact hsep (Or.inl ⟨t, by rw [hb2']⟩)
      · intro hc
        obtain ⟨rfl, rfl, hb2⟩ := hoctets _ hc (by decide) (by decide)
        have hb2' : b2 = 0xA9 := UInt8.toNat_inj.mp hb2
        exact hsep (Or.inr ⟨t, by rw [hb2']⟩)
  simp [escapedChar, hascii '<' (by decide), hascii '>' (by decide), hascii '&' (by decide), hlines.1, hlines.2]

theorem escapedChar_ascii {b : UInt8} (h : b.toNat < 0x80) :
    Utf8.decode (escapeOctet b) = escapedChar (Char.ofNat b.toNat) := by
  have hall : ∀ n : Fin 0x80, Utf8.decode (escapeOctet (UInt8.ofNat n)) =
      escapedChar (Char.ofNat (UInt8.ofNat n).toNat) := by decide +kernel
  have hb := hall ⟨b.toNat, h⟩
  rwa [UInt8.ofNat_toNat] at hb

theorem decode_escapeOctet_append {b : UInt8} (h : b.toNat < 0x80) (bs : Bytes) :
    Utf8.decode (escapeOctet b ++ bs) = escapedChar (Char.ofNat b.toNat) ++ Utf8.decode bs := by
  rw [← escapedChar_ascii h]
  unfold escapeOctet
  split
  · rw [decode_escape_append]
    have hnil := decode_escape_append b.toNat []
    rw [List.append_nil] at hnil
    rw [hnil]
    simp [Utf8.decode, Utf8.symbols_nil]
  · rw [List.singleton_append, decode_cons_ascii h, decode_cons_ascii h]
    rfl

/-- **Escaping octets escapes the characters they stand for**, stray octets or not. -/
theorem decode_escapeMarkup (bs : Bytes) :
    Utf8.decode (escapeMarkup [] bs) = (Utf8.decode bs).flatMap escapedChar := by
  induction hn : bs.length using Nat.strongRecOn generalizing bs with
  | ind n ih =>
      subst hn
      cases bs with
      | nil => rfl
      | cons b r =>
          by_cases hsep : Separates (b :: r)
          · have hseparator : ∀ c : Char, ∀ r' : Bytes, escapedChar c = unicodeEscape c.toNat →
                b :: r = Utf8.encodeChar c ++ r' → (Utf8.encodeChar c).length = 3 →
                Utf8.decode (ascii (unicodeEscape c.toNat) ++ escapeMarkup [] r') =
                  (Utf8.decode (b :: r)).flatMap escapedChar := by
              intro c r' hc heq hlength
              have hshort : r'.length < (b :: r).length := by
                rw [heq, List.length_append, hlength]
                omega
              have hdecode := decode_append_encode [c] r'
              rw [Utf8.encode, List.flatMap_singleton] at hdecode
              rw [decode_escape_append, ih _ hshort _ rfl, heq, hdecode, List.singleton_append,
                List.flatMap_cons, hc]
            rcases hsep with ⟨r', heq⟩ | ⟨r', heq⟩
            · rw [heq, escapeMarkup_lines, ← heq]
              exact hseparator '\u2028' r' (by decide) heq (by decide)
            · rw [heq, escapeMarkup_paragraphs, ← heq]
              exact hseparator '\u2029' r' (by decide) heq (by decide)
          · rw [escapeMarkup_cons hsep]
            by_cases hascii : b.toNat < 0x80
            · rw [decode_escapeOctet_append hascii, decode_cons_ascii hascii, List.flatMap_cons,
                ih _ (by simp) _ rfl]
            · have hb : ¬ b < 0x80 := by
                rw [UInt8.lt_iff_toNat_lt]
                exact hascii
              have hoctet : escapeOctet b = [b] := by
                have hall : ∀ b : UInt8, ¬ b < 0x80 → escapeOctet b = [b] := by
                  apply Utf8.forall_octet
                  decide +kernel
                exact hall b hb
              -- the symbol takes the same octets off both
              obtain ⟨s, lead, t, t', hlead, hr, hr', hfirst, hfirst'⟩ :=
                Utf8.first_sameLead hb (sameLead_escapeMarkup r)
              have ht' : t' = escapeMarkup [] t := by
                have hsplit : escapeMarkup [] (lead ++ t) = lead ++ escapeMarkup [] t :=
                  escapeMarkup_of_forall (fun x hx => (not_markup_of_isContinuation (hlead x hx)).1) t
                rw [hr, hsplit] at hr'
                exact (List.append_cancel_left hr').symm
              have hshort : t.length < (b :: r).length := by
                rw [hr]
                simp only [List.length_cons, List.length_append]
                omega
              have hself := escapedChar_first hb hsep
              rw [hfirst] at hself
              rw [hoctet, List.singleton_append, decode_cons, decode_cons, hfirst, hfirst', ht',
                List.flatMap_cons, hself, ih _ hshort _ rfl]
              rfl

/-- Characters that may stand between quotes. -/
inductive Escaped : List Char → Prop where
  | nil : Escaped []
  | plain {c : Char} {cs : List Char} (hc : c ≠ '\\') (h : Escaped cs) : Escaped (c :: cs)
  | letter {c : Char} {cs : List Char} (hu : c ≠ 'u') (hc : escapedChar c = [c]) (h : Escaped cs) :
      Escaped ('\\' :: c :: cs)
  | unit {a b c d : Char} {cs : List Char} (hdigits : ∀ x ∈ [a, b, c, d], escapedChar x = [x])
      (h : Escaped cs) : Escaped ('\\' :: 'u' :: a :: b :: c :: d :: cs)

/-- Continuations stand for themselves. -/
theorem content_of_lead {lead t : Bytes} (hlead : ∀ b ∈ lead, Utf8.isContinuation b = true)
    (h : Content (lead ++ t)) : Content t := by
  induction lead with
  | nil => exact h
  | cons b lead ih =>
      obtain ⟨hb, hlead⟩ := List.forall_mem_cons.mp hlead
      exact ih hlead (h.tail (not_markup_of_isContinuation hb).2)

/-- What stands between quotes is made of characters and whole escapes. -/
theorem escaped_decode {content : Bytes} (h : Content content) : Escaped (Utf8.decode content) := by
  -- On the length: a character that is not ASCII takes several octets at once.
  induction hn : content.length using Nat.strongRecOn generalizing content with
  | ind n ih =>
      subst hn
      have hhex : ∀ b : UInt8, isHex b = true → b.toNat < 0x80 ∧
          escapedChar (Char.ofNat b.toNat) = [Char.ofNat b.toNat] := by
        apply Utf8.forall_octet
        decide +kernel
      have hletter : ∀ b : UInt8, isEscapeLetter b = true → b.toNat < 0x80 ∧
          Char.ofNat b.toNat ≠ 'u' ∧ escapedChar (Char.ofNat b.toNat) = [Char.ofNat b.toNat] := by
        apply Utf8.forall_octet
        decide +kernel
      cases h with
      | nil => exact .nil
      | @plain b r hquote hescape hlow h =>
          by_cases hascii : b.toNat < 0x80
          · rw [decode_cons_ascii hascii]
            refine .plain ?_ (ih _ (by simp) h rfl)
            intro hc
            have hb : (Char.ofNat b.toNat).toNat = b.toNat := Utf8.toNat_ofNat (by omega)
            rw [hc] at hb
            exact hescape (UInt8.toNat_inj.mp hb.symm)
          · have hb : ¬ b < 0x80 := by
              rw [UInt8.lt_iff_toNat_lt]
              exact hascii
            obtain ⟨s, lead, t, _, hlead, rfl, -, hfirst, -⟩ := Utf8.first_sameLead hb (.rfl r)
            have ht : Content t := content_of_lead hlead h
            have hlow := (Utf8.first_cases hb (lead ++ t)).1
            rw [decode_cons, hfirst]
            rw [hfirst] at hlow
            refine .plain ?_ (ih _ (by grind) ht rfl)
            intro hc
            rw [hc] at hlow
            exact absurd hlow (by decide)
      | @letter e r he h =>
          obtain ⟨hascii, hu, hself⟩ := hletter e he
          rw [decode_cons_ascii (by decide), decode_cons_ascii hascii]
          exact .letter hu hself (ih _ (by grind) h rfl)
      | @unit h1 h2 h3 h4 r hdigits h =>
          simp only [Bool.and_eq_true] at hdigits
          obtain ⟨⟨⟨h1', h2'⟩, h3'⟩, h4'⟩ := hdigits
          rw [decode_cons_ascii (by decide), decode_cons_ascii (by decide),
            decode_cons_ascii (hhex _ h1').1, decode_cons_ascii (hhex _ h2').1,
            decode_cons_ascii (hhex _ h3').1, decode_cons_ascii (hhex _ h4').1]
          refine .unit ?_ (ih _ (by grind) h rfl)
          simp only [List.forall_mem_cons]
          exact ⟨(hhex _ h1').2, (hhex _ h2').2, (hhex _ h3').2, (hhex _ h4').2, by simp⟩

theorem resolve_plain {c : Char} (h : c ≠ '\\') (found cs : List Char) :
    resolve found (c :: cs) = resolve (c :: found) cs := by
  rw [resolve.eq_def]
  split
  · next heq => cases heq
  · next heq => exact absurd (List.cons.inj heq).1 h
  · next heq => exact absurd (List.cons.inj heq).1 h
  · next heq =>
      cases heq
      rfl

theorem resolve_letter {c : Char} (h : c ≠ 'u') (found cs : List Char) :
    resolve found ('\\' :: c :: cs) = resolve (escapeChar c :: found) cs := by
  rw [resolve.eq_def]
  split
  · next heq => cases heq
  · next heq =>
      cases heq
      exact absurd rfl h
  · next heq =>
      cases heq
      rfl
  · next hno heq =>
      cases heq
      exact (hno c cs rfl rfl).elim

/-- A unit that is a low surrogate stands in front. -/
def LowFirst (cs : List Char) : Prop :=
  ∃ e f g h rest, cs = '\\' :: 'u' :: e :: f :: g :: h :: rest ∧ isLowSurrogate (unit e f g h) = true

theorem resolve_unit {a b c d : Char} (h : isHighSurrogate (unit a b c d) = false) (found cs : List Char) :
    resolve found ('\\' :: 'u' :: a :: b :: c :: d :: cs) = resolve (unitChar (unit a b c d) :: found) cs := by
  rw [resolve.eq_def]
  simp [h]

/-- A high surrogate with no low one behind it is replaced. -/
theorem resolve_unpaired {a b c d : Char} (h : isHighSurrogate (unit a b c d) = true) (found : List Char)
    {cs : List Char} (hlow : ¬ LowFirst cs) :
    resolve found ('\\' :: 'u' :: a :: b :: c :: d :: cs) = resolve (Utf8.replacement :: found) cs := by
  rw [resolve.eq_def]
  simp only [h, if_true]
  split
  · next e f g k rest =>
      have hlow' : ¬ isLowSurrogate (unit e f g k) = true := fun hl => hlow ⟨e, f, g, k, rest, rfl, hl⟩
      rw [if_neg hlow']
  · rfl

/-- A high surrogate and a low one are one character. -/
theorem resolve_pair {a b c d e f g k : Char} (h : isHighSurrogate (unit a b c d) = true)
    (hlow : isLowSurrogate (unit e f g k) = true) (found cs : List Char) :
    resolve found ('\\' :: 'u' :: a :: b :: c :: d :: '\\' :: 'u' :: e :: f :: g :: k :: cs) =
      resolve (Char.ofNat (0x10000 + (unit a b c d - 0xD800) * 0x400 + (unit e f g k - 0xDC00)) :: found) cs := by
  rw [resolve.eq_def]
  simp [h, hlow]

theorem not_lowFirst_of_ne {c : Char} (h : c ≠ '\\') (cs : List Char) : ¬ LowFirst (c :: cs) := by
  rintro ⟨_, _, _, _, _, heq, -⟩
  exact h (List.cons.inj heq).1

theorem not_lowFirst_letter {c : Char} (h : c ≠ 'u') (cs : List Char) : ¬ LowFirst ('\\' :: c :: cs) := by
  rintro ⟨_, _, _, _, _, heq, -⟩
  exact h (List.cons.inj (List.cons.inj heq).2).1

theorem lowFirst_unit (a b c d : Char) (cs : List Char) :
    LowFirst ('\\' :: 'u' :: a :: b :: c :: d :: cs) ↔ isLowSurrogate (unit a b c d) = true := by
  constructor
  · rintro ⟨_, _, _, _, _, heq, hlow⟩
    cases heq
    exact hlow
  · exact fun hlow => ⟨a, b, c, d, cs, rfl, hlow⟩

/-- What is escaped comes from below the surrogates. -/
theorem escapedChar_cases (c : Char) :
    escapedChar c = [c] ∨ escapedChar c = unicodeEscape c.toNat ∧ c.toNat < 0xD800 := by
  unfold escapedChar
  split
  · next h =>
      refine Or.inr ⟨rfl, ?_⟩
      simp only [Bool.or_eq_true, decide_eq_true_eq] at h
      rcases h with (((rfl | rfl) | rfl) | h) | h <;> first | omega | decide
  · exact Or.inl rfl

theorem flatMap_escaped_unit {a b c d : Char} (h : ∀ x ∈ [a, b, c, d], escapedChar x = [x]) (cs : List Char) :
    ('\\' :: 'u' :: a :: b :: c :: d :: cs).flatMap escapedChar =
      '\\' :: 'u' :: a :: b :: c :: d :: cs.flatMap escapedChar := by
  have hbackslash : escapedChar '\\' = ['\\'] := by decide
  have hu : escapedChar 'u' = ['u'] := by decide
  simp only [List.forall_mem_cons] at h
  obtain ⟨ha, hb, hc, hd, -⟩ := h
  simp [hbackslash, hu, ha, hb, hc, hd]

theorem flatMap_escaped_letter {c : Char} (h : escapedChar c = [c]) (cs : List Char) :
    ('\\' :: c :: cs).flatMap escapedChar = '\\' :: c :: cs.flatMap escapedChar := by
  have hbackslash : escapedChar '\\' = ['\\'] := by decide
  simp [hbackslash, h]

/-- Escaping markup neither makes nor hides a low surrogate in front. -/
theorem lowFirst_escaped {cs : List Char} (h : Escaped cs) :
    LowFirst (cs.flatMap escapedChar) ↔ LowFirst cs := by
  cases h with
  | nil => rfl
  | @plain c cs hc h =>
      rw [List.flatMap_cons]
      refine iff_of_false ?_ (not_lowFirst_of_ne hc cs)
      rcases escapedChar_cases c with hself | ⟨hescape, hlow⟩
      · rw [hself]
        exact not_lowFirst_of_ne hc _
      · rw [hescape, unicodeEscape, hex_four]
        simp only [List.cons_append, List.nil_append]
        rw [lowFirst_unit, unit_hex (by omega), isLowSurrogate]
        simp only [Bool.and_eq_true, decide_eq_true_eq]
        omega
  | @letter c cs hu hc h =>
      rw [flatMap_escaped_letter hc]
      exact iff_of_false (not_lowFirst_letter hu _) (not_lowFirst_letter hu _)
  | @unit a b c d cs hdigits h =>
      rw [flatMap_escaped_unit hdigits, lowFirst_unit, lowFirst_unit]

/-- **Characters that are escaped further are read as the same text.** -/
theorem resolve_escaped {cs : List Char} (h : Escaped cs) (found : List Char) :
    resolve found (cs.flatMap escapedChar) = resolve found cs := by
  -- on the length, since a pair of surrogates is read in one go
  induction hn : cs.length using Nat.strongRecOn generalizing cs found with
  | ind n ih =>
      subst hn
      cases h with
      | nil => rfl
      | @plain c cs hc h =>
          rw [List.flatMap_cons, resolve_plain hc]
          rcases escapedChar_cases c with hself | ⟨hescape, hlow⟩
          · rw [hself, List.singleton_append, resolve_plain hc, ih _ (by simp) h _ rfl]
          · rw [hescape, resolve_unicodeEscape hlow, ih _ (by simp) h _ rfl]
      | @letter c cs hu hc h =>
          have hshorter : cs.length < ('\\' :: c :: cs).length := by grind
          rw [flatMap_escaped_letter hc, resolve_letter hu, resolve_letter hu, ih _ hshorter h _ rfl]
      | @unit a b c d cs hdigits h =>
          have hshorter : cs.length < ('\\' :: 'u' :: a :: b :: c :: d :: cs).length := by
            simp only [List.length_cons]
            omega
          rw [flatMap_escaped_unit hdigits]
          cases hhigh : isHighSurrogate (unit a b c d) with
          | false => rw [resolve_unit hhigh, resolve_unit hhigh, ih _ hshorter h _ rfl]
          | true =>
              by_cases hlow : LowFirst cs
              · obtain ⟨e, f, g, k, rest, rfl, hlow⟩ := hlow
                cases h with
                | plain hc => exact absurd rfl hc
                | letter hu => exact absurd rfl hu
                | unit hdigits' h' =>
                    simp only [List.length_cons] at hshorter
                    rw [flatMap_escaped_unit hdigits', resolve_pair hhigh hlow, resolve_pair hhigh hlow,
                      ih rest.length (by simp only [List.length_cons]; omega) h' _ rfl]
              · have hlow' : ¬ LowFirst (cs.flatMap escapedChar) := fun hl => hlow ((lowFirst_escaped h).mp hl)
                rw [resolve_unpaired hhigh found hlow, resolve_unpaired hhigh found hlow',
                  ih _ hshorter h _ rfl]

/-- **An escaped string denotes the same text.** -/
theorem unquote_escapeMarkup {lexeme : Bytes} (h : Spells .string lexeme) :
    unquote (escapeMarkup [] lexeme) = unquote lexeme := by
  cases h with
  | string hcontent =>
      rw [escapeMarkup_string, unquote_cons, unquote_cons, decode_escapeMarkup,
        resolve_escaped (escaped_decode hcontent)]

end LanguageClient.Json
