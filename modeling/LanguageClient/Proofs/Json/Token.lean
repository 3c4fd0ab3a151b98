import LanguageClient.Json.Grammar
import LanguageClient.Proofs.Text.Utf8

/-! # Tokens are read back from their spelling.

`Spells` says how each kind of token may be spelled, without reference to the
reader: what may stand between quotes (`Content`), and of what a number is made
(`Numeral`). The reader takes off exactly such spellings (`spells_of_token?`,
`token?_of_spells`). A number goes on as long as it can, so what follows one has to
end it (`Ends`). -/

namespace LanguageClient.Json

/-! ### Strings -/

/-- What may stand between the quotes of a string. -/
inductive Content : Bytes → Prop where
  | nil : Content []
  | plain {b : UInt8} {r : Bytes} (hquote : b ≠ 0x22) (hescape : b ≠ 0x5C) (hlow : ¬ b < 0x20)
      (h : Content r) : Content (b :: r)
  | letter {e : UInt8} {r : Bytes} (he : isEscapeLetter e = true) (h : Content r) :
      Content (0x5C :: e :: r)
  | unit {h1 h2 h3 h4 : UInt8} {r : Bytes}
      (hhex : (isHex h1 && isHex h2 && isHex h3 && isHex h4) = true) (h : Content r) :
      Content (0x5C :: 0x75 :: h1 :: h2 :: h3 :: h4 :: r)

/-- The inside of a string is read up to its closing quote. -/
theorem stringRest_of_content {content : Bytes} (h : Content content) (seen rest : Bytes) :
    stringRest seen (content ++ 0x22 :: rest) = some (seen.reverse ++ content ++ [0x22], rest) := by
  induction h generalizing seen with
  | nil =>
      rw [List.nil_append, stringRest.eq_def]
      simp
  | plain hquote hescape hlow _ ih =>
      rw [List.cons_append, stringRest.eq_def]
      simp [hquote, hescape, hlow, ih]
  | letter he _ ih =>
      rw [List.cons_append, List.cons_append, stringRest.eq_def]
      simp [he, ih]
  | unit hhex _ ih =>
      have hu : isEscapeLetter 0x75 = false := by decide
      simp only [List.cons_append]
      rw [stringRest.eq_def]
      simp [hu, hhex, ih]

/-- What was read of a string is its inside and the closing quote. -/
theorem content_of_stringRest {seen bs s rest : Bytes} (h : stringRest seen bs = some (s, rest)) :
    ∃ content, Content content ∧ bs = content ++ 0x22 :: rest ∧ s = seen.reverse ++ content ++ [0x22] := by
  fun_induction stringRest seen bs with
  | case1 => cases h
  | case2 seen b r hquote =>
      cases h
      cases beq_iff_eq.mp hquote
      exact ⟨[], .nil, rfl, by simp⟩
  | case3 => cases h
  | case4 seen b _ hescape e r he ih =>
      -- An escape of one letter.
      cases beq_iff_eq.mp hescape
      obtain ⟨content, hcontent, rfl, rfl⟩ := ih h
      exact ⟨_, .letter he hcontent, rfl, by simp⟩
  | case5 seen b _ hescape e _ hu h1 h2 h3 h4 r hhex ih =>
      -- An escape by four digits.
      cases beq_iff_eq.mp hescape
      cases beq_iff_eq.mp hu
      obtain ⟨content, hcontent, rfl, rfl⟩ := ih h
      exact ⟨_, .unit hhex hcontent, rfl, by simp⟩
  | case6 | case7 | case8 | case9 => cases h
  | case10 seen b r hquote hescape hlow ih =>
      obtain ⟨content, hcontent, rfl, rfl⟩ := ih h
      exact ⟨_, .plain (by simpa using hquote) (by simpa using hescape) hlow hcontent, rfl, by simp⟩

/-! ### Numbers -/

def Digits (ds : Bytes) : Prop := ds ≠ [] ∧ ∀ b ∈ ds, isDigit b = true

/-- What does not go on with digits. -/
def NoDigit (bs : Bytes) : Prop := ∀ b ∈ bs.head?, isDigit b = false

theorem digits?_append {ds rest : Bytes} (h : Digits ds) (hrest : NoDigit rest) :
    digits? (ds ++ rest) = some (ds, rest) := by
  have htake : rest.takeWhile isDigit = [] ∧ rest.dropWhile isDigit = rest := by
    cases rest with
    | nil => exact ⟨rfl, rfl⟩
    | cons b r =>
        have hb : isDigit b = false := hrest b rfl
        exact ⟨List.takeWhile_cons_of_neg (by simp [hb]), List.dropWhile_cons_of_neg (by simp [hb])⟩
  obtain ⟨hne, hall⟩ := h
  rw [digits?, List.takeWhile_append_of_pos hall, List.dropWhile_append_of_pos hall, htake.1, htake.2,
    List.append_nil]
  cases ds with
  | nil => exact absurd rfl hne
  | cons d ds => rfl

theorem digits_of_digits? {bs ds rest : Bytes} (h : digits? bs = some (ds, rest)) :
    Digits ds ∧ bs = ds ++ rest := by
  unfold digits? at h
  split at h
  · cases h
  · next hne =>
      cases h
      refine ⟨⟨hne, fun b hb => ?_⟩, (List.takeWhile_append_dropWhile).symm⟩
      exact List.all_eq_true.mp List.all_takeWhile b hb

/-- The whole part of a number has no zero in front. -/
def Whole (i : Bytes) : Prop := i = [0x30] ∨ Digits i ∧ i.head? ≠ some 0x30

def Fraction (f : Bytes) : Prop := f = [] ∨ ∃ ds, Digits ds ∧ f = 0x2E :: ds

def Exponent (e : Bytes) : Prop :=
  e = [] ∨ ∃ b sign ds, (b = 0x65 ∨ b = 0x45) ∧ sign ∈ [[], [0x2B], [0x2D]] ∧ Digits ds ∧ e = b :: (sign ++ ds)

def Numeral (n : Bytes) : Prop :=
  ∃ sign i f e, sign ∈ [[], [0x2D]] ∧ Whole i ∧ Fraction f ∧ Exponent e ∧ n = sign ++ i ++ f ++ e

/-- What a number cannot go on with: neither a digit, nor a point or the letter of
an exponent. -/
def Ends (bs : Bytes) : Prop :=
  ∀ b ∈ bs.head?, isDigit b = false ∧ b ≠ 0x2E ∧ b ≠ 0x65 ∧ b ≠ 0x45

theorem ends_nil : Ends [] := nofun

theorem Ends.noDigit {bs : Bytes} (h : Ends bs) : NoDigit bs := fun b hb => (h b hb).1

theorem integerPart?_append {i rest : Bytes} (h : Whole i) (hrest : NoDigit rest) :
    integerPart? (i ++ rest) = some (i, rest) := by
  rcases h with rfl | ⟨hdigits, hhead⟩
  · rfl
  · have hne := hdigits.1
    cases i with
    | nil => exact absurd rfl hne
    | cons d ds =>
        have hd : d ≠ 0x30 := by simpa using hhead
        rw [← digits?_append hdigits hrest, List.cons_append]
        unfold integerPart?
        split
        · next heq =>
            cases heq
            exact absurd rfl hd
        · rfl

theorem whole_of_integerPart? {bs i rest : Bytes} (h : integerPart? bs = some (i, rest)) :
    Whole i ∧ bs = i ++ rest := by
  unfold integerPart? at h
  split at h
  · cases h
    exact ⟨Or.inl rfl, rfl⟩
  · next hne =>
      obtain ⟨hdigits, rfl⟩ := digits_of_digits? h
      refine ⟨Or.inr ⟨hdigits, fun hhead => ?_⟩, rfl⟩
      cases i with
      | nil => cases hhead
      | cons d ds =>
          cases hhead
          exact hne (ds ++ rest) rfl

theorem fraction?_append {f rest : Bytes} (h : Fraction f) (hrest : NoDigit rest)
    (hpoint : rest.head? ≠ some 0x2E) : fraction? (f ++ rest) = some (f, rest) := by
  rcases h with rfl | ⟨ds, hdigits, rfl⟩
  · rw [List.nil_append]
    unfold fraction?
    split
    · exact absurd rfl hpoint
    · rfl
  · rw [List.cons_append, fraction?, digits?_append hdigits hrest]
    rfl

theorem fraction_of_fraction? {bs f rest : Bytes} (h : fraction? bs = some (f, rest)) :
    Fraction f ∧ bs = f ++ rest := by
  unfold fraction? at h
  split at h
  · obtain ⟨⟨ds, r⟩, hdigits, heq⟩ := Option.map_eq_some_iff.mp h
    cases heq
    obtain ⟨hds, rfl⟩ := digits_of_digits? hdigits
    exact ⟨Or.inr ⟨ds, hds, rfl⟩, rfl⟩
  · cases h
    exact ⟨Or.inl rfl, rfl⟩

theorem exponent?_append {e rest : Bytes} (h : Exponent e) (hrest : Ends rest) :
    exponent? (e ++ rest) = some (e, rest) := by
  rcases h with rfl | ⟨b, sign, ds, hb, hsign, hdigits, rfl⟩
  · cases rest with
    | nil => rfl
    | cons b r =>
        obtain ⟨-, -, hlower, hupper⟩ := hrest b rfl
        simp [exponent?, hlower, hupper]
  · have hread := digits?_append hdigits hrest.noDigit
    have hletter : (b == 0x65 || b == 0x45) = true := by
      rcases hb with rfl | rfl <;> decide
    have hsign' : sign = [] ∨ sign = [0x2B] ∨ sign = [0x2D] := by simpa using hsign
    rcases hsign' with rfl | rfl | rfl
    · obtain ⟨hne, hall⟩ := hdigits
      cases ds with
      | nil => exact absurd rfl hne
      | cons d ds =>
          -- the first digit is no sign
          have hd := hall d List.mem_cons_self
          have hplus : ¬ d = 0x2B ∧ ¬ d = 0x2D := by
            constructor <;> rintro rfl <;> exact absurd hd (by decide)
          simp only [List.cons_append, List.nil_append] at hread ⊢
          simp [exponent?, hletter, hplus.1, hplus.2, hread]
    · simp [exponent?, hletter, hread]
    · simp [exponent?, hletter, hread]

theorem exponent_of_exponent? {bs e rest : Bytes} (h : exponent? bs = some (e, rest)) :
    Exponent e ∧ bs = e ++ rest := by
  unfold exponent? at h
  split at h
  · next b r =>
      split at h
      · next hletter =>
          have hb : b = 0x65 ∨ b = 0x45 := by simpa using hletter
          split at h
          · next s r1 =>
              split at h
              · next hsign =>
                  have hs : [s] ∈ [[], [0x2B], [0x2D]] := by simpa using hsign
                  obtain ⟨⟨ds, r'⟩, hdigits, heq⟩ := Option.map_eq_some_iff.mp h
                  cases heq
                  obtain ⟨hds, rfl⟩ := digits_of_digits? hdigits
                  exact ⟨Or.inr ⟨b, [s], ds, hb, hs, hds, rfl⟩, rfl⟩
              · obtain ⟨⟨ds, r'⟩, hdigits, heq⟩ := Option.map_eq_some_iff.mp h
                cases heq
                obtain ⟨hds, hr⟩ := digits_of_digits? hdigits
                exact ⟨Or.inr ⟨b, [], ds, hb, List.mem_cons_self, hds, rfl⟩, by rw [hr]; rfl⟩
          · cases h
      · cases h
        exact ⟨Or.inl rfl, rfl⟩
  · cases h
    exact ⟨Or.inl rfl, rfl⟩

theorem noDigit_exponent_append {e rest : Bytes} (h : Exponent e) (hrest : Ends rest) :
    NoDigit (e ++ rest) ∧ (e ++ rest).head? ≠ some 0x2E := by
  rcases h with rfl | ⟨b, sign, ds, hb, -, -, rfl⟩
  · refine ⟨hrest.noDigit, fun hhead => ?_⟩
    exact (hrest 0x2E hhead).2.1 rfl
  · rcases hb with rfl | rfl <;> simp [NoDigit] <;> decide

theorem noDigit_fraction_append {f rest : Bytes} (h : Fraction f) (hrest : NoDigit rest) :
    NoDigit (f ++ rest) := by
  rcases h with rfl | ⟨ds, -, rfl⟩
  · exact hrest
  · simp [NoDigit]
    decide

/-- The first octet of a whole part is a digit. -/
theorem Whole.cons {i : Bytes} (h : Whole i) : ∃ d r, i = d :: r ∧ isDigit d = true := by
  rcases h with rfl | ⟨⟨hne, hall⟩, -⟩
  · exact ⟨0x30, [], rfl, by decide⟩
  · cases i with
    | nil => exact absurd rfl hne
    | cons d r => exact ⟨d, r, rfl, hall d List.mem_cons_self⟩

/-- A number is read up to its end. -/
theorem number?_append {n rest : Bytes} (h : Numeral n) (hrest : Ends rest) :
    number? (n ++ rest) = some (n, rest) := by
  obtain ⟨sign, i, f, e, hsign, hi, hf, he, rfl⟩ := h
  -- Each part ends where the next one, or the rest, begins with something else.
  obtain ⟨hdigit, hpoint⟩ := noDigit_exponent_append he hrest
  have hwhole := integerPart?_append hi (noDigit_fraction_append hf hdigit)
  have hfraction := fraction?_append hf hdigit hpoint
  have hexponent := exponent?_append he hrest
  have hsign' : sign = [] ∨ sign = [0x2D] := by simpa using hsign
  rcases hsign' with rfl | rfl
  · obtain ⟨d, r, hd, hdigit⟩ := hi.cons
    have hminus : d ≠ 0x2D := by
      rintro rfl
      exact absurd hdigit (by decide)
    simp only [List.nil_append, List.append_assoc]
    unfold number?
    split
    next heq =>
      split at heq
      · next hcons =>
          rw [hd, List.cons_append] at hcons
          exact absurd (List.cons.inj hcons).1 hminus
      · cases heq
        simp [hwhole, hfraction, hexponent]
  · simp only [List.append_assoc, List.singleton_append]
    simp [number?, hwhole, hfraction, hexponent]

/-- What was read as a number is spelled like one. -/
theorem numeral_of_number? {bs n rest : Bytes} (h : number? bs = some (n, rest)) :
    Numeral n ∧ bs = n ++ rest := by
  unfold number? at h
  split at h
  next sign bs' hsplit =>
    have hsign : sign ∈ [[], [0x2D]] ∧ bs = sign ++ bs' := by
      split at hsplit <;> cases hsplit <;> simp
    obtain ⟨⟨i, r1⟩, hi, h⟩ := Option.bind_eq_some_iff.mp h
    obtain ⟨⟨f, r2⟩, hf, h⟩ := Option.bind_eq_some_iff.mp h
    obtain ⟨⟨e, r3⟩, he, heq⟩ := Option.map_eq_some_iff.mp h
    cases heq
    obtain ⟨hwhole, rfl⟩ := whole_of_integerPart? hi
    obtain ⟨hfraction, rfl⟩ := fraction_of_fraction? hf
    obtain ⟨hexponent, rfl⟩ := exponent_of_exponent? he
    refine ⟨⟨sign, i, f, e, hsign.1, hwhole, hfraction, hexponent, rfl⟩, ?_⟩
    rw [hsign.2]
    simp

/-- A number is made of these octets alone. -/
theorem mem_numeral {n : Bytes} (h : Numeral n) {b : UInt8} (hb : b ∈ n) :
    isDigit b = true ∨ b ∈ [0x2D, 0x2B, 0x2E, 0x65, 0x45] := by
  obtain ⟨sign, i, f, e, hsign, hi, hf, he, rfl⟩ := h
  simp only [List.mem_append] at hb
  rcases hb with ((hb | hb) | hb) | hb
  -- Sign, integer part, fraction and exponent, one after the other.
  · have hsign' : sign = [] ∨ sign = [0x2D] := by simpa using hsign
    rcases hsign' with rfl | rfl
    · cases hb
    · exact Or.inr (by simp [List.mem_singleton.mp hb])
  · rcases hi with rfl | ⟨⟨-, hall⟩, -⟩
    · rw [List.mem_singleton.mp hb]
      exact Or.inl (by decide)
    · exact Or.inl (hall b hb)
  · rcases hf with rfl | ⟨ds, ⟨-, hall⟩, rfl⟩
    · cases hb
    · rcases List.mem_cons.mp hb with rfl | hb
      · exact Or.inr (by simp)
      · exact Or.inl (hall b hb)
  · rcases he with rfl | ⟨c, sign', ds, hc, hsign', ⟨-, hall⟩, rfl⟩
    · cases hb
    · rcases List.mem_cons.mp hb with rfl | hb
      · rcases hc with rfl | rfl <;> exact Or.inr (by simp)
      · rcases List.mem_append.mp hb with hb | hb
        · have hs : sign' = [] ∨ sign' = [0x2B] ∨ sign' = [0x2D] := by simpa using hsign'
          rcases hs with rfl | rfl | rfl
          · cases hb
          · exact Or.inr (by simp [List.mem_singleton.mp hb])
          · exact Or.inr (by simp [List.mem_singleton.mp hb])
        · exact Or.inl (hall b hb)

/-! ### Tokens -/

inductive Spells : Kind → Bytes → Prop where
  | openObject : Spells .openObject [0x7B]
  | closeObject : Spells .closeObject [0x7D]
  | openArray : Spells .openArray [0x5B]
  | closeArray : Spells .closeArray [0x5D]
  | colon : Spells .colon [0x3A]
  | comma : Spells .comma [0x2C]
  | string {content : Bytes} (h : Content content) : Spells .string (0x22 :: (content ++ [0x22]))
  | yes : Spells (.bool true) [0x74, 0x72, 0x75, 0x65]
  | no : Spells (.bool false) [0x66, 0x61, 0x6C, 0x73, 0x65]
  | null : Spells .null [0x6E, 0x75, 0x6C, 0x6C]
  | number {n : Bytes} (h : Numeral n) : Spells .number n

/-- A number starts with a digit or a sign. -/
theorem Numeral.cons {n : Bytes} (h : Numeral n) :
    ∃ b r, n = b :: r ∧ (isDigit b = true ∨ b = 0x2D) := by
  obtain ⟨sign, i, f, e, hsign, hi, -, -, rfl⟩ := h
  have hsign' : sign = [] ∨ sign = [0x2D] := by simpa using hsign
  rcases hsign' with rfl | rfl
  · obtain ⟨d, r, rfl, hd⟩ := hi.cons
    exact ⟨d, _, rfl, Or.inl hd⟩
  · exact ⟨0x2D, _, rfl, Or.inr rfl⟩

/-- The reader takes a spelling off a text, if what follows a number ends it. -/
theorem token?_of_spells {k : Kind} {lexeme rest : Bytes} (h : Spells k lexeme)
    (hrest : k = .number → Ends rest) (space : Bytes) :
    token? space (lexeme ++ rest) = some (⟨space, k, lexeme⟩, rest) := by
  cases h with
  | string hcontent =>
      rw [List.cons_append, List.append_assoc, List.singleton_append, token?,
        stringRest_of_content hcontent]
      rfl
  | number hn =>
      have hread := number?_append hn (hrest rfl)
      obtain ⟨b, r, hb, hfirst⟩ := hn.cons
      rw [hb, List.cons_append] at hread
      rw [hb, List.cons_append]
      unfold token?
      split
      case h_1 heq => cases heq
      case h_12 =>
        rw [hread]
        rfl
      -- no other token starts like a number
      all_goals
        rename_i heq
        cases (List.cons.inj heq).1
        exact absurd hfirst (by decide)
  | _ => rfl

/-- A token that was read is spelled as its kind demands. -/
theorem spells_of_token? {space bs rest : Bytes} {t : Token} (h : token? space bs = some (t, rest)) :
    t.space = space ∧ Spells t.kind t.lexeme ∧ bs = t.lexeme ++ rest := by
  unfold token? at h
  split at h
  case h_1 => cases h
  case h_8 =>
    obtain ⟨⟨s, r⟩, hs, heq⟩ := Option.map_eq_some_iff.mp h
    cases heq
    obtain ⟨content, hcontent, rfl, rfl⟩ := content_of_stringRest hs
    exact ⟨rfl, .string hcontent, by simp⟩
  case h_12 =>
    obtain ⟨⟨n, r⟩, hn, heq⟩ := Option.map_eq_some_iff.mp h
    cases heq
    obtain ⟨hn, hbs⟩ := numeral_of_number? hn
    exact ⟨rfl, .number hn, hbs⟩
  all_goals
    cases h
    exact ⟨rfl, by constructor, rfl⟩

theorem Spells.cons {k : Kind} {lexeme : Bytes} (h : Spells k lexeme) :
    ∃ b r, lexeme = b :: r ∧ isSpace b = false := by
  cases h with
  | number hn =>
      obtain ⟨b, r, rfl, hb⟩ := hn.cons
      refine ⟨b, r, rfl, ?_⟩
      rcases hb with hb | rfl
      · have hall : ∀ b : UInt8, isDigit b = true → isSpace b = false := by
          apply Utf8.forall_octet
          decide +kernel
        exact hall b hb
      · decide
  | _ => exact ⟨_, _, rfl, by decide⟩

end LanguageClient.Json
