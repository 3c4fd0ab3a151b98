import LanguageClient.Number.Decimal

/-! # Decimal numbers read back what was written.

`natText` writes decimal digits and nothing else, and `int64?` reads them back
as long as the number fits, with a sign or without. -/

namespace LanguageClient.Number

theorem foldDigits_eq_ofDigitChars (n : Nat) (cs : List Char) :
    foldDigits n cs = Nat.ofDigitChars 10 cs n := by
  have hround : ∀ m c, m * 10 + digitValue c = 10 * m + (c.toNat - '0'.toNat) := by
    intro m c
    rw [Nat.mul_comm]
    rfl
  simp only [foldDigits, Nat.ofDigitChars, hround]

theorem natText_ne_nil (n : Nat) : natText n ≠ [] := Nat.toDigits_ne_nil

theorem isDigit_of_mem_natText {n : Nat} {c : Char} (h : c ∈ natText n) : c.isDigit = true :=
  Nat.isDigit_of_mem_toDigits (by decide) (by decide) h

/-- No number but zero starts with a zero. -/
theorem head?_natText {n : Nat} (h : n ≠ 0) : (natText n).head? ≠ some '0' := by
  induction n using Nat.strongRecOn with
  | ind n ih =>
      rw [natText, Nat.toDigits_eq_if (by decide)]
      split
      · next hsmall =>
          have hdigit : ∀ d < 10, d ≠ 0 → some d.digitChar ≠ some '0' := by decide
          exact hdigit n hsmall h
      · next hlarge =>
          obtain ⟨d, ds, hds⟩ := List.exists_cons_of_ne_nil (natText_ne_nil (n / 10))
          have hhead := ih (n / 10) (by omega) (by omega)
          rw [hds] at hhead
          rw [natText] at hds
          rw [hds]
          exact hhead

/-- A number is read back from its digits. -/
theorem digits?_natText (n : Nat) : digits? (natText n) = some n := by
  have hne : (natText n).isEmpty = false := by
    rw [List.isEmpty_eq_false_iff]
    exact natText_ne_nil n
  have hall : (natText n).all Char.isDigit = true := by
    rw [List.all_eq_true]
    exact fun c hc => isDigit_of_mem_natText hc
  have hvalue : foldDigits 0 (natText n) = n := by
    rw [foldDigits_eq_ofDigitChars]
    exact Nat.ofDigitChars_ten_toDigits
  simp only [digits?, hne, hall, hvalue, Bool.not_false, Bool.and_self, if_true]

/-- Digits carry no sign. -/
theorem splitSign_of_isDigit {cs : List Char} (h : ∀ c ∈ cs, c.isDigit = true) :
    splitSign cs = (false, cs) := by
  unfold splitSign
  split
  · exact absurd (h '-' List.mem_cons_self) (by decide)
  · exact absurd (h '+' List.mem_cons_self) (by decide)
  · rfl

/-- **A number that fits in 64 bits is read back from its digits.** -/
theorem int64?_natText {n : Nat} (h : (n : Int) ≤ int64Max) : int64? (natText n) = some (n : Int) := by
  have hfits : fitsInt64 (signed false n) = true := by
    have hmin : int64Min ≤ (n : Int) := by
      unfold int64Min
      omega
    simp only [fitsInt64, signed, Bool.false_eq_true, if_false, hmin, h, decide_true, Bool.and_self]
  simp only [int64?, splitSign_of_isDigit fun _ => isDigit_of_mem_natText, digits?_natText, hfits,
    if_true]
  rfl

theorem toList_intText (n : Nat) : (intText n).toList = natText n := String.toList_ofList

/-- **So is a number with a sign.** -/
theorem int64?_intText {n : Int} (h : fitsInt64 n = true) : int64? (intText n).toList = some n := by
  cases n with
  | ofNat n =>
      simp only [fitsInt64, Bool.and_eq_true, decide_eq_true_eq] at h
      rw [intText, String.toList_ofList]
      exact int64?_natText h.2
  | negSucc n =>
      have hsigned : signed true (n + 1) = Int.negSucc n := rfl
      rw [intText, String.toList_ofList]
      simp only [int64?, splitSign, digits?_natText, hsigned, h, if_true]

/-- An integer is written with signs and digits alone. -/
theorem mem_of_int64? {cs : List Char} {n : Int} (h : int64? cs = some n) {c : Char} (hc : c ∈ cs) :
    c = '-' ∨ c = '+' ∨ c.isDigit = true := by
  have hdigits : ∀ {rest : List Char} {k : Nat}, digits? rest = some k →
      ∀ c ∈ rest, c.isDigit = true := by
    intro rest k hk
    unfold digits? at hk
    split at hk
    · next hd => exact List.all_eq_true.mp (Bool.and_eq_true_iff.mp hd).2
    · cases hk
  unfold int64? at h
  simp only at h
  split at h
  · cases h
  · next k hk =>
      have hrest := hdigits hk
      unfold splitSign at hrest
      split at hrest <;> grind

end LanguageClient.Number
