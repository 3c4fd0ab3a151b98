import LanguageClient.Text.Space

/-! # Trimming.

`trimBoth` takes off exactly what is blank at both ends: what stands between
begins and ends with something that is not. -/

namespace LanguageClient.Text

variable {p : α → Bool}

theorem dropWhile_of_head {l : List α} (h : ∀ x, l.head? = some x → p x = false) :
    l.dropWhile p = l := by
  cases l with
  | nil => rfl
  | cons x l => exact List.dropWhile_cons_of_neg (by simp [h x rfl])

/-- **Trimming gives back what stands between blank ends.** -/
theorem trimBoth_append {before middle after : List α} (hb : ∀ x ∈ before, p x = true)
    (ha : ∀ x ∈ after, p x = true) (hfirst : ∀ x, middle.head? = some x → p x = false)
    (hlast : ∀ x, middle.getLast? = some x → p x = false) :
    trimBoth p (before ++ middle ++ after) = middle := by
  have ha' : ∀ x ∈ after.reverse, p x = true := fun x hx => ha x (List.mem_reverse.mp hx)
  rw [trimBoth, List.append_assoc, List.dropWhile_append_of_pos hb]
  cases middle with
  | nil =>
      have hnil : after.dropWhile p = [] := by
        rw [← List.append_nil after, List.dropWhile_append_of_pos ha, List.dropWhile_nil]
      rw [List.nil_append, hnil]
      rfl
  | cons x middle =>
      have hfront : (x :: middle ++ after).dropWhile p = x :: middle ++ after :=
        dropWhile_of_head hfirst
      have hback : (x :: middle).reverse.dropWhile p = (x :: middle).reverse := by
        apply dropWhile_of_head
        rw [List.head?_reverse]
        exact hlast
      rw [hfront, List.reverse_append, List.dropWhile_append_of_pos ha', hback, List.reverse_reverse]

/-- Trimming what a function makes of a list. -/
theorem trimBoth_map (f : β → α) (l : List β) :
    trimBoth p (l.map f) = (trimBoth (p ∘ f) l).map f := by
  simp only [trimBoth, List.dropWhile_map, ← List.map_reverse]

/-- Digits are not blank. -/
theorem isBlank_of_isDigit {c : Char} (h : c.isDigit = true) : isBlank c = false := by
  have hc : 0x30 ≤ c.toNat ∧ c.toNat ≤ 0x39 := by
    simp only [Char.isDigit, Bool.and_eq_true, decide_eq_true_eq, UInt32.le_iff_toNat_le] at h
    exact h
  rw [← Bool.not_eq_true]
  intro hb
  simp only [isBlank, Bool.or_eq_true, Bool.and_eq_true, decide_eq_true_eq, beq_iff_eq] at hb
  omega

end LanguageClient.Text
