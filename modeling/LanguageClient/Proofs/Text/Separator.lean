/-! # Texts up to a separator.

What stands in front of the first separator of a text, and what is left there: a line in
front of its line feed, a name in front of its colon, a host in front of its path. -/

namespace LanguageClient.Text

variable {α : Type} [BEq α] [LawfulBEq α] {sep : α} {front : List α}

theorem bne_of_notMem (h : sep ∉ front) : ∀ x ∈ front, (x != sep) = true := by
  intro x hx
  rw [bne_iff_ne]
  rintro rfl
  exact h hx

theorem takeWhile_sep (h : sep ∉ front) (back : List α) :
    (front ++ sep :: back).takeWhile (· != sep) = front := by
  rw [List.takeWhile_append_of_pos (bne_of_notMem h), List.takeWhile_cons_of_neg (by simp), List.append_nil]

theorem dropWhile_sep (h : sep ∉ front) (back : List α) :
    (front ++ sep :: back).dropWhile (· != sep) = sep :: back := by
  rw [List.dropWhile_append_of_pos (bne_of_notMem h), List.dropWhile_cons_of_neg (by simp)]

theorem takeWhile_notMem (h : sep ∉ front) : front.takeWhile (· != sep) = front := by
  rw [← List.append_nil front, List.takeWhile_append_of_pos (bne_of_notMem h), List.takeWhile_nil]

theorem dropWhile_notMem (h : sep ∉ front) : front.dropWhile (· != sep) = [] := by
  rw [← List.append_nil front, List.dropWhile_append_of_pos (bne_of_notMem h), List.dropWhile_nil]

end LanguageClient.Text
