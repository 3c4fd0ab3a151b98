/-! # Texts cut at a separator.

`List.splitOn` cuts at every separator: how many pieces there are, that none of them holds
a separator, and what it makes of texts that were put together with one. -/

namespace LanguageClient.Text

variable {α : Type} [BEq α] {sep : α}

/-- There is one piece more than there are separators. -/
theorem length_splitOn (text : List α) : (text.splitOn sep).length = text.count sep + 1 := by
  induction text with
  | nil => rfl
  | cons x text ih =>
      rw [List.splitOn_cons_eq_if_modifyHead, List.count_cons]
      split
      · rw [List.length_cons, ih]
      · rw [List.length_modifyHead, ih, Nat.add_zero]

variable [LawfulBEq α]

/-- No piece holds a separator. -/
theorem notMem_of_mem_splitOn {text piece : List α} (h : piece ∈ text.splitOn sep) :
    sep ∉ piece := by
  induction text generalizing piece with
  | nil =>
      rw [List.splitOn_nil, List.mem_singleton] at h
      subst h
      exact List.not_mem_nil
  | cons x text ih =>
      rw [List.splitOn_cons_eq_if_modifyHead] at h
      split at h
      · rcases List.mem_cons.mp h with rfl | h
        · exact List.not_mem_nil
        · exact ih h
      -- The piece in front gets the element; it is not the separator.
      · next hx =>
        obtain ⟨first, rest, hpieces⟩ := List.exists_cons_of_ne_nil (List.splitOn_ne_nil sep text)
        rw [hpieces] at ih h
        rw [List.modifyHead_cons] at h
        rcases List.mem_cons.mp h with rfl | h
        · intro hsep
          rcases List.mem_cons.mp hsep with rfl | hsep
          · exact hx BEq.rfl
          · exact ih List.mem_cons_self hsep
        · exact ih (List.mem_cons_of_mem _ h)

/-- Texts with a separator between them. -/
theorem splitOn_intercalate {texts : List (List α)} (h : texts ≠ []) :
    ([sep].intercalate texts).splitOn sep = texts.flatMap (·.splitOn sep) := by
  induction texts with
  | nil => exact absurd rfl h
  | cons text texts ih =>
      cases texts with
      | nil => simp
      | cons next texts =>
          have hcut : [sep].intercalate (text :: next :: texts) =
              text ++ sep :: [sep].intercalate (next :: texts) := by
            rw [List.intercalate_cons_cons, List.append_assoc]
            rfl
          rw [hcut, List.splitOn_append_cons_self, ih (List.cons_ne_nil _ _)]
          rfl

/-- Texts with a separator behind each. -/
theorem splitOn_terminated (texts : List (List α)) :
    (texts.flatMap (· ++ [sep])).splitOn sep = texts.flatMap (·.splitOn sep) ++ [[]] := by
  induction texts with
  | nil => rfl
  | cons text texts ih =>
      have hcut : (text :: texts).flatMap (· ++ [sep]) =
          text ++ sep :: texts.flatMap (· ++ [sep]) := by
        rw [List.flatMap_cons, List.append_assoc]
        rfl
      rw [hcut, List.splitOn_append_cons_self, ih, List.flatMap_cons, List.append_assoc]

/-- Each text is one piece exactly if none of them holds a separator. -/
theorem flatMap_splitOn_eq_iff {texts : List (List α)} :
    texts.flatMap (·.splitOn sep) = texts ↔ ∀ text ∈ texts, sep ∉ text := by
  constructor
  · intro h text htext
    rw [← h] at htext
    obtain ⟨_, -, hpiece⟩ := List.mem_flatMap.mp htext
    exact notMem_of_mem_splitOn hpiece
  · intro h
    induction texts with
    | nil => rfl
    | cons text texts ih =>
        obtain ⟨htext, htexts⟩ := List.forall_mem_cons.mp h
        rw [List.flatMap_cons, List.splitOn_eq_singleton htext, ih htexts]
        rfl

end LanguageClient.Text
