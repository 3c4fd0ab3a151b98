import LanguageClient.Terminal.Block
import LanguageClient.Terminal.Clip
import LanguageClient.Proofs.Text.Split
import Mathlib.Algebra.GroupWithZero.Nat

/-! # The rows of blocks.

A block has as many rows as it has line ends and one more. Stacked blocks have the rows of the
first, then those of the second, and so on, each with blanks behind it. -/

namespace LanguageClient.Terminal

variable {b c : Block} {bs : List Block}

theorem lines_cons (x : Symbol) (b : Block) :
    lines (x :: b) = if isNewline x then [] :: lines b else (lines b).modifyHead (x :: ·) := by
  simp only [lines, List.foldr_cons]
  split <;> rfl

/-- The lines of a block are cut at its line ends. -/
theorem lines_eq_splitOn (b : Block) : lines b = b.splitOn (.char '\n') := by
  induction b with
  | nil => rfl
  | cons x b ih =>
      rw [lines_cons, List.splitOn_cons_eq_if_modifyHead, ih]
      rfl

theorem unlines_eq_intercalate (bs : List Block) : unlines bs = [.char '\n'].intercalate bs := by
  induction bs with
  | nil => rfl
  | cons b bs ih =>
      cases bs with
      | nil => exact List.intercalate_singleton.symm
      | cons c bs =>
          rw [List.intercalate_cons_cons, List.append_assoc, ← ih]
          rfl

theorem length_lines (b : Block) : (lines b).length = height b := by
  rw [lines_eq_splitOn, Text.length_splitOn, List.count_eq_length_filter]
  rfl

theorem newline_notMem_of_mem_lines (h : c ∈ lines b) : .char '\n' ∉ c := by
  rw [lines_eq_splitOn] at h
  exact Text.notMem_of_mem_splitOn h

theorem height_pos (b : Block) : 0 < height b := Nat.succ_pos _

theorem height_eq_one (h : .char '\n' ∉ b) : height b = 1 := by
  rw [← length_lines, lines_eq_splitOn, List.splitOn_eq_singleton h]
  rfl

/-! ### The rows of several blocks -/

/-- The rows of one block after the other. -/
def rows (bs : List Block) : List Block := bs.flatMap lines

@[simp]
theorem rows_nil : rows [] = [] := rfl

@[simp]
theorem rows_cons (b : Block) (bs : List Block) : rows (b :: bs) = lines b ++ rows bs :=
  List.flatMap_cons

@[simp]
theorem rows_append (bs cs : List Block) : rows (bs ++ cs) = rows bs ++ rows cs :=
  List.flatMap_append

theorem length_rows (bs : List Block) : (rows bs).length = (bs.map height).sum := by
  rw [rows, List.length_flatMap, funext length_lines]

/-- Blocks that were put below each other are read back row by row. -/
theorem lines_unlines (h : bs ≠ []) : lines (unlines bs) = rows bs := by
  rw [rows, funext lines_eq_splitOn, unlines_eq_intercalate, Text.splitOn_intercalate h]

/-- Blocks of one row each are their own rows. -/
theorem rows_eq_self (h : ∀ b ∈ bs, .char '\n' ∉ b) : rows bs = bs := by
  rw [rows, funext lines_eq_splitOn]
  exact Text.flatMap_splitOn_eq_iff.mpr h

theorem newline_notMem_padTo (w : Nat) (h : .char '\n' ∉ b) : .char '\n' ∉ padTo w b := by
  intro hmem
  rcases List.mem_append.mp hmem with hmem | hmem
  · exact h hmem
  · cases List.eq_of_mem_replicate hmem

/-- Blanks behind rows do not make new ones. -/
theorem rows_padTo (w : Nat) (bs : List Block) :
    rows ((rows bs).map (padTo w)) = (rows bs).map (padTo w) := by
  apply rows_eq_self
  intro row hrow
  obtain ⟨line, hline, rfl⟩ := List.mem_map.mp hrow
  obtain ⟨b, -, hb⟩ := List.mem_flatMap.mp hline
  exact newline_notMem_padTo w (newline_notMem_of_mem_lines hb)

theorem stack_eq (b c : Block) (bs : List Block) :
    stack (b :: c :: bs) = unlines ((rows (b :: c :: bs)).map (padTo (width (rows (b :: c :: bs))))) :=
  rfl

/-- Blocks on top of each other have the rows of each, padded. -/
theorem lines_stack (b c : Block) (bs : List Block) :
    ∃ w, lines (stack (b :: c :: bs)) = (rows (b :: c :: bs)).map (padTo w) := by
  refine ⟨width (rows (b :: c :: bs)), ?_⟩
  rw [stack_eq, lines_unlines, rows_padTo]
  simp [lines]

/-- Blocks on top of each other are as high as all of them together. -/
theorem height_stack (b c : Block) (bs : List Block) :
    height (stack (b :: c :: bs)) = ((b :: c :: bs).map height).sum := by
  obtain ⟨w, hw⟩ := lines_stack b c bs
  rw [← length_lines, hw, List.length_map, length_rows]

/-! ### Blocks side by side -/

/-- The rows of the highest of several blocks. -/
def maxHeight (bs : List Block) : Nat := (bs.map height).foldl max 0

theorem le_foldl_max (n : Nat) (l : List Nat) : n ≤ l.foldl max n := by
  induction l generalizing n with
  | nil => exact Nat.le_refl n
  | cons k l ih => exact Nat.le_trans (Nat.le_max_left n k) (ih (max n k))

theorem beside_eq (b c : Block) (bs : List Block) :
    beside (b :: c :: bs) = unlines ((List.range (maxHeight (b :: c :: bs))).map fun i =>
      ((b :: c :: bs).map lines).flatMap fun column =>
        padTo (width column) (column[i]?.getD [])) := by
  have hrows : ((b :: c :: bs).map lines).foldl (fun n column => max n column.length) 0 =
      maxHeight (b :: c :: bs) := by
    rw [maxHeight, List.foldl_map, List.foldl_map]
    simp only [length_lines]
  rw [← hrows]
  rfl

/-- Blocks side by side are as high as the highest of them. -/
theorem height_beside (b c : Block) (bs : List Block) :
    height (beside (b :: c :: bs)) = maxHeight (b :: c :: bs) := by
  have hpos : maxHeight (b :: c :: bs) ≠ 0 := by
    have hb := height_pos b
    have hle := le_foldl_max (max (max 0 (height b)) (height c)) (bs.map height)
    simp only [maxHeight, List.map_cons, List.foldl_cons]
    omega
  rw [beside_eq, ← length_lines, lines_unlines (by simpa using hpos), rows_eq_self, List.length_map,
    List.length_range]
  intro row hrow hmem
  obtain ⟨i, -, rfl⟩ := List.mem_map.mp hrow
  obtain ⟨column, hcolumn, hmem⟩ := List.mem_flatMap.mp hmem
  obtain ⟨d, -, rfl⟩ := List.mem_map.mp hcolumn
  refine newline_notMem_padTo _ ?_ hmem
  cases hline : (lines d)[i]? with
  | none => exact List.not_mem_nil
  | some line => exact newline_notMem_of_mem_lines (List.mem_of_getElem? hline)

/-! ### Cut lines -/

theorem newline_notMem_ofString {s : String} (h : '\n' ∉ s.toList) :
    .char '\n' ∉ Block.ofString s := by
  intro hmem
  obtain ⟨c, hc, heq⟩ := List.mem_map.mp hmem
  cases heq
  exact h hc

/-- Cutting a line makes no line ends. -/
theorem newline_notMem_clip (n : Nat) (h : .char '\n' ∉ b) : .char '\n' ∉ clip n b := by
  have hwhole : ∀ k, .char '\n' ∉ (b.take k).map whole := by
    intro k hmem
    obtain ⟨x, hx, heq⟩ := List.mem_map.mp hmem
    cases x with
    | char c =>
        rw [← heq] at h
        exact h (List.mem_of_mem_take hx)
    -- A stray octet becomes the replacement character, which is no line feed.
    | stray o =>
        have hreplacement : Utf8.replacement = '\n' := Symbol.char.inj heq
        exact absurd hreplacement (by decide)
  rw [clip]
  split
  · exact h
  · split
    · exact hwhole n
    · intro hmem
      rcases List.mem_append.mp hmem with hmem | hmem
      · exact hwhole (n - 3) hmem
      · exact absurd (List.eq_of_mem_replicate hmem) (by decide)

end LanguageClient.Terminal
