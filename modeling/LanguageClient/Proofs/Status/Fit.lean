import LanguageClient.Status.View
import LanguageClient.Proofs.Log.Time
import LanguageClient.Proofs.Status.Memory
import LanguageClient.Proofs.Terminal.Block

/-! # Whether the status view fits on the terminal.

The header, the notices and the footer take the rows they need, and the entries of the log are
to take the others. As many entries are shown as there are rows left, so that the view fits if
each of them has one row; an entry that has more rows makes it longer than the terminal.

`height_view` counts the rows, and `lines_view` says which rows they are. -/

namespace LanguageClient.Status

open Terminal
open Log.Channel (lastN)

/-- The last few elements of a list end with its last one. -/
theorem lastN_concat_succ {α : Type} (n : Nat) (l : List α) (a : α) :
    lastN (n + 1) (l ++ [a]) = lastN n l ++ [a] := by
  simp only [lastN, List.length_append, List.length_singleton, Nat.add_sub_add_right]
  exact List.drop_append_of_le_length (Nat.sub_le _ _)

namespace Model

variable {p : Profile} {m : Model}

/-- The rows of everything but the entries of the log. -/
def otherRows (p : Profile) (m : Model) : Nat :=
  (rows (m.header p :: (m.noticeBlock? p).toList ++ [m.footer p])).length

/-- An entry of the log, cut to the width of the terminal. -/
def shown (m : Model) (entry : String) : Block :=
  if 0 < m.width then clip m.width.toNat (Block.ofString entry) else Block.ofString entry

/-- How many entries are shown at most. -/
def room (p : Profile) (m : Model) : Nat := (max (m.height - m.otherRows p) 1).toNat

def visible (p : Profile) (m : Model) : List Block := (lastN (m.room p) m.lines).map m.shown

/-- There is room for one entry at least. -/
theorem room_eq_succ (p : Profile) (m : Model) : ∃ n, m.room p = n + 1 :=
  Nat.exists_eq_add_one.mpr (Int.lt_toNat.mpr (by omega))

/-- The last entry is shown. -/
theorem visible_eq_concat {older : List String} {newest : String} (h : m.lines = older ++ [newest]) :
    ∃ above, m.visible p = above ++ [m.shown newest] := by
  obtain ⟨n, hn⟩ := room_eq_succ p m
  refine ⟨(lastN n older).map m.shown, ?_⟩
  rw [visible, h, hn, lastN_concat_succ, List.map_append]
  rfl

/-- The view is the header, the entries, the notices and the footer. -/
theorem view_eq (h : m.lines ≠ []) :
    m.view p = stack (m.header p :: unlines (m.visible p) ::
      ((m.noticeBlock? p).toList ++ [m.footer p])) := by
  have hused : m.otherRows p = Terminal.height (m.header p) + Terminal.height (m.footer p) +
      ((m.noticeBlock? p).toList.map Terminal.height).foldl (· + ·) 0 := by
    rw [otherRows, length_rows]
    cases m.noticeBlock? p with
    | none => simp
    | some notices =>
        simp only [Option.toList_some, List.cons_append, List.nil_append, List.map_cons, List.map_nil,
          List.sum_cons, List.sum_nil, List.foldl_cons, List.foldl_nil]
        omega
  have hlines : m.lineBlock p (m.height - m.otherRows p) = unlines (m.visible p) := by
    rw [lineBlock, if_neg (by simpa using h)]
    rfl
  rw [← hlines, hused]
  rfl

/-- What the rows of the view are. -/
theorem lines_view {older : List String} {newest : String} (h : m.lines = older ++ [newest]) :
    ∃ w above, above ++ [m.shown newest] = m.visible p ∧ Terminal.lines (m.view p) =
      (rows (m.header p :: above ++ m.shown newest :: (m.noticeBlock? p).toList ++ [m.footer p])).map
        (padTo w) := by
  obtain ⟨above, habove⟩ := visible_eq_concat (p := p) h
  have hlines : m.lines ≠ [] := h ▸ List.concat_ne_nil newest older
  obtain ⟨w, hw⟩ := lines_stack (m.header p) (unlines (m.visible p))
    ((m.noticeBlock? p).toList ++ [m.footer p])
  refine ⟨w, above, habove.symm, ?_⟩
  rw [view_eq hlines, hw, rows_cons, rows_cons, habove, lines_unlines (List.concat_ne_nil _ _)]
  simp only [rows_nil, rows_append, rows_cons, List.append_nil, List.append_assoc]

/-- How many rows the view has. -/
theorem height_view (h : m.lines ≠ []) :
    Terminal.height (m.view p) = m.otherRows p + (rows (m.visible p)).length := by
  obtain ⟨older, newest, hlines⟩ := (List.eq_nil_or_concat' m.lines).resolve_left h
  obtain ⟨w, above, habove, hrows⟩ := lines_view (p := p) hlines
  rw [← length_lines, hrows, ← habove]
  simp only [otherRows, rows_append, rows_cons, rows_nil, List.append_nil, List.length_map,
    List.length_append]
  omega

/-- Entries that have one row each fit into the room there is for them. -/
theorem length_rows_visible_le (h : ∀ entry ∈ m.lines, '\n' ∉ entry.toList) :
    (rows (m.visible p)).length ≤ m.room p := by
  have hone : ∀ b ∈ m.visible p, Terminal.height b = 1 := by
    intro b hb
    obtain ⟨entry, hentry, rfl⟩ := List.mem_map.mp hb
    have hfree := newline_notMem_ofString (h entry (List.mem_of_mem_drop hentry))
    apply height_eq_one
    rw [shown]
    split
    · exact newline_notMem_clip _ hfree
    · exact hfree
  calc (rows (m.visible p)).length
      = ((m.visible p).map fun _ => 1).sum := by rw [length_rows, List.map_congr_left hone]
    _ = (m.visible p).length := by rw [List.map_const', List.sum_replicate_nat, Nat.mul_one]
    _ = (lastN (m.room p) m.lines).length := List.length_map _
    _ = min (m.room p) m.lines.length := Log.Channel.length_lastN _ _
    _ ≤ m.room p := Nat.min_le_left _ _

theorem newline_notMem_display {l : Log.Line} (h : '\n' ∉ l.text.toList) :
    '\n' ∉ l.display.toList := by
  have hclock : '\n' ∉ l.time.preciseClock.toList := Log.Time.lineEnd_notMem_preciseClock
  simp only [Log.Line.display, String.toList_append, List.mem_append, not_or]
  exact ⟨⟨⟨by decide, hclock⟩, by decide⟩, h⟩

/-- If there is room for entries of the log, the view fits on the terminal exactly if the
entries that are shown have no more rows than there is room for, and it does if no entry has
more than one. The newest entry is shown as far as it is not too wide, above the notices. -/
theorem view_fits_iff (name : String) (now : Log.Time) (ms : List Message) (p : Profile) :
    let m := (start name now).run ms
    m.lines ≠ [] → m.otherRows p < m.height →
    (Terminal.height (m.view p) ≤ m.height ↔ (rows (m.visible p)).length ≤ m.room p) ∧
    ((∀ l, .line l ∈ ms → '\n' ∉ l.text.toList) → Terminal.height (m.view p) ≤ m.height) ∧
    ∃ w above newest, m.lines.getLast? = some newest ∧ Terminal.lines (m.view p) =
      (above ++ rows (m.shown newest :: (m.noticeBlock? p).toList ++ [m.footer p])).map (padTo w) := by
  -- With the other rows paid for, what counts is the room of the entries.
  intro m hlines hroom
  have hfits : Terminal.height (m.view p) ≤ m.height ↔
      (rows (m.visible p)).length ≤ m.room p := by
    rw [height_view hlines, room]
    omega
  refine ⟨hfits, ?_, ?_⟩
  · intro hfree
    apply hfits.mpr
    apply length_rows_visible_le
    intro entry hentry
    obtain ⟨l, hl, rfl⟩ := (run_reflects name now ms).exists_of_mem_lines hentry
    exact newline_notMem_display (hfree l hl)
  -- The newest entry is at the bottom, where the rows are taken from.
  · obtain ⟨older, newest, hconcat⟩ := (List.eq_nil_or_concat' m.lines).resolve_left hlines
    obtain ⟨w, above, -, hrows⟩ := lines_view (p := p) hconcat
    refine ⟨w, rows (m.header p :: above), newest, ?_, ?_⟩
    · rw [hconcat, List.getLast?_concat]
    · rw [hrows, ← rows_append]
      simp only [List.cons_append, List.append_assoc]

/-! ### The rows of the header, the notices and the footer -/

/-- The parts of the first row of the header. -/
def headParts (p : Profile) (m : Model) : List Block :=
  let word := Style.render p { colour := stateColour m.state, bold := true } (Block.ofString m.stateWord)
  let sign := Style.render p { colour := 220 } (Block.ofString (frames[m.frame]?.getD ""))
  [Style.render p { colour := 86, bold := true } (Block.ofString m.channelName), blanks 2,
    if m.busy then sign ++ .char ' ' :: word else word, blanks 2,
    Block.ofString "Session: " ++ m.shortSession ++
      Block.ofString (" | Up: " ++ (wholeSeconds (m.now.ms - m.startedAt.ms)).text)]

/-- The program and the error, as far as they are known. -/
def reports (p : Profile) (m : Model) : List Block :=
  (if m.binaryPath = "" then [] else [Block.ofString ("Server: " ++ m.binaryPath)]) ++
    (match m.lastError with
    | some e => [Style.render p { colour := 196 } (Block.ofString ("Error: " ++ e.message))]
    | none => [])

def controls (p : Profile) : Block :=
  Style.render p { colour := 245 } (Block.ofString "Controls: [c] Clear | [q] Quit")

theorem height_header (p : Profile) (m : Model) : Terminal.height (m.header p) =
    maxHeight (m.headParts p) + (rows (m.reports p)).length + Terminal.height (m.divider p) := by
  have hheader : m.header p = stack (beside (m.headParts p) :: (m.reports p ++ [m.divider p])) := by
    simp only [header, reports, List.cons_append, List.append_assoc]
    rfl
  obtain ⟨b, bs, hrest⟩ := List.exists_cons_of_ne_nil (List.concat_ne_nil (m.divider p) (m.reports p))
  rw [hheader, hrest, height_stack, ← hrest, ← length_rows]
  have hbeside : Terminal.height (beside (m.headParts p)) = maxHeight (m.headParts p) :=
    height_beside _ _ _
  simp only [rows_cons, rows_append, rows_nil, List.append_nil, List.length_append, length_lines, hbeside]
  omega

/-- The rows of the notices, and of the divider above them. -/
theorem length_rows_notices (p : Profile) (m : Model) : (rows (m.noticeBlock? p).toList).length =
    if m.notices.isEmpty then 0
    else Terminal.height (m.divider p) +
      (rows (m.notices.map fun n => Style.render p { colour := 245 } (Block.ofString n))).length := by
  rw [noticeBlock?]
  split
  · rfl
  · next h =>
    obtain ⟨n, ns, hnotices⟩ := List.exists_cons_of_ne_nil (fun hnil => h (List.isEmpty_iff.mpr hnil))
    rw [hnotices, Option.toList_some, List.map_cons, rows_cons, rows_nil, List.append_nil, length_lines,
      height_stack, length_rows, List.map_cons, List.sum_cons]

theorem otherRows_eq (p : Profile) (m : Model) :
    m.otherRows p = maxHeight (m.headParts p) + (rows (m.reports p)).length +
      (rows (m.noticeBlock? p).toList).length + 2 * Terminal.height (m.divider p) +
      Terminal.height (controls p) := by
  have hfooter : Terminal.height (m.footer p) =
      Terminal.height (m.divider p) + Terminal.height (controls p) := height_stack _ _ _
  simp only [otherRows, rows_cons, rows_append, rows_nil, List.append_nil, List.length_append,
    length_lines, height_header, hfooter]
  omega

/-- Of four entries, one of them too wide, the last two are shown: with a notice there is room
for two rows. -/
theorem last_entries_fit :
    let m := (start "GBNF LSP" ⟨0⟩).run [.resized 20 8, .line ⟨⟨0⟩, "x"⟩, .line ⟨⟨0⟩, "y"⟩,
      .notice "connected", .line ⟨⟨0⟩, "wider than it may be"⟩, .line ⟨⟨0⟩, "z"⟩]
    m.lines.length = 4 ∧ m.otherRows .plain = 6 ∧ Terminal.height (m.view .plain) ≤ m.height := by
  intro m
  have hother : m.otherRows .plain = 6 := by
    rw [otherRows_eq, length_rows_notices]
    decide +kernel
  refine ⟨rfl, hother, (view_fits_iff "GBNF LSP" ⟨0⟩ _ .plain ?_ ?_).2.1 ?_⟩
  · exact List.cons_ne_nil _ _
  · show (m.otherRows .plain : Int) < m.height
    rw [hother]
    decide
  · intro l hl
    simp only [List.mem_cons, List.not_mem_nil] at hl
    rcases hl with hl | hl | hl | hl | hl | hl | hl <;> cases hl <;> decide

/-- An entry with a line end in it takes a row more than there are, though there is room for
two rows. -/
theorem entry_of_two_rows_does_not_fit :
    let m := (start "GBNF LSP" ⟨0⟩).run [.resized 40 6, .line ⟨⟨0⟩, "x"⟩, .line ⟨⟨0⟩, "a\nb"⟩]
    m.lines ≠ [] ∧ m.otherRows .plain = 4 ∧ m.height = 6 ∧ Terminal.height (m.view .plain) = 7 := by
  intro m
  have hlines : m.lines ≠ [] := List.cons_ne_nil _ _
  have hother : m.otherRows .plain = 4 := by
    rw [otherRows_eq]
    decide +kernel
  have hvisible : (rows ((lastN 2 m.lines).map m.shown)).length = 3 := by decide +kernel
  refine ⟨hlines, hother, rfl, ?_⟩
  rw [height_view hlines, visible, room, hother]
  exact congrArg (4 + ·) hvisible

end Model

end LanguageClient.Status
