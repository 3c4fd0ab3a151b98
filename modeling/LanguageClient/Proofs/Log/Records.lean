import LanguageClient.Proofs.Log.Order
import LanguageClient.Proofs.Log.Time
import LanguageClient.Proofs.Text.Split
import Mathlib.Algebra.GroupWithZero.Nat

/-! # Records and the lines of the log.

A record ends its line. Whether it is one line depends on the texts that it is made of:
the message is freed of line ends at its end only, and the name of the channel and the
fields are written as they are. Each line end that is left in one of them begins a line
that nobody has logged, and which no reader of the log can tell from a record.

* `Record.count_body` — how many line ends a record has inside;
* `Record.isLine_iff` — when it has none;
* `one_line_a_record` — what comes back when the log is cut at its line ends. -/

namespace LanguageClient.Log

namespace Record

variable {r : Record} {rs : List Record}

/-- What a record holds that comes from elsewhere: the name of the channel, the message as far
as it is written, and the fields. -/
def content (r : Record) : List Char :=
  (r.channel.getD "-").toList ++ (withoutLineEnds r.message).toList ++
    r.fields.flatMap fun f => f.1.toList ++ f.2.toList

/-- The line ends inside a record. -/
def breaks (r : Record) : Nat := r.content.count '\n'

/-- A record as it is written, without the line end behind it. -/
def body (r : Record) : List Char := r.written.toList.dropLast

/-- The lines that a record takes. -/
def rows (r : Record) : List (List Char) := r.body.splitOn '\n'

def log (rs : List Record) : List Char := rs.flatMap (·.written.toList)

/-- What a record is made of leaves it one line: behind a line end of the message there are
line ends only, and there is none elsewhere. -/
structure IsLine (r : Record) : Prop where
  message : ∀ before after, r.message.toList = before ++ '\n' :: after →
    ∀ c ∈ after, c = '\r' ∨ c = '\n'
  channel : '\n' ∉ (r.channel.getD "-").toList
  fields : ∀ f ∈ r.fields, '\n' ∉ f.1.toList ∧ '\n' ∉ f.2.toList

/-! ### Line ends inside a record -/

theorem count_intercalate {sep : List Char} {c : Char} (h : c ∉ sep) (ls : List (List Char)) :
    (sep.intercalate ls).count c = (ls.map (·.count c)).sum := by
  induction ls with
  | nil => rfl
  | cons l ls ih =>
      cases ls with
      | nil => simp
      | cons next ls =>
          rw [List.intercalate_cons_cons, List.count_append, List.count_append, ih,
            List.count_eq_zero.mpr h]
          rfl

theorem count_fieldsText (fields : List (String × String)) :
    (fieldsText fields).toList.count '\n' =
      (fields.flatMap fun f => f.1.toList ++ f.2.toList).count '\n' := by
  unfold fieldsText
  split
  next h =>
    rw [List.isEmpty_iff.mp h]
    rfl
  next =>
    have hsorted := (List.mergeSort_perm fields fun a b => decide (a.1 ≤ b.1)).flatMap_right
      fun f => f.1.toList ++ f.2.toList
    rw [← hsorted.count_eq, String.toList_append, List.count_append, String.toList_intercalate,
      count_intercalate (by decide), List.count_flatMap, List.map_map, List.map_map]
    show 0 + _ = _
    rw [Nat.zero_add]
    congr 2
    funext f
    simp [List.count_append]

theorem written_eq (r : Record) : r.written.toList = r.body ++ ['\n'] := by
  have h : r.written.toList.getLast? = some '\n' :=
    (congrArg List.getLast? String.toList_append).trans List.getLast?_concat
  exact (List.dropLast_append_getLast? _ h).symm

/-- **The line ends inside a record are those of its content.** -/
theorem count_body (r : Record) : r.body.count '\n' = r.breaks := by
  have hlevel : (padRight 5 r.level.name).toList.count '\n' = 0 := by
    cases r.level <;> decide
  have hstamp : r.time.stamp.toList.count '\n' = 0 :=
    List.count_eq_zero.mpr Time.lineEnd_notMem_stamp
  have hwritten : r.written.toList.count '\n' = r.breaks + 1 := by
    rw [breaks, content, List.count_append, List.count_append, ← count_fieldsText]
    unfold written
    iterate 9 rw [String.toList_append, List.count_append]
    rw [hlevel, hstamp]
    show 0 + 0 + 0 + 0 + 0 + _ + 0 + _ + _ + 1 = _
    omega
  rw [written_eq, List.count_append] at hwritten
  exact Nat.add_right_cancel hwritten

/-- What is dropped from the front of a list ends where something else comes. -/
theorem mem_dropWhile_iff {α : Type} {p : α → Bool} {x : α} (hx : p x = true) {l : List α} :
    x ∈ l.dropWhile p ↔ ∃ front back, l = front ++ x :: back ∧ ∃ y ∈ front, p y = false := by
  induction l with
  | nil => simp
  | cons a l ih =>
      rw [List.dropWhile_cons]
      by_cases ha : p a = true
      · rw [if_pos ha, ih]
        constructor
        · rintro ⟨front, back, rfl, y, hy, hpy⟩
          exact ⟨a :: front, back, rfl, y, List.mem_cons_of_mem a hy, hpy⟩
        · rintro ⟨front, back, hl, y, hy, hpy⟩
          cases front with
          | nil => cases hy
          | cons b front =>
              obtain ⟨rfl, rfl⟩ := List.cons.inj hl
              rcases List.mem_cons.mp hy with rfl | hy
              · rw [ha] at hpy
                cases hpy
              · exact ⟨front, back, rfl, y, hy, hpy⟩
      · rw [if_neg ha]
        -- From here on nothing is dropped.
        constructor
        · intro h
          rcases List.mem_cons.mp h with rfl | h
          · exact absurd hx ha
          · obtain ⟨front, back, rfl⟩ := List.append_of_mem h
            exact ⟨a :: front, back, rfl, a, List.mem_cons_self, Bool.eq_false_iff.mpr ha⟩
        · rintro ⟨front, back, hl, -⟩
          rw [hl]
          exact List.mem_append_right front List.mem_cons_self

/-- A line end of a message is written if anything but line ends comes behind it. -/
theorem lineEnd_mem_withoutLineEnds {s : String} :
    '\n' ∈ (withoutLineEnds s).toList ↔ ∃ before after, s.toList = before ++ '\n' :: after ∧
      ∃ c ∈ after, ¬(c = '\r' ∨ c = '\n') := by
  rw [withoutLineEnds, String.toList_ofList, List.mem_reverse, mem_dropWhile_iff (by decide)]
  constructor
  · rintro ⟨front, back, h, c, hc, hne⟩
    refine ⟨back.reverse, front.reverse, ?_, c, List.mem_reverse.mpr hc, by simpa using hne⟩
    rw [← List.reverse_reverse s.toList, h]
    simp
  · rintro ⟨before, after, h, c, hc, hne⟩
    refine ⟨after.reverse, before.reverse, ?_, c, List.mem_reverse.mpr hc, by simpa using hne⟩
    rw [h]
    simp

/-- A record is one line exactly if its body has no line end. -/
theorem isLine_iff : r.IsLine ↔ '\n' ∉ r.body := by
  have hbody : '\n' ∉ r.body ↔ '\n' ∉ r.content := by
    rw [← List.count_eq_zero, count_body, breaks, List.count_eq_zero]
  rw [hbody, content, List.mem_append, List.mem_append, not_or, not_or, lineEnd_mem_withoutLineEnds,
    List.mem_flatMap]
  constructor
  · intro h
    -- The content has line ends in the channel, in the message, or in a field.
    refine ⟨⟨h.channel, ?_⟩, ?_⟩
    · rintro ⟨before, after, hm, c, hc, hne⟩
      exact hne (h.message before after hm c hc)
    · rintro ⟨f, hf, hmem⟩
      rcases List.mem_append.mp hmem with hmem | hmem
      · exact (h.fields f hf).1 hmem
      · exact (h.fields f hf).2 hmem
  · rintro ⟨⟨hchannel, hmessage⟩, hfields⟩
    refine ⟨?_, hchannel, ?_⟩
    · intro before after hm c hc
      by_contra hne
      exact hmessage ⟨before, after, hm, c, hc, hne⟩
    · intro f hf
      exact ⟨fun h => hfields ⟨f, hf, List.mem_append_left _ h⟩,
        fun h => hfields ⟨f, hf, List.mem_append_right _ h⟩⟩

/-! ### Records one behind the other -/

/-- The log has one line end for each record, and those inside of records. -/
theorem count_log : (log rs).count '\n' = (rs.map fun r => r.breaks + 1).sum := by
  have hcount : (List.count '\n' ∘ fun r : Record => r.written.toList) = fun r => r.breaks + 1 := by
    funext r
    rw [Function.comp_apply, written_eq, List.count_append, count_body]
    rfl
  rw [log, List.count_flatMap, hcount]

/-- The lines of the log are those of its records, one record behind the other. -/
theorem splitOn_log : (log rs).splitOn '\n' = rs.flatMap rows ++ [[]] := by
  have hlog : log rs = (rs.map body).flatMap (· ++ ['\n']) := by
    rw [log, List.flatMap_map]
    simp only [written_eq]
  rw [hlog, Text.splitOn_terminated, List.flatMap_map]
  rfl

/-- **Cut at its line ends, the log is its records exactly if each of them is a line.** -/
theorem splitOn_log_eq_iff : (log rs).splitOn '\n' = rs.map body ++ [[]] ↔ ∀ r ∈ rs, r.IsLine := by
  have hrows : rs.flatMap rows = (rs.map body).flatMap (·.splitOn '\n') := by
    rw [List.flatMap_map]
    rfl
  rw [splitOn_log, List.append_left_inj, hrows, Text.flatMap_splitOn_eq_iff, List.forall_mem_map]
  simp only [isLine_iff]

end Record

namespace Channel

/-- The record that is written of a line. -/
def record (c : Channel) (line : Line) : Record :=
  { time := line.time, level := .info, message := line.text, channel := some c.name }

end Channel

namespace Usage

open Record (log)

/-- The records of what was written and not lost. -/
def records (u : Usage) : List Record := u.taken.map fun w => u.channel.record w.line

/-- Each record ends a line, and the log is cut into its records where it has a line end,
exactly if each of them is a line. So it is with the lines appended to a channel, whoever
appends them. -/
theorem one_line_a_record {name : String} {maxLines : Int} {debug : Bool} {console : Console}
    {file : Option LogFile} {now : Time} {moves : List Move} {u : Usage}
    (h : (start (.make name maxLines debug console file) now).play? moves = some u) :
    -- Any records, whatever their fields.
    (∀ rs : List Record,
      (log rs).count '\n' = (rs.map fun r => r.breaks + 1).sum ∧
      (log rs).splitOn '\n' = rs.flatMap Record.rows ++ [[]] ∧
      ((log rs).splitOn '\n' = rs.map Record.body ++ [[]] ↔ ∀ r ∈ rs, r.IsLine)) ∧
    -- The records of what was appended to a channel.
    (consoleText u.outputs).toList = log u.records ∧
    ((consoleText u.outputs).toList.splitOn '\n' = u.records.map Record.body ++ [[]] ↔
      ∀ r ∈ u.records, r.IsLine) := by
  have hspoken : Spoken u := play?_preserves (fun _ hw hs => hw.step hs) h nofun
  have htext : (consoleText u.outputs).toList = log u.records := by
    rw [hspoken.consoleText, String.toList_join, log, records, List.flatMap_map, List.flatMap_map]
    rfl
  refine ⟨?_, htext, ?_⟩
  · intro rs
    exact ⟨Record.count_log, Record.splitOn_log, Record.splitOn_log_eq_iff⟩
  · rw [htext]
    exact Record.splitOn_log_eq_iff

/-- Two lines, one of which has line ends at its end. -/
theorem two_lines_two_records :
    ∃ u, (start (.make "c" 0 false .works none) ⟨0⟩).play? [.call "a\r\n\n", .enter 0, .leave,
        .write 0, .call "b", .enter 1, .leave, .write 1] = some u ∧
      (consoleText u.outputs).toList.splitOn '\n' = u.records.map Record.body ++ [[]] ∧
      u.records.length = 2 := by
  have hrun : ∃ u, (start (.make "c" 0 false .works none) ⟨0⟩).play? [.call "a\r\n\n", .enter 0,
        .leave, .write 0, .call "b", .enter 1, .leave, .write 1] = some u ∧
      u.records = [⟨⟨0⟩, .info, "a\r\n\n", some "c", []⟩, ⟨⟨0⟩, .info, "b", some "c", []⟩] :=
    ⟨_, rfl, rfl⟩
  obtain ⟨u, h, hrecords⟩ := hrun
  refine ⟨u, h, (one_line_a_record h).2.2.mpr ?_, by rw [hrecords]; rfl⟩
  intro r hr
  rw [hrecords] at hr
  rw [Record.isLine_iff]
  rcases List.mem_cons.mp hr with rfl | hr
  · decide +kernel
  · rw [List.mem_singleton.mp hr]
    decide +kernel

/-- A line with a line end inside is written as two records, the second of which was never
appended: another channel, to which both were appended, has written the same text. -/
theorem forged_record :
    ∃ u v, (start (.make "c" 0 false .works none) ⟨0⟩).play?
        [.call "a\n[1970-01-01 00:00:00] [info ] [c] b", .enter 0, .leave, .write 0] = some u ∧
      (start (.make "c" 0 false .works none) ⟨0⟩).play? [.call "a", .enter 0, .leave, .write 0,
        .call "b", .enter 1, .leave, .write 1] = some v ∧
      u.taken.length = 1 ∧ v.taken.length = 2 ∧
      consoleText u.outputs = consoleText v.outputs ∧
      (consoleText u.outputs).toList.count '\n' = 2 := by
  refine ⟨_, _, rfl, rfl, rfl, rfl, ?_, ?_⟩
  · decide +kernel
  · decide +kernel

end Usage

end LanguageClient.Log
