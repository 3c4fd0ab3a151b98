import LanguageClient.Proofs.Text.Separator
import LanguageClient.Supervisor.Protocol

/-! # The lines of an error output.

The error output of a server is a stream of octets that arrives in pieces, cut anywhere. What
is logged of it depends on the stream alone:

* `Lined stream lines tail`   — a stream as lines and what stands behind the last line feed;
* `ErrorOutput.complete_eq`   — one reading of what has arrived, line by line;
* `Reads stream o said`       — where the reader stands behind a stream, and what it has said;
* `Reads.receive`, `.finish`  — one more piece, and the end of the stream.

A line that is too long ends the reading, so that the lines in front of the first such line
are what there is to log. -/

namespace LanguageClient.Supervisor

/-! ### Streams as lines -/

/-- A stream as lines, each with a line feed behind it, and a tail without one. -/
structure Lined (stream : Bytes) (lines : List Bytes) (tail : Bytes) : Prop where
  stream_eq : stream = lines.flatMap (· ++ [0x0A]) ++ tail
  line_free : ∀ line ∈ lines, 0x0A ∉ line
  tail_free : 0x0A ∉ tail

variable {stream tail tail' piece : Bytes} {lines lines' : List Bytes}

theorem lined_nil : Lined [] [] [] := ⟨rfl, by simp, by simp⟩

/-- What stands behind the first line is a stream of its own. -/
theorem Lined.rest {line : Bytes} (h : Lined stream (line :: lines) tail) :
    ∃ rest, stream = line ++ 0x0A :: rest ∧ 0x0A ∉ line ∧ Lined rest lines tail := by
  obtain ⟨hline, hlines⟩ := List.forall_mem_cons.mp h.line_free
  refine ⟨lines.flatMap (· ++ [0x0A]) ++ tail, ?_, hline, rfl, hlines, h.tail_free⟩
  simpa using h.stream_eq

theorem Lined.cons {line : Bytes} (hline : 0x0A ∉ line) (h : Lined stream lines tail) :
    Lined (line ++ 0x0A :: stream) (line :: lines) tail where
  stream_eq := by simp [h.stream_eq]
  line_free := List.forall_mem_cons.mpr ⟨hline, h.line_free⟩
  tail_free := h.tail_free

/-- A line ends at the first line feed. -/
theorem line_unique {line line' rest rest' : Bytes} (h : 0x0A ∉ line) (h' : 0x0A ∉ line')
    (hsame : line ++ 0x0A :: rest = line' ++ 0x0A :: rest') : line = line' ∧ rest = rest' := by
  have hline : line = line' := by
    rw [← Text.takeWhile_sep h rest, hsame, Text.takeWhile_sep h' rest']
  subst hline
  exact ⟨rfl, (List.cons.inj (List.append_cancel_left hsame)).2⟩

/-- **Every stream is lines and a tail.** -/
theorem exists_lined (stream : Bytes) : ∃ lines tail, Lined stream lines tail := by
  induction stream with
  | nil => exact ⟨[], [], lined_nil⟩
  | cons b stream ih =>
      obtain ⟨lines, tail, h⟩ := ih
      by_cases hb : b = 0x0A
      · subst hb
        have hempty : 0x0A ∉ ([] : Bytes) := List.not_mem_nil
        exact ⟨[] :: lines, tail, Lined.cons hempty h⟩
      · have hfree {line : Bytes} (hline : 0x0A ∉ line) : 0x0A ∉ b :: line := by
          intro hmem
          rcases List.mem_cons.mp hmem with he | hmem
          · exact hb he.symm
          · exact hline hmem
        -- the octet stands in front of the first line, or of the tail if there is none
        cases lines with
        | nil =>
            refine ⟨[], b :: tail, ?_, by simp, hfree h.tail_free⟩
            simp [h.stream_eq]
        | cons line lines =>
            obtain ⟨rest, rfl, hline, hrest⟩ := h.rest
            exact ⟨(b :: line) :: lines, tail, Lined.cons (hfree hline) hrest⟩

/-- **In one way only.** -/
theorem Lined.unique (h : Lined stream lines tail) (h' : Lined stream lines' tail') :
    lines = lines' ∧ tail = tail' := by
  induction lines generalizing stream lines' with
  | nil =>
      -- The lines are compared from the front; the first line feeds have to coincide.
      cases lines' with
      | nil =>
          have htail : tail = tail' := h.stream_eq.symm.trans h'.stream_eq
          exact ⟨rfl, htail⟩
      | cons line lines' =>
          obtain ⟨rest, hstream, -⟩ := h'.rest
          have htail : tail = line ++ 0x0A :: rest := h.stream_eq.symm.trans hstream
          exact absurd (htail ▸ by simp) h.tail_free
  | cons line lines ih =>
      obtain ⟨rest, hstream, hline, hrest⟩ := h.rest
      cases lines' with
      | nil =>
          have htail : tail' = line ++ 0x0A :: rest := h'.stream_eq.symm.trans hstream
          exact absurd (htail ▸ by simp) h'.tail_free
      | cons line' lines' =>
          obtain ⟨rest', hstream', hline', hrest'⟩ := h'.rest
          have hsame : line ++ 0x0A :: rest = line' ++ 0x0A :: rest' := hstream.symm.trans hstream'
          obtain ⟨rfl, rfl⟩ := line_unique hline hline' hsame
          obtain ⟨rfl, htail⟩ := ih hrest hrest'
          exact ⟨rfl, htail⟩

/-- One more piece of a stream goes on where the tail ends. -/
theorem Lined.append (h : Lined stream lines tail) (hmore : Lined (tail ++ piece) lines' tail') :
    Lined (stream ++ piece) (lines ++ lines') tail' where
  stream_eq := by
    rw [h.stream_eq, List.append_assoc, hmore.stream_eq, List.flatMap_append, List.append_assoc]
  line_free := List.forall_mem_append.mpr ⟨h.line_free, hmore.line_free⟩
  tail_free := hmore.tail_free

/-- What comes next begins with the tail. -/
theorem Lined.exists_longer (htail : 0x0A ∉ tail) (h : Lined (tail ++ piece) lines tail') :
    ∃ more rest, lines ++ [tail'] = (tail ++ more) :: rest := by
  cases lines with
  | nil =>
      refine ⟨piece, [], ?_⟩
      rw [h.stream_eq]
      rfl
  | cons line lines =>
      obtain ⟨rest, hstream, -⟩ := h.rest
      rcases List.append_eq_append_iff.mp hstream with ⟨more, rfl, -⟩ | ⟨more, rfl, hrest⟩
      · exact ⟨more, lines ++ [tail'], rfl⟩
      · cases more with
        | nil => exact ⟨[], lines ++ [tail'], by simp⟩
        | cons b more =>
            have hb : b = 0x0A := (List.cons.inj hrest).1.symm
            exact absurd (by simp [hb]) htail

/-! ### What is logged of lines -/

/-- Whether a line is read, and not too long for that. -/
def isShort (line : Bytes) : Bool := line.length < maxErrorLine

/-- What is logged of lines: those in front of the first one that is too long. -/
def loggedLines (lines : List Bytes) : List Report := (lines.takeWhile isShort).map errorLine

/-- Lines are logged up to the first one that is too long. -/
theorem loggedLines_append_of_short (h : lines.all isShort = true) (more : List Bytes) :
    loggedLines (lines ++ more) = lines.map errorLine ++ loggedLines more := by
  rw [loggedLines, List.takeWhile_append_of_pos (List.all_eq_true.mp h), List.map_append, loggedLines]

/-- All lines are logged if none is too long. -/
theorem loggedLines_of_short (h : lines.all isShort = true) :
    loggedLines lines = lines.map errorLine := by
  simpa [loggedLines] using loggedLines_append_of_short h []

/-- Nothing is logged behind a line that is too long. -/
theorem loggedLines_append_of_long (h : lines.all isShort = false) (more : List Bytes) :
    loggedLines (lines ++ more) = loggedLines lines := by
  induction lines with
  | nil => cases h
  | cons line lines ih =>
      simp only [loggedLines, List.cons_append, List.takeWhile_cons]
      split
      · next hline =>
          rw [List.all_cons, hline, Bool.true_and] at h
          exact congrArg (errorLine line :: ·) (ih h)
      · rfl

/-- What is logged of the first lines is logged first. -/
theorem loggedLines_isPrefixOf (lines more : List Bytes) : loggedLines lines <+: loggedLines (lines ++ more) := by
  cases h : lines.all isShort with
  | false =>
      exact ⟨[], (List.append_nil _).trans (loggedLines_append_of_long h more).symm⟩
  | true =>
      rw [loggedLines_append_of_short h, loggedLines_of_short h]
      exact List.prefix_append _ _

/-! ### Reading what has arrived -/

/-- Where a reader stands behind lines and a tail: it keeps the tail, or has given up. -/
def standing (lines : List Bytes) (tail : Bytes) : ErrorOutput :=
  if (lines ++ [tail]).all isShort then { pending := tail } else { closed := true }

/-- **One reading of what has arrived.** -/
theorem ErrorOutput.complete_eq {fuel : Nat} (h : Lined stream lines tail) (hfuel : stream.length < fuel) :
    complete fuel { pending := stream } = (standing lines tail, loggedLines lines) := by
  induction lines generalizing stream fuel with
  | nil =>
      obtain rfl : stream = tail := h.stream_eq
      obtain ⟨fuel, rfl⟩ := Nat.exists_eq_succ_of_ne_zero (Nat.ne_zero_of_lt hfuel)
      simp only [complete, Text.takeWhile_notMem h.tail_free, List.drop_length]
      split
      · next hlong => simp [standing, loggedLines, isShort, Nat.not_lt.mpr hlong]
      · next hshort => simp [standing, loggedLines, isShort, Nat.lt_of_not_le hshort]
  | cons line lines ih =>
      obtain ⟨rest, rfl, hline, hrest⟩ := h.rest
      obtain ⟨fuel, rfl⟩ := Nat.exists_eq_succ_of_ne_zero (Nat.ne_zero_of_lt hfuel)
      have hfuel : rest.length < fuel := by
        simp only [List.length_append, List.length_cons] at hfuel
        omega
      simp only [complete, Text.takeWhile_sep hline rest, List.drop_left, ih hrest hfuel]
      split
      · next hlong => simp [standing, loggedLines, isShort, Nat.not_lt.mpr hlong]
      · next hshort => simp [standing, loggedLines, isShort, Nat.lt_of_not_le hshort]

/-- Only lines of the error output are logged. -/
theorem ErrorOutput.eq_errorLine_of_mem_complete {fuel : Nat} {o : ErrorOutput} {r : Report}
    (h : r ∈ (complete fuel o).2) : ∃ line, r = errorLine line := by
  induction fuel generalizing o with
  | zero => cases h
  | succ fuel ih =>
      simp only [complete] at h
      split at h
      · cases h
      · split at h
        · cases h
        · rcases List.mem_cons.mp h with rfl | h
          · exact ⟨_, rfl⟩
          · exact ih h

/-- Whatever is logged when octets arrive is a line of error output. -/
theorem ErrorOutput.eq_errorLine_of_mem_receive {bytes : Bytes} {o : ErrorOutput} {r : Report}
    (h : r ∈ (o.receive bytes).2) : ∃ line, r = errorLine line := by
  simp only [receive] at h
  split at h
  · cases h
  · exact eq_errorLine_of_mem_complete h

theorem ErrorOutput.eq_errorLine_of_mem_finish {o : ErrorOutput} {r : Report} (h : r ∈ o.finish.2) :
    ∃ line, r = errorLine line := by
  simp only [finish] at h
  split at h
  · cases h
  · exact ⟨_, List.mem_singleton.mp h⟩

/-! ### Piece by piece -/

/-- Where the reader stands behind a stream, and what it has said. -/
def Reads (stream : Bytes) (o : ErrorOutput) (said : List Report) : Prop :=
  ∃ lines tail, Lined stream lines tail ∧ o = standing lines tail ∧ said = loggedLines lines

theorem reads_nil : Reads [] {} [] := ⟨[], [], lined_nil, rfl, rfl⟩

/-- A tail that is too long is the beginning of a line, or of a tail, that is too long. -/
theorem Lined.long (h : Lined (tail ++ piece) lines tail') (htail : 0x0A ∉ tail)
    (hlong : isShort tail = false) : (lines ++ [tail']).all isShort = false ∧ loggedLines lines = [] := by
  obtain ⟨more, rest, hnext⟩ := h.exists_longer htail
  have hlonger : isShort (tail ++ more) = false := by
    simp only [isShort, List.length_append, decide_eq_false_iff_not] at hlong ⊢
    omega
  refine ⟨?_, ?_⟩
  · rw [hnext, List.all_cons, hlonger]
    rfl
  · cases lines with
    | nil => rfl
    | cons line lines =>
        obtain ⟨rfl, -⟩ := List.cons.inj hnext
        rw [loggedLines, List.takeWhile_cons, hlonger]
        rfl

/-- **One more piece**, however the stream is cut. -/
theorem Reads.receive {o : ErrorOutput} {said : List Report} (h : Reads stream o said) (piece : Bytes) :
    Reads (stream ++ piece) (o.receive piece).1 (said ++ (o.receive piece).2) := by
  obtain ⟨lines, tail, hlined, rfl, rfl⟩ := h
  obtain ⟨lines', tail', hmore⟩ := exists_lined (tail ++ piece)
  refine ⟨lines ++ lines', tail', hlined.append hmore, ?_⟩
  cases hlines : lines.all isShort with
  | false =>
      -- the reader gave up on a line
      have hread : (standing lines tail).receive piece = ({ closed := true }, []) := by
        simp [standing, hlines, ErrorOutput.receive]
      rw [hread, loggedLines_append_of_long hlines]
      exact ⟨by simp [standing, hlines], List.append_nil _⟩
  | true =>
      rw [loggedLines_append_of_short hlines, loggedLines_of_short hlines]
      cases htail : isShort tail with
      | false =>
          -- it gave up on the tail
          obtain ⟨hlong, hnone⟩ := hmore.long hlined.tail_free htail
          have hread : (standing lines tail).receive piece = ({ closed := true }, []) := by
            simp [standing, htail, ErrorOutput.receive]
          rw [hread, hnone]
          refine ⟨?_, rfl⟩
          rw [standing, List.append_assoc, List.all_append, hlong, Bool.and_false]
          rfl
      | true =>
          have hread : (standing lines tail).receive piece = (standing lines' tail', loggedLines lines') := by
            have hkept : standing lines tail = { pending := tail } := by simp [standing, hlines, htail]
            have hfuel : (tail ++ piece).length < tail.length + piece.length + 1 := by simp
            rw [hkept]
            exact ErrorOutput.complete_eq hmore hfuel
          rw [hread]
          exact ⟨by simp [standing, hlines], rfl⟩

/-- The last line of a stream is its tail, unless there is nothing behind the last line feed. -/
def lastLine (tail : Bytes) : List Bytes := if tail = [] then [] else [tail]

/-- A tail that was kept is logged when the stream ends. -/
theorem finish_pending (tail : Bytes) :
    ({ pending := tail } : ErrorOutput).finish.2 = (lastLine tail).map errorLine := by
  cases tail <;> rfl

theorem all_lastLine (h : isShort tail = true) : (lastLine tail).all isShort = true := by
  unfold lastLine
  split
  · rfl
  · simpa using h

/-- **The stream ends.** -/
theorem Reads.finish {o : ErrorOutput} {said : List Report} (h : Reads stream o said) :
    ∃ lines tail, Lined stream lines tail ∧
      said ++ o.finish.2 = loggedLines (lines ++ lastLine tail) := by
  obtain ⟨lines, tail, hlined, rfl, rfl⟩ := h
  refine ⟨lines, tail, hlined, ?_⟩
  cases hlines : lines.all isShort with
  | false =>
      rw [loggedLines_append_of_long hlines]
      simp [standing, hlines, ErrorOutput.finish]
  | true =>
      rw [loggedLines_append_of_short hlines, loggedLines_of_short hlines]
      apply congrArg (lines.map errorLine ++ ·)
      cases htail : isShort tail with
      | false =>
          -- it is not empty, since nothing is too long about an empty tail
          have hempty : tail ≠ [] := by
            rintro rfl
            cases htail
          simp [standing, htail, ErrorOutput.finish, lastLine, hempty, loggedLines]
      | true =>
          have hkept : standing lines tail = { pending := tail } := by simp [standing, hlines, htail]
          rw [hkept, finish_pending, loggedLines_of_short (all_lastLine htail)]

end LanguageClient.Supervisor
