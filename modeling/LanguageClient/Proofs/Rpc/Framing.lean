import LanguageClient.Proofs.Number.Decimal
import LanguageClient.Proofs.Text.Separator
import LanguageClient.Proofs.Text.Space
import LanguageClient.Proofs.Text.Utf8
import LanguageClient.Rpc.Frame

/-! # Reading undoes writing, over whole streams.

A written frame is a line that gives the length, an empty line, and the body.
`read_header_append` reads the two lines whatever stands behind them, and so
`read_encode_append` takes exactly one frame off a stream: nothing in a body is
ever taken for a header. `readMany_written` says the same of many frames in a
row. Every read of a stream that is not empty consumes something (`length_read`). -/

namespace LanguageClient.Frame

/-! ### Lines -/

/-- The first line ends at the first line feed. -/
theorem splitLine_append {line : Bytes} (h : (0x0A : UInt8) ∉ line) (rest : Bytes) :
    splitLine (line ++ 0x0A :: rest) = some (line, rest) := by
  simp only [splitLine, Text.dropWhile_sep h, Text.takeWhile_sep h]

theorem trimSymbols_map (cs : List Char) :
    trimSymbols (cs.map .char) = (Text.trimBoth Text.isBlank cs).map .char :=
  Text.trimBoth_map Symbol.char cs

theorem chars?_map (cs : List Char) : chars? (cs.map .char) = some cs := by
  induction cs with
  | nil => rfl
  | cons c cs ih =>
      rw [List.map_cons, chars?, ih]
      rfl

/-- A line is cut at its first colon: the name of the length header stands before
it, and the length behind it. -/
theorem readLine_of_colon {line : Bytes} {name value : List Symbol} {n : Int}
    (htext : trimSymbols (Utf8.symbols line) = name ++ .char ':' :: value)
    (hname : .char ':' ∉ name) (hlength : isLengthName name = true)
    (hvalue : lengthValue? value = some n) : readLine line = .length n := by
  have hne : (name ++ .char ':' :: value).isEmpty = false := by
    rw [List.isEmpty_eq_false_iff]
    exact List.append_ne_nil_of_right_ne_nil name (List.cons_ne_nil _ _)
  simp only [readLine, htext, hne, Text.dropWhile_sep hname, Text.takeWhile_sep hname, hlength, hvalue,
    Bool.false_eq_true, if_false, if_true]

/-! ### The header -/

/-- What stands before the number in the line that gives a length. -/
def lengthLabel : List Char := (lengthName ++ ": ").toList

theorem lengthLabel_eq : lengthLabel = lengthName.toList ++ [':', ' '] := by decide

/-- A line that gives a length, up to its line feed. -/
def lengthLine (n : Nat) : List Char := lengthLabel ++ Number.natText n ++ ['\r']

/-- The header is the line that gives the length, and an empty line. -/
theorem header_eq (body : Bytes) :
    header body = Utf8.encode (lengthLine body.length) ++ 0x0A :: (Utf8.encode ['\r'] ++ [0x0A]) := by
  have hreturn : Utf8.encode ['\r'] = [0x0D] := by decide
  simp only [header, utf8, lengthLine, lengthLabel, String.toList_ofList, Utf8.encode,
    List.flatMap_append, List.append_assoc] at hreturn ⊢
  rw [hreturn]
  rfl

theorem lineFeed_not_mem_lengthLine (n : Nat) : '\n' ∉ lengthLine n := by
  intro hm
  rcases List.mem_append.mp hm with hm | hm
  · rcases List.mem_append.mp hm with hm | hm
    · exact absurd hm (by decide)
    · exact absurd (Number.isDigit_of_mem_natText hm) (by decide)
  · exact absurd hm (by decide)

theorem isBlank_of_mem_singleton {c d : Char} (hd : Text.isBlank d = true) (h : c ∈ [d]) :
    Text.isBlank c = true := by
  rw [List.mem_singleton.mp h, hd]

theorem isBlank_of_mem_natText {n : Nat} {c : Char} (h : c ∈ Number.natText n) :
    Text.isBlank c = false :=
  Text.isBlank_of_isDigit (Number.isDigit_of_mem_natText h)

/-- The value of the line is its number, once the blank before it is off. -/
theorem lengthValue?_natText {n : Nat} (h : (n : Int) ≤ Number.int64Max) :
    lengthValue? ((' ' :: Number.natText n).map .char) = some (n : Int) := by
  have htrim : Text.trimBoth Text.isBlank ([' '] ++ Number.natText n ++ []) = Number.natText n := by
    refine Text.trimBoth_append (fun _ => isBlank_of_mem_singleton rfl) (by simp) ?_ ?_
    · intro c hc
      exact isBlank_of_mem_natText (List.mem_of_head? hc)
    · intro c hc
      exact isBlank_of_mem_natText (List.mem_of_getLast? hc)
  rw [List.append_nil, List.singleton_append] at htrim
  have hpos : ¬ (n : Int) < 0 := by omega
  simp only [lengthValue?, trimSymbols_map, htrim, chars?_map, Option.bind_some,
    Number.int64?_natText h, hpos, if_false]

/-- Trimming the line takes off its carriage return. -/
theorem trimBoth_lengthLine (n : Nat) :
    Text.trimBoth Text.isBlank (lengthLine n) =
      lengthName.toList ++ ':' :: ' ' :: Number.natText n := by
  have htrim : Text.trimBoth Text.isBlank ([] ++ (lengthLabel ++ Number.natText n) ++ ['\r']) =
      lengthLabel ++ Number.natText n := by
    refine Text.trimBoth_append (by simp) (fun _ => isBlank_of_mem_singleton rfl) ?_ ?_
    · intro c hc
      cases hc
      decide
    · intro c hc
      have hne := Number.natText_ne_nil n
      rw [List.getLast?_append, List.getLast?_eq_some_getLast hne, Option.some_or] at hc
      cases hc
      exact isBlank_of_mem_natText (List.getLast_mem hne)
  rw [List.nil_append] at htrim
  rw [lengthLine, htrim, lengthLabel_eq, List.append_assoc]
  rfl

theorem trimSymbols_lengthLine (n : Nat) : trimSymbols (Utf8.symbols (Utf8.encode (lengthLine n))) =
    lengthName.toList.map .char ++ .char ':' :: (' ' :: Number.natText n).map .char := by
  rw [Utf8.symbols_encode, trimSymbols_map, trimBoth_lengthLine, List.map_append, List.map_cons]

/-- The line that gives a length is read as that length. -/
theorem readLine_lengthLine {n : Nat} (h : (n : Int) ≤ Number.int64Max) :
    readLine (Utf8.encode (lengthLine n)) = .length n :=
  readLine_of_colon (trimSymbols_lengthLine n) (by decide) (by decide) (lengthValue?_natText h)

theorem readLine_return : readLine (Utf8.encode ['\r']) = .blank := by decide

/-! ### Frames -/

/-- The header is taken off a stream whatever stands behind it; what is left is
to read a body of that length. -/
theorem read_header_append {body : Bytes} (h : (body.length : Int) ≤ Number.int64Max)
    (stream : Bytes) : read (header body ++ stream) = readBody body.length stream := by
  have hfirst := Utf8.lineFeed_not_mem_encode (lineFeed_not_mem_lengthLine body.length)
  have hsecond : (0x0A : UInt8) ∉ Utf8.encode ['\r'] := by decide
  rw [header_eq, List.append_assoc, List.cons_append, List.append_assoc, List.singleton_append]
  -- Each of the two lines takes a round, and the stream is long enough for both.
  obtain ⟨fuel, hfuel⟩ : ∃ fuel, (Utf8.encode (lengthLine body.length) ++
      0x0A :: (Utf8.encode ['\r'] ++ 0x0A :: stream)).length + 1 = fuel + 2 := by
    refine ⟨_, (Nat.sub_add_cancel ?_).symm⟩
    simp only [List.length_append, List.length_cons]
    omega
  rw [read, hfuel]
  simp only [readHeaders, splitLine_append hfirst, splitLine_append hsecond, readLine_lengthLine h,
    readLine_return]

/-- A body of the announced length is read, and the rest left in the stream. -/
theorem readBody_append {body : Bytes} (hne : body ≠ []) (hsize : body.length ≤ maxSize)
    (rest : Bytes) : readBody body.length (body ++ rest) = ⟨.ok body, rest⟩ := by
  have hpos : ¬ (body.length : Int) ≤ 0 := by
    have := List.length_pos_iff.mpr hne
    omega
  have hlimit : ¬ (maxSize : Int) < body.length := by omega
  simp only [readBody, hpos, hlimit, if_false, Int.toNat_natCast, List.take_left, if_true,
    List.drop_left]

theorem length_le_int64Max {body : Bytes} (h : body.length ≤ maxSize) :
    (body.length : Int) ≤ Number.int64Max := by
  have hmax : (maxSize : Int) ≤ Number.int64Max := by decide
  omega

/-- What reading gives for the frame of a body: an empty one counts as missing. -/
def received (body : Bytes) : Except ReadError Bytes :=
  if body.isEmpty then .error .missingLength else .ok body

/-- **Reading takes exactly one written frame off a stream.** -/
theorem read_encode_append {body : Bytes} (h : body.length ≤ maxSize) (rest : Bytes) :
    read (encode body ++ rest) = ⟨received body, rest⟩ := by
  rw [encode, List.append_assoc, read_header_append (length_le_int64Max h)]
  by_cases hne : body = []
  · subst hne
    rfl
  · rw [readBody_append hne h, received, if_neg (by simpa using hne)]

/-- What reading some frames in a row gives, and the stream behind them. -/
def readMany : Nat → Bytes → List (Except ReadError Bytes) × Bytes
  | 0, stream => ([], stream)
  | n + 1, stream =>
    let r := read stream
    let (outcomes, rest) := readMany n r.rest
    (r.outcome :: outcomes, rest)

/-- A writer that takes every write gets the whole frame. -/
theorem write_written (body : Bytes) : (write {} body).written = encode body := rfl

/-- **Reading undoes writing, over whole streams.** Whatever the bodies hold and
whatever follows their frames, reading as many frames as were written gives the
bodies in order, with an error for each empty one, and leaves what follows. -/
theorem readMany_written {bodies : List Bytes} (h : ∀ body ∈ bodies, body.length ≤ maxSize)
    (rest : Bytes) :
    readMany bodies.length ((bodies.flatMap fun body => (write {} body).written) ++ rest) =
      (bodies.map received, rest) := by
  induction bodies with
  | nil => rfl
  | cons body bodies ih =>
      have hrest := ih fun b hb => h b (List.mem_cons_of_mem body hb)
      have hread := read_encode_append (h body List.mem_cons_self)
        ((bodies.flatMap fun body => (write {} body).written) ++ rest)
      rw [List.flatMap_cons, List.append_assoc, write_written]
      simp only [List.length_cons, readMany, hread, hrest, List.map_cons]

def encodeAll (bodies : List Bytes) : Bytes := bodies.flatMap encode

@[simp] theorem encodeAll_nil : encodeAll [] = [] := rfl

@[simp] theorem encodeAll_cons (body : Bytes) (bodies : List Bytes) :
    encodeAll (body :: bodies) = encode body ++ encodeAll bodies :=
  List.flatMap_cons

@[simp] theorem encodeAll_append (before after : List Bytes) :
    encodeAll (before ++ after) = encodeAll before ++ encodeAll after :=
  List.flatMap_append

/-- Bodies that are not empty are received as they are. -/
theorem map_received {bodies : List Bytes} (h : ∀ body ∈ bodies, body ≠ []) :
    bodies.map received = bodies.map .ok := by
  apply List.map_congr_left
  intro body hbody
  rw [received, if_neg (by simpa using h body hbody)]

/-- Whole frames are read one by one, and what stands behind them after that. -/
theorem readMany_encodeAll {bodies : List Bytes} (h : ∀ body ∈ bodies, body.length ≤ maxSize)
    (n : Nat) (rest : Bytes) :
    readMany (bodies.length + n) (encodeAll bodies ++ rest) =
      (bodies.map received ++ (readMany n rest).1, (readMany n rest).2) := by
  induction bodies with
  | nil =>
      rw [List.length_nil, Nat.zero_add]
      rfl
  | cons body bodies ih =>
      obtain ⟨hbody, hbodies⟩ := List.forall_mem_cons.mp h
      rw [List.length_cons, Nat.add_right_comm, encodeAll_cons, List.append_assoc]
      simp only [readMany, read_encode_append hbody, ih hbodies, List.map_cons, List.cons_append]

/-- An empty body, and one that looks like a frame itself. -/
theorem readMany_nested :
    readMany 2 ((write {} []).written ++ (write {} (encode [0x3A])).written ++ [0x0A]) =
      ([.error .missingLength, .ok (encode [0x3A])], [0x0A]) := by
  have h : ∀ body ∈ [[], encode [0x3A]], body.length ≤ maxSize := by decide
  exact readMany_written h [0x0A]

/-! ### Progress -/

theorem length_splitLine {stream line rest : Bytes} (h : splitLine stream = some (line, rest)) :
    rest.length < stream.length := by
  unfold splitLine at h
  split at h
  · cases h
  · next b rest' hdrop =>
      cases h
      have hle := (List.dropWhile_suffix (l := stream) (· != 0x0A)).length_le
      rw [hdrop] at hle
      exact hle

theorem length_readBody (length : Int) (stream : Bytes) :
    (readBody length stream).rest.length ≤ stream.length := by
  unfold readBody
  simp only
  repeat' split
  all_goals simp

/-- Reading headers takes at least one octet. -/
theorem length_readHeaders {fuel : Nat} {length : Int} {stream : Bytes} (h : stream ≠ []) :
    (readHeaders fuel length stream).rest.length < stream.length := by
  have hpos := List.length_pos_iff.mpr h
  induction fuel generalizing length stream with
  | zero => exact hpos
  | succ fuel ih =>
      unfold readHeaders
      split
      · exact hpos
      · next line rest hline =>
          have hrest := length_splitLine hline
          -- What comes behind the line may be nothing.
          have hgo : ∀ n, (readHeaders fuel n rest).rest.length ≤ rest.length := by
            intro n
            cases rest with
            | nil => cases fuel <;> simp [readHeaders, splitLine]
            | cons b bs => exact Nat.le_of_lt (ih (List.cons_ne_nil b bs) (by simp))
          split
          · exact Nat.lt_of_le_of_lt (length_readBody length rest) hrest
          · exact Nat.lt_of_le_of_lt (hgo _) hrest
          · exact Nat.lt_of_le_of_lt (hgo _) hrest
          · exact hrest

/-- A read of a stream that is not empty consumes something. -/
theorem length_read {stream : Bytes} (h : stream ≠ []) :
    (read stream).rest.length < stream.length :=
  length_readHeaders h

end LanguageClient.Frame
