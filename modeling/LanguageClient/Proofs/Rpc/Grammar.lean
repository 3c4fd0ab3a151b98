import LanguageClient.Proofs.Rpc.HeaderBlock
import LanguageClient.Proofs.Text.Case

/-! # Frames are read by a grammar.

Which streams start with a frame is said here without a reader. `Headers` says which
lines can stand in front of a body, `LastLength` which of them counts, and `Framed`
that a stream splits into such lines, a blank line, a body of that length and a rest.

Reading takes a body off a stream exactly if the stream splits so (`read_eq_ok_iff`),
a stream splits in one way only (`Framed.unique`), and a line that announces no length
can be put in or left out (`read_insert`). The three together are `read_exactly_framed`. -/

namespace LanguageClient.Frame

/-! ### The grammar -/

/-- Lines as they stand in a stream, each with a line feed at its end. -/
def joined (lines : List Bytes) : Bytes := lines.flatMap (· ++ [0x0A])

/-- A name is that of the length header, in letters of either case and with blanks around it. -/
def NamesLength (name : List Symbol) : Prop :=
  ∃ cs : List Char, trimSymbols name = cs.map .char ∧
    cs.map Char.toLower = lengthName.toList.map Char.toLower

/-- A line has the name of the length header before its first colon, and a value behind it. -/
def Announces (line : Bytes) (value : List Symbol) : Prop :=
  ∃ name, lineText line = name ++ .char ':' :: value ∧ .char ':' ∉ name ∧ NamesLength name

/-- A value is a decimal number, with blanks around it. -/
def Denotes (value : List Symbol) (n : Nat) : Prop :=
  ∃ cs : List Char, trimSymbols value = cs.map .char ∧ Number.int64? cs = some (n : Int)

/-- Lines can stand in front of a body, with a blank line behind them: none goes on
behind a line feed, none is blank itself, and a length that is announced is a number. -/
structure Headers (lines : List Bytes) (blank : Bytes) : Prop where
  ended : ∀ line ∈ lines, (0x0A : UInt8) ∉ line
  full : ∀ line ∈ lines, lineText line ≠ []
  numbers : ∀ line ∈ lines, ∀ value, Announces line value → ∃ n, Denotes value n
  blankEnded : (0x0A : UInt8) ∉ blank
  empty : lineText blank = []

/-- No line announces a length. -/
def Silent (lines : List Bytes) : Prop := ∀ line ∈ lines, ∀ value, ¬ Announces line value

/-- The last length that lines announce. -/
def LastLength (lines : List Bytes) (n : Nat) : Prop :=
  ∃ before line value after,
    lines = before ++ line :: after ∧ Announces line value ∧ Denotes value n ∧ Silent after

/-- A stream splits into header lines, a blank line, a body and a rest. -/
structure Framed (stream : Bytes) (lines : List Bytes) (blank body rest : Bytes) : Prop where
  split : stream = joined lines ++ (blank ++ 0x0A :: (body ++ rest))
  headers : Headers lines blank
  length : LastLength lines body.length
  size : 1 ≤ body.length ∧ body.length ≤ maxSize

@[simp] theorem joined_nil : joined [] = [] := rfl

@[simp] theorem joined_cons (line : Bytes) (lines : List Bytes) :
    joined (line :: lines) = line ++ 0x0A :: joined lines := by
  simp [joined]

theorem Headers.tail {line : Bytes} {lines : List Bytes} {blank : Bytes}
    (h : Headers (line :: lines) blank) : Headers lines blank where
  ended l hl := h.ended l (List.mem_cons_of_mem line hl)
  full l hl := h.full l (List.mem_cons_of_mem line hl)
  numbers l hl := h.numbers l (List.mem_cons_of_mem line hl)
  blankEnded := h.blankEnded
  empty := h.empty

theorem Silent.tail {line : Bytes} {lines : List Bytes} (h : Silent (line :: lines)) :
    Silent lines :=
  fun l hl => h l (List.mem_cons_of_mem line hl)

/-! ### Names and numbers -/

theorem chars?_eq_some {l : List Symbol} {cs : List Char} :
    chars? l = some cs ↔ l = cs.map .char := by
  constructor
  · intro h
    induction l generalizing cs with
    | nil =>
        cases h
        rfl
    | cons s l ih =>
        cases s with
        | stray b => cases h
        | char c =>
            obtain ⟨cs', hcs', rfl⟩ := Option.map_eq_some_iff.mp h
            rw [ih hcs', List.map_cons]
  · rintro rfl
    exact chars?_map cs

theorem plain_lengthName : Text.Plain lengthName.toList := by decide

/-- The name of the header is recognised in any case of letters. -/
theorem isLengthName_iff (name : List Symbol) : isLengthName name = true ↔ NamesLength name := by
  unfold isLengthName NamesLength
  cases hchars : chars? (trimSymbols name) with
  | none =>
      refine ⟨nofun, ?_⟩
      rintro ⟨cs, htrim, -⟩
      rw [htrim, chars?_map] at hchars
      cases hchars
  | some cs =>
      have htrim := chars?_eq_some.mp hchars
      simp only [Text.sameName_iff plain_lengthName]
      refine ⟨fun h => ⟨cs, htrim, h⟩, ?_⟩
      rintro ⟨cs', htrim', h⟩
      rw [htrim', chars?_map] at hchars
      cases hchars
      exact h

theorem givesLength_iff {line : Bytes} {value : List Symbol} :
    GivesLength line value ↔ Announces line value := by
  simp only [GivesLength, Announces, isLengthName_iff]

/-- The value of a line is what stands behind its first colon. -/
theorem Announces.unique {line : Bytes} {value value' : List Symbol} (h : Announces line value)
    (h' : Announces line value') : value = value' := by
  obtain ⟨name, htext, hname, -⟩ := h
  obtain ⟨name', htext', hname', -⟩ := h'
  exact (eq_of_cut hname hname' (htext.symm.trans htext')).2

/-- A header value is read as the number it denotes. -/
theorem lengthValue?_eq_some {value : List Symbol} {k : Int} :
    lengthValue? value = some k ↔ ∃ n : Nat, k = n ∧ Denotes value n := by
  unfold lengthValue? Denotes
  constructor
  · intro h
    split at h
    · next n hn =>
        obtain ⟨cs, hcs, hn⟩ := Option.bind_eq_some_iff.mp hn
        split at h
        · cases h
        · next hpos =>
            cases h
            have hk : ((k.toNat : Nat) : Int) = k := Int.toNat_of_nonneg (Int.not_lt.mp hpos)
            exact ⟨k.toNat, hk.symm, cs, chars?_eq_some.mp hcs, by rw [hk]; exact hn⟩
    · cases h
  · rintro ⟨n, rfl, cs, htrim, hn⟩
    have hpos : ¬ (n : Int) < 0 := by omega
    simp only [htrim, chars?_map, Option.bind_some, hn, hpos, if_false]

/-! ### Header blocks -/

/-- Lines that announce no length leave the length as it was. -/
theorem headerBlock_of_silent {lines : List Bytes} {blank : Bytes} (h : Headers lines blank)
    (hs : Silent lines) (given : Option Int) :
    HeaderBlock given given (joined lines ++ (blank ++ [0x0A])) := by
  induction lines with
  | nil => exact .blank h.blankEnded h.empty
  | cons line lines ih =>
      rw [joined_cons, List.append_assoc, List.cons_append]
      refine .other (h.ended line List.mem_cons_self) (h.full line List.mem_cons_self) ?_
        (ih h.tail hs.tail)
      exact fun value hv => hs line List.mem_cons_self value (givesLength_iff.mp hv)

/-- Lines give the last length that they announce, whatever was given before. -/
theorem headerBlock_of_lastLength {lines : List Bytes} {blank : Bytes} {n : Nat}
    (h : Headers lines blank) (hl : LastLength lines n) (given : Option Int) :
    HeaderBlock given (some (n : Int)) (joined lines ++ (blank ++ [0x0A])) := by
  obtain ⟨before, line, value, after, rfl, hline, hn, hafter⟩ := hl
  induction before generalizing given with
  | nil =>
      rw [List.nil_append] at h ⊢
      rw [joined_cons, List.append_assoc, List.cons_append]
      exact .length (h.ended line List.mem_cons_self) (givesLength_iff.mpr hline)
        (lengthValue?_eq_some.mpr ⟨n, rfl, hn⟩) (headerBlock_of_silent h.tail hafter _)
  | cons l before ih =>
      rw [List.cons_append] at h ⊢
      rw [joined_cons, List.append_assoc, List.cons_append]
      by_cases hv : ∃ v, Announces l v
      · obtain ⟨v, hv⟩ := hv
        obtain ⟨k, hk⟩ := h.numbers l List.mem_cons_self v hv
        exact .length (h.ended l List.mem_cons_self) (givesLength_iff.mpr hv)
          (lengthValue?_eq_some.mpr ⟨k, rfl, hk⟩) (ih _ h.tail)
      · refine .other (h.ended l List.mem_cons_self) (h.full l List.mem_cons_self) ?_ (ih _ h.tail)
        exact fun v hg => hv ⟨v, givesLength_iff.mp hg⟩

/-- A block is made of such lines. -/
theorem HeaderBlock.headers {given last : Option Int} {block : Bytes}
    (h : HeaderBlock given last block) :
    ∃ lines blank, block = joined lines ++ (blank ++ [0x0A]) ∧ Headers lines blank ∧
      (last = given ∧ Silent lines ∨ ∃ n : Nat, last = some (n : Int) ∧ LastLength lines n) := by
  -- The header block is built up from the blank line backwards.
  induction h with
  | @blank given line ends empty =>
      have hheaders : Headers [] line := ⟨nofun, nofun, nofun, ends, empty⟩
      exact ⟨[], line, rfl, hheaders, Or.inl ⟨rfl, nofun⟩⟩
  | @other given last line block ends full unnamed _ ih =>
      obtain ⟨lines, blank, rfl, hheaders, hlast⟩ := ih
      have hsilent : ∀ value, ¬ Announces line value :=
        fun value hv => unnamed value (givesLength_iff.mpr hv)
      refine ⟨line :: lines, blank, by simp, ⟨?_, ?_, ?_, hheaders.blankEnded, hheaders.empty⟩, ?_⟩
      · exact List.forall_mem_cons.mpr ⟨ends, hheaders.ended⟩
      · exact List.forall_mem_cons.mpr ⟨full, hheaders.full⟩
      · exact List.forall_mem_cons.mpr ⟨fun v hv => (hsilent v hv).elim, hheaders.numbers⟩
      · rcases hlast with ⟨rfl, hs⟩ | ⟨n, rfl, before, l, v, after, rfl, hv⟩
        · exact Or.inl ⟨rfl, List.forall_mem_cons.mpr ⟨hsilent, hs⟩⟩
        · exact Or.inr ⟨n, rfl, line :: before, l, v, after, rfl, hv⟩
  | @length given last line block value k ends named number _ ih =>
      obtain ⟨lines, blank, rfl, hheaders, hlast⟩ := ih
      have hvalue := givesLength_iff.mp named
      obtain ⟨n, rfl, hn⟩ := lengthValue?_eq_some.mp number
      have hfull : lineText line ≠ [] := by
        obtain ⟨name, htext, -⟩ := hvalue
        rw [htext]
        exact List.append_ne_nil_of_right_ne_nil name (List.cons_ne_nil _ _)
      refine ⟨line :: lines, blank, by simp, ⟨?_, ?_, ?_, hheaders.blankEnded, hheaders.empty⟩, ?_⟩
      · exact List.forall_mem_cons.mpr ⟨ends, hheaders.ended⟩
      · exact List.forall_mem_cons.mpr ⟨hfull, hheaders.full⟩
      · refine List.forall_mem_cons.mpr ⟨fun v hv => ?_, hheaders.numbers⟩
        rw [hv.unique hvalue]
        exact ⟨n, hn⟩
      · rcases hlast with ⟨rfl, hs⟩ | ⟨m, rfl, before, l, v, after, rfl, hv⟩
        · exact Or.inr ⟨n, rfl, [], line, value, lines, rfl, hvalue, hn, hs⟩
        · exact Or.inr ⟨m, rfl, line :: before, l, v, after, rfl, hv⟩

/-! ### Reading -/

/-- A body is read exactly if it is there, of the announced length, and no longer than allowed. -/
theorem readBody_eq_ok {length : Int} {stream body rest : Bytes} :
    readBody length stream = ⟨.ok body, rest⟩ ↔
      stream = body ++ rest ∧ length = body.length ∧ 1 ≤ body.length ∧ body.length ≤ maxSize := by
  constructor
  · intro h
    unfold readBody at h
    split at h
    · cases h
    · next hpos =>
        split at h
        · cases h
        · next hmax =>
            simp only at h
            split at h
            · next hlen =>
                cases h
                rw [hlen]
                refine ⟨(List.take_append_drop _ _).symm, ?_, ?_, ?_⟩ <;> omega
            · split at h <;> cases h
  · rintro ⟨rfl, rfl, hpos, hmax⟩
    exact readBody_append (List.length_pos_iff.mp hpos) hmax rest

/-- **A body is read exactly if the stream splits by the grammar.** -/
theorem read_eq_ok_iff (stream body rest : Bytes) :
    read stream = ⟨.ok body, rest⟩ ↔ ∃ lines blank, Framed stream lines blank body rest := by
  constructor
  · intro h
    have hpassable : Passable (readHeaders (stream.length + 1) (lengthOf none) stream).outcome := by
      show Passable (read stream).outcome
      rw [h]
      trivial
    obtain ⟨block, last, behind, rfl, hblock, hread⟩ := exists_headerBlock hpassable
    obtain ⟨rfl, hlength, hsize⟩ := readBody_eq_ok.mp (hread.symm.trans h)
    obtain ⟨lines, blank, rfl, hheaders, hlast⟩ := hblock.headers
    refine ⟨lines, blank, by simp, hheaders, ?_, hsize⟩
    rcases hlast with ⟨rfl, -⟩ | ⟨n, rfl, hn⟩
    · -- No line gave a length, and so the length is none.
      exact absurd hlength (by simp only [lengthOf, Option.getD_none]; omega)
    · rwa [← Int.ofNat_inj.mp hlength]
  · rintro ⟨lines, blank, rfl, hheaders, hlength, hsize⟩
    have hsplit : joined lines ++ (blank ++ 0x0A :: (body ++ rest)) =
        joined lines ++ (blank ++ [0x0A]) ++ (body ++ rest) := by simp
    rw [hsplit, (headerBlock_of_lastLength hheaders hlength none).read_append]
    exact readBody_eq_ok.mpr ⟨rfl, rfl, hsize⟩

/-! ### One split -/

/-- A line ends at its line feed. -/
theorem eq_of_line {line line' rest rest' : Bytes} (h : (0x0A : UInt8) ∉ line)
    (h' : (0x0A : UInt8) ∉ line') (he : line ++ 0x0A :: rest = line' ++ 0x0A :: rest') :
    line = line' ∧ rest = rest' := by
  have hsplit := splitLine_append h rest
  rw [he, splitLine_append h' rest'] at hsplit
  cases hsplit
  exact ⟨rfl, rfl⟩

/-- The first blank line parts the header lines from what follows. -/
theorem Headers.unique {lines lines' : List Bytes} {blank blank' behind behind' : Bytes}
    (h : Headers lines blank) (h' : Headers lines' blank')
    (he : joined lines ++ (blank ++ 0x0A :: behind) =
      joined lines' ++ (blank' ++ 0x0A :: behind')) :
    lines = lines' ∧ blank = blank' ∧ behind = behind' := by
  -- The lines are compared from the front, each up to its line feed.
  induction lines generalizing lines' with
  | nil =>
      cases lines' with
      | nil => exact ⟨rfl, eq_of_line h.blankEnded h'.blankEnded he⟩
      -- A blank line ends the headers and none of the others is blank.
      | cons line' lines' =>
          rw [joined_nil, List.nil_append, joined_cons, List.append_assoc, List.cons_append] at he
          obtain ⟨rfl, -⟩ := eq_of_line h.blankEnded (h'.ended line' List.mem_cons_self) he
          exact absurd h.empty (h'.full blank List.mem_cons_self)
  | cons line lines ih =>
      rw [joined_cons, List.append_assoc, List.cons_append] at he
      have hline := h.ended line List.mem_cons_self
      cases lines' with
      | nil =>
          obtain ⟨rfl, -⟩ := eq_of_line hline h'.blankEnded he
          exact absurd h'.empty (h.full line List.mem_cons_self)
      | cons line' lines' =>
          rw [joined_cons, List.append_assoc, List.cons_append] at he
          obtain ⟨rfl, hrest⟩ := eq_of_line hline (h'.ended line' List.mem_cons_self) he
          obtain ⟨rfl, hblank⟩ := ih h.tail h'.tail hrest
          exact ⟨rfl, hblank⟩

/-- **A stream splits in one way.** -/
theorem Framed.unique {stream blank blank' body body' rest rest' : Bytes}
    {lines lines' : List Bytes} (h : Framed stream lines blank body rest)
    (h' : Framed stream lines' blank' body' rest') :
    lines = lines' ∧ blank = blank' ∧ body = body' ∧ rest = rest' := by
  obtain ⟨rfl, rfl, -⟩ := h.headers.unique h'.headers (h.split.symm.trans h'.split)
  have hread := (read_eq_ok_iff stream body rest).mpr ⟨lines, blank, h⟩
  rw [(read_eq_ok_iff stream body' rest').mpr ⟨lines, blank, h'⟩] at hread
  cases hread
  exact ⟨rfl, rfl, rfl, rfl⟩

/-! ### Lines without influence -/

/-- The rounds of the reader do not run out. -/
theorem readHeaders_fuel {fuel fuel' : Nat} {stream : Bytes} (h : stream.length < fuel)
    (h' : stream.length < fuel') (length : Int) :
    readHeaders fuel length stream = readHeaders fuel' length stream := by
  induction fuel generalizing fuel' length stream with
  | zero => exact absurd h (Nat.not_lt_zero _)
  | succ fuel ih =>
      obtain ⟨fuel', rfl⟩ : ∃ n, fuel' = n + 1 := ⟨fuel' - 1, by omega⟩
      cases hsplit : splitLine stream with
      | none => simp only [readHeaders, hsplit]
      | some p =>
          obtain ⟨line, rest⟩ := p
          have hrest := length_splitLine hsplit
          have hgo : ∀ k, readHeaders fuel k rest = readHeaders fuel' k rest :=
            fun k => ih (by omega) (by omega) k
          simp only [readHeaders, hsplit, hgo]

/-- A header line is read, and then the reader goes on behind it or gives up. -/
theorem readHeaders_line {line : Bytes} (h : (0x0A : UInt8) ∉ line) (hfull : lineText line ≠ []) :
    (∃ next : Int → Int, ∀ fuel length rest,
      readHeaders (fuel + 1) length (line ++ 0x0A :: rest) = readHeaders fuel (next length) rest) ∨
    ∃ value, ∀ fuel length rest,
      readHeaders (fuel + 1) length (line ++ 0x0A :: rest) = ⟨.error (.badLength value), rest⟩ := by
  rcases readLine_cases line with ⟨-, hempty⟩ | ⟨hline, -⟩ | ⟨value, n, hline, -⟩ | ⟨value, hline⟩
  · exact absurd hempty hfull
  · exact Or.inl ⟨id, fun fuel length rest => by
      simp only [readHeaders, splitLine_append h, hline, id]⟩
  · exact Or.inl ⟨fun _ => n, fun fuel length rest => by
      simp only [readHeaders, splitLine_append h, hline]⟩
  · exact Or.inr ⟨value, fun fuel length rest => by
      simp only [readHeaders, splitLine_append h, hline]⟩

/-- A line is no blank one, and has no colon or another name before its first one. -/
structure Idle (line : Bytes) : Prop where
  ended : (0x0A : UInt8) ∉ line
  full : lineText line ≠ []
  unnamed : .char ':' ∉ lineText line ∨
    ∃ name value, lineText line = name ++ .char ':' :: value ∧ .char ':' ∉ name ∧ ¬ NamesLength name

theorem Idle.silent {line : Bytes} (h : Idle line) (value : List Symbol) :
    ¬ Announces line value := by
  rintro ⟨name, htext, hname, hlength⟩
  rcases h.unnamed with hcolon | ⟨name', value', htext', hname', hother⟩
  · rw [htext] at hcolon
    exact hcolon (List.mem_append_right name List.mem_cons_self)
  · rw [(eq_of_cut hname hname' (htext.symm.trans htext')).1] at hlength
    exact hother hlength

theorem Idle.readHeaders {line : Bytes} (h : Idle line) (fuel : Nat) (length : Int) (rest : Bytes) :
    readHeaders (fuel + 1) length (line ++ 0x0A :: rest) = readHeaders fuel length rest := by
  have hother := readLine_eq_other h.full fun value hv => h.silent value (givesLength_iff.mp hv)
  simp only [Frame.readHeaders, splitLine_append h.ended, hother]

/-- Two reads give the same: the same body and the same rest, or the same error. -/
structure SameRead (r r' : ReadResult) : Prop where
  outcome : r.outcome = r'.outcome
  rest : ∀ body, r'.outcome = .ok body → r.rest = r'.rest

/-- A header line that announces nothing may stand anywhere in the block. -/
theorem readHeaders_insert {before : List Bytes} {line after : Bytes} {fuel fuel' : Nat}
    (hbefore : ∀ l ∈ before, (0x0A : UInt8) ∉ l ∧ lineText l ≠ []) (hline : Idle line)
    (h : (joined before ++ (line ++ 0x0A :: after)).length < fuel)
    (h' : (joined before ++ after).length < fuel') (length : Int) :
    SameRead (readHeaders fuel length (joined before ++ (line ++ 0x0A :: after)))
      (readHeaders fuel' length (joined before ++ after)) := by
  induction before generalizing fuel fuel' length with
  -- The inserted line comes first: it takes one round and changes nothing.
  | nil =>
      obtain ⟨fuel, rfl⟩ : ∃ n, fuel = n + 1 := ⟨fuel - 1, by omega⟩
      have hrounds : (joined [] ++ after).length < fuel := by
        simp only [joined_nil, List.nil_append, List.length_append, List.length_cons] at h ⊢
        omega
      have hsame := readHeaders_fuel hrounds h' length
      simp only [joined_nil, List.nil_append] at hsame ⊢
      rw [hline.readHeaders, hsame]
      exact ⟨rfl, fun _ _ => rfl⟩
  | cons l before ih =>
      obtain ⟨fuel, rfl⟩ : ∃ n, fuel = n + 1 := ⟨fuel - 1, by omega⟩
      obtain ⟨fuel', rfl⟩ : ∃ n, fuel' = n + 1 := ⟨fuel' - 1, by omega⟩
      obtain ⟨hended, hfull⟩ := hbefore l List.mem_cons_self
      rw [joined_cons, List.append_assoc, List.cons_append] at h h' ⊢
      rw [List.append_assoc, List.cons_append]
      simp only [List.length_append, List.length_cons] at h h'
      rcases readHeaders_line hended hfull with ⟨next, hnext⟩ | ⟨value, hbad⟩
      · rw [hnext, hnext]
        refine ih (fun l' hl' => hbefore l' (List.mem_cons_of_mem l hl')) ?_ ?_ _
        · simp only [List.length_append, List.length_cons]
          omega
        · simp only [List.length_append]
          omega
      · rw [hbad, hbad]
        exact ⟨rfl, nofun⟩

/-- **A line that announces no length makes no difference**, wherever it stands among
header lines. -/
theorem read_insert {before : List Bytes} {line : Bytes}
    (hbefore : ∀ l ∈ before, (0x0A : UInt8) ∉ l ∧ lineText l ≠ []) (hline : Idle line)
    (after : Bytes) :
    SameRead (read (joined before ++ (line ++ 0x0A :: after))) (read (joined before ++ after)) :=
  readHeaders_insert hbefore hline (Nat.lt_succ_self _) (Nat.lt_succ_self _) (-1)

/-- **Reading takes off a stream exactly what the grammar says.** A body is read, and a
rest left, if and only if the stream splits into header lines, a blank line, this body
and this rest. It splits in one way only. A line without a colon, or with another name
before it, has no influence on what is read. -/
theorem read_exactly_framed :
    (∀ stream body rest, read stream = ⟨.ok body, rest⟩ ↔
      ∃ lines blank, Framed stream lines blank body rest) ∧
    (∀ {stream blank blank' body body' rest rest' : Bytes} {lines lines' : List Bytes},
      Framed stream lines blank body rest → Framed stream lines' blank' body' rest' →
      lines = lines' ∧ blank = blank' ∧ body = body' ∧ rest = rest') ∧
    ∀ {before : List Bytes} {line : Bytes},
      (∀ l ∈ before, (0x0A : UInt8) ∉ l ∧ lineText l ≠ []) → Idle line → ∀ after,
      SameRead (read (joined before ++ (line ++ 0x0A :: after))) (read (joined before ++ after)) :=
  ⟨read_eq_ok_iff, Framed.unique, read_insert⟩

/-- Two lengths, of which the second counts, in mixed case and with blanks and a sign. -/
def twoLengths : Bytes := utf8 "CONTENT-length:  5\r\nContent-Length :+2\n \r\nabc"

/-- The second length gives the body, there is no other split, and a line in between
that only looks like a length makes no difference. -/
theorem twoLengths_framed :
    (∃ lines blank, Framed twoLengths lines blank (utf8 "ab") (utf8 "c")) ∧
    (∀ lines blank body rest, Framed twoLengths lines blank body rest →
      body = utf8 "ab" ∧ rest = utf8 "c") ∧
    SameRead (read (joined [utf8 "CONTENT-length:  5\r"] ++ (utf8 "Content Length: 1" ++
        0x0A :: utf8 "Content-Length :+2\n \r\nabc")))
      (read (joined [utf8 "CONTENT-length:  5\r"] ++ utf8 "Content-Length :+2\n \r\nabc")) := by
  obtain ⟨hread, hunique, hinsert⟩ := read_exactly_framed
  have hbody : (read twoLengths).outcome.toOption = some (utf8 "ab") := by decide +kernel
  have hrest : (read twoLengths).rest = utf8 "c" := by decide +kernel
  have htwo : read twoLengths = ⟨.ok (utf8 "ab"), utf8 "c"⟩ := by
    revert hbody hrest
    rcases read twoLengths with ⟨_ | b, r⟩
    · simp [Except.toOption]
    · simp only [Except.toOption, Option.some.injEq, ReadResult.mk.injEq, Except.ok.injEq]
      exact And.intro
  obtain ⟨lines, blank, hframed⟩ := (hread _ _ _).mp htwo
  refine ⟨⟨lines, blank, hframed⟩, fun _ _ _ _ h => (hunique h hframed).2.2,
    hinsert (by decide +kernel) ⟨by decide +kernel, by decide +kernel, .inr ?_⟩ _⟩
  refine ⟨(utf8 "Content Length").map fun b => .char (Char.ofNat b.toNat),
    [.char ' ', .char '1'], by decide +kernel, by decide +kernel, ?_⟩
  rw [← isLengthName_iff]
  decide +kernel

end LanguageClient.Frame
