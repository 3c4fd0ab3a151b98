import LanguageClient.Proofs.Rpc.Framing
import Mathlib.Data.List.TakeWhile

/-! # Header blocks.

What stands in front of a body is a block of header lines with a blank line at its
end. `HeaderBlock` says which octets are such a block and which length its headers
give, without saying how they are read. Reading takes exactly one block off a
stream (`HeaderBlock.read_append`), and takes nothing else before a body
(`exists_headerBlock`).

So a read that is not at the end of the stream depends only on what it takes
(`read_eq_of_passable`): the octets behind it can be any others. -/

namespace LanguageClient.Frame

/-! ### Header lines -/

/-- The text of a line: what is left of it without the blanks around it. -/
def lineText (line : Bytes) : List Symbol := trimSymbols (Utf8.symbols line)

/-- A line names the length of the body, with a value behind its first colon. -/
def GivesLength (line : Bytes) (value : List Symbol) : Prop :=
  ∃ name, lineText line = name ++ .char ':' :: value ∧ .char ':' ∉ name ∧ isLengthName name = true

/-- A text is cut at its first colon in one way only. -/
theorem eq_of_cut {name name' value value' : List Symbol} (hname : .char ':' ∉ name)
    (hname' : .char ':' ∉ name')
    (h : name ++ .char ':' :: value = name' ++ .char ':' :: value') : name = name' ∧ value = value' := by
  induction name generalizing name' with
  | nil =>
      cases name' with
      | nil => exact ⟨rfl, List.cons.inj h |>.2⟩
      | cons s name' => exact absurd (List.cons.inj h).1 (fun he => hname' (he ▸ List.mem_cons_self))
  | cons s name ih =>
      cases name' with
      | nil => exact absurd (List.cons.inj h).1.symm (fun he => hname (he ▸ List.mem_cons_self))
      | cons s' name' =>
          obtain ⟨rfl, htail⟩ := List.cons.inj h
          obtain ⟨rfl, hvalue⟩ := ih (fun hm => hname (List.mem_cons_of_mem _ hm))
            (fun hm => hname' (List.mem_cons_of_mem _ hm)) htail
          exact ⟨rfl, hvalue⟩

/-- A line is cut at its first colon, unless it has none. -/
theorem cut_cases (text : List Symbol) :
    text.dropWhile (· != .char ':') = [] ∧ .char ':' ∉ text ∨
      ∃ value, text.dropWhile (· != .char ':') = .char ':' :: value ∧
        text = text.takeWhile (· != .char ':') ++ .char ':' :: value ∧
        .char ':' ∉ text.takeWhile (· != .char ':') := by
  have hname : Symbol.char ':' ∉ text.takeWhile (· != .char ':') := by
    intro hm
    have := List.mem_takeWhile_imp hm
    simp at this
  cases hdrop : text.dropWhile (· != .char ':') with
  | nil =>
      refine Or.inl ⟨rfl, fun hm => ?_⟩
      have hall := List.dropWhile_eq_nil_iff.mp hdrop _ hm
      simp at hall
  | cons s value =>
      have hs : s = .char ':' := by
        have := List.head?_dropWhile_not (· != Symbol.char ':') text
        rw [hdrop] at this
        simpa using this
      subst hs
      refine Or.inr ⟨value, rfl, ?_, hname⟩
      rw [← hdrop, List.takeWhile_append_dropWhile]

theorem readLine_eq_blank {line : Bytes} (h : lineText line = []) : readLine line = .blank := by
  rw [lineText] at h
  rw [readLine, h]
  rfl

theorem readLine_eq_length {line : Bytes} {value : List Symbol} {n : Int}
    (h : GivesLength line value) (hn : lengthValue? value = some n) : readLine line = .length n := by
  obtain ⟨name, htext, hname, hlength⟩ := h
  exact readLine_of_colon htext hname hlength hn

/-- A line that is neither blank nor names the length says nothing. -/
theorem readLine_eq_other {line : Bytes} (hne : lineText line ≠ [])
    (h : ∀ value, ¬ GivesLength line value) : readLine line = .other := by
  have hempty : (trimSymbols (Utf8.symbols line)).isEmpty = false := by
    rw [List.isEmpty_eq_false_iff]
    exact hne
  simp only [readLine, hempty, Bool.false_eq_true, if_false]
  rcases cut_cases (trimSymbols (Utf8.symbols line)) with ⟨hdrop, _⟩ | ⟨value, hdrop, htext, hname⟩
  · rw [hdrop]
  · rw [hdrop]
    simp only
    rw [if_neg]
    exact fun hlength => h value ⟨_, htext, hname, hlength⟩

/-- What a line says is what it holds: nothing, no length, or a length. -/
theorem readLine_cases (line : Bytes) :
    readLine line = .blank ∧ lineText line = [] ∨
      readLine line = .other ∧ lineText line ≠ [] ∧ (∀ value, ¬ GivesLength line value) ∨
      (∃ value n, readLine line = .length n ∧ GivesLength line value ∧ lengthValue? value = some n) ∨
      ∃ value, readLine line = .badLength value := by
  by_cases hne : lineText line = []
  · exact Or.inl ⟨readLine_eq_blank hne, hne⟩
  · by_cases hgives : ∃ value, GivesLength line value
    · obtain ⟨value, hgives⟩ := hgives
      cases hn : lengthValue? value with
      | some n => exact Or.inr (Or.inr (Or.inl ⟨value, n, readLine_eq_length hgives hn, hgives, hn⟩))
      | none =>
          refine Or.inr (Or.inr (Or.inr ⟨value, ?_⟩))
          obtain ⟨name, htext, hname, hlength⟩ := hgives
          rw [lineText] at htext
          have hempty : (trimSymbols (Utf8.symbols line)).isEmpty = false := by
            rw [htext, List.isEmpty_eq_false_iff]
            exact List.append_ne_nil_of_right_ne_nil name (List.cons_ne_nil _ _)
          simp only [readLine, hempty, Bool.false_eq_true, if_false]
          -- The colon that is cut at is the first one.
          rcases cut_cases (trimSymbols (Utf8.symbols line)) with ⟨_, hno⟩ | ⟨value', hdrop, htext', hname'⟩
          · rw [htext] at hno
            exact absurd (List.mem_append_right _ List.mem_cons_self) hno
          · obtain ⟨hn', rfl⟩ := eq_of_cut hname hname' (htext.symm.trans htext')
            rw [hdrop]
            simp only [← hn', hlength, hn, if_true]
    · have hno : ∀ value, ¬ GivesLength line value := fun value hv => hgives ⟨value, hv⟩
      exact Or.inr (Or.inl ⟨readLine_eq_other hne hno, hne, hno⟩)

/-! ### Blocks of header lines -/

/-- Octets are header lines up to a blank one. The first length is the one that was
given before, the second the one that counts in the end: the last that a header
gives, or the one before if none does. -/
inductive HeaderBlock : Option Int → Option Int → Bytes → Prop where
  | blank {given : Option Int} {line : Bytes} (ends : (0x0A : UInt8) ∉ line)
      (empty : lineText line = []) : HeaderBlock given given (line ++ [0x0A])
  | other {given last : Option Int} {line block : Bytes} (ends : (0x0A : UInt8) ∉ line)
      (full : lineText line ≠ []) (unnamed : ∀ value, ¬ GivesLength line value)
      (h : HeaderBlock given last block) : HeaderBlock given last (line ++ 0x0A :: block)
  | length {given last : Option Int} {line block : Bytes} {value : List Symbol} {n : Int}
      (ends : (0x0A : UInt8) ∉ line) (named : GivesLength line value)
      (number : lengthValue? value = some n) (h : HeaderBlock (some n) last block) :
      HeaderBlock given last (line ++ 0x0A :: block)

/-- The length as the reader keeps it. -/
def lengthOf (given : Option Int) : Int := given.getD (-1)

/-- A block of headers is read as the last length in it, and the body is read next. -/
theorem HeaderBlock.readHeaders_append {given last : Option Int} {block : Bytes}
    (h : HeaderBlock given last block) {fuel : Nat} (hfuel : block.length ≤ fuel) (rest : Bytes) :
    readHeaders fuel (lengthOf given) (block ++ rest) = readBody (lengthOf last) rest := by
  induction h generalizing fuel with
  | blank ends empty =>
      obtain ⟨fuel, rfl⟩ : ∃ n, fuel = n + 1 := ⟨fuel - 1, by simp at hfuel; omega⟩
      rw [List.append_assoc, List.singleton_append]
      simp only [readHeaders, splitLine_append ends, readLine_eq_blank empty]
  | other ends full unnamed _ ih =>
      obtain ⟨fuel, rfl⟩ : ∃ n, fuel = n + 1 := ⟨fuel - 1, by simp at hfuel; omega⟩
      rw [List.append_assoc, List.cons_append]
      simp only [readHeaders, splitLine_append ends, readLine_eq_other full unnamed]
      exact ih (by simp at hfuel; omega)
  | length ends named number _ ih =>
      obtain ⟨fuel, rfl⟩ : ∃ n, fuel = n + 1 := ⟨fuel - 1, by simp at hfuel; omega⟩
      rw [List.append_assoc, List.cons_append]
      simp only [readHeaders, splitLine_append ends, readLine_eq_length named number]
      exact ih (by simp at hfuel; omega)

/-- **Reading takes exactly one block off a stream**, and then the body it announces. -/
theorem HeaderBlock.read_append {last : Option Int} {block : Bytes} (h : HeaderBlock none last block)
    (rest : Bytes) : read (block ++ rest) = readBody (lengthOf last) rest :=
  h.readHeaders_append (by simp; omega) rest

/-- The first line of a stream is cut off it. -/
theorem splitLine_eq_some {stream line rest : Bytes} (h : splitLine stream = some (line, rest)) :
    stream = line ++ 0x0A :: rest ∧ (0x0A : UInt8) ∉ line := by
  unfold splitLine at h
  split at h
  · cases h
  · next b rest' hdrop =>
      cases h
      have hb : b = 0x0A := by
        have := List.head?_dropWhile_not (· != (0x0A : UInt8)) stream
        rw [hdrop] at this
        simpa using this
      subst hb
      refine ⟨?_, ?_⟩
      · rw [← hdrop, List.takeWhile_append_dropWhile]
      · intro hm
        have := List.mem_takeWhile_imp hm
        simp at this

/-- Whether reading can go on behind what a read gave. -/
def Passable : Except ReadError Bytes → Prop
  | .ok _ | .error .missingLength => True
  | .error _ => False

/-- **Nothing but a block is taken before a body.** -/
theorem exists_headerBlock {fuel : Nat} {given : Option Int} {stream : Bytes}
    (h : Passable (readHeaders fuel (lengthOf given) stream).outcome) :
    ∃ block last rest, stream = block ++ rest ∧ HeaderBlock given last block ∧
      readHeaders fuel (lengthOf given) stream = readBody (lengthOf last) rest := by
  induction fuel generalizing given stream with
  | zero => exact h.elim
  | succ fuel ih =>
      cases hsplit : splitLine stream with
      | none =>
          simp only [readHeaders, hsplit] at h
          exact h.elim
      | some p =>
          obtain ⟨line, rest⟩ := p
          obtain ⟨rfl, ends⟩ := splitLine_eq_some hsplit
          simp only [readHeaders, hsplit] at h ⊢
          -- Each line is passed over, gives a length, or ends the block.
          rcases readLine_cases line with ⟨hline, hempty⟩ | ⟨hline, hfull, hno⟩ |
            ⟨value, n, hline, hgives, hn⟩ | ⟨value, hline⟩
          · rw [hline]
            exact ⟨line ++ [0x0A], given, rest, by simp, .blank ends hempty, rfl⟩
          · rw [hline] at h ⊢
            obtain ⟨block, last, rest', rfl, hblock, hread⟩ := ih h
            exact ⟨line ++ 0x0A :: block, last, rest', by simp, .other ends hfull hno hblock, hread⟩
          -- The length that this line gives is in force from here on.
          · rw [hline] at h ⊢
            obtain ⟨block, last, rest', rfl, hblock, hread⟩ := @ih (some n) _ h
            exact ⟨line ++ 0x0A :: block, last, rest', by simp, .length ends hgives hn hblock, hread⟩
          · rw [hline] at h
            exact h.elim

/-- A body that is there is read whatever stands behind it. -/
theorem readBody_eq_of_passable {length : Int} {stream : Bytes}
    (h : Passable (readBody length stream).outcome) :
    ∃ body, stream = body ++ (readBody length stream).rest ∧
      ∀ more, readBody length (body ++ more) = ⟨(readBody length stream).outcome, more⟩ := by
  by_cases hpos : length ≤ 0
  · refine ⟨[], ?_, fun more => ?_⟩ <;> simp only [readBody, hpos, if_true, List.nil_append]
  · by_cases hmax : (maxSize : Int) < length
    · simp only [readBody, hpos, hmax, if_true, if_false] at h
      exact h.elim
    · by_cases hlen : (stream.take length.toNat).length = length.toNat
      · simp only [readBody, hpos, hmax, hlen, if_true, if_false]
        refine ⟨stream.take length.toNat, (List.take_append_drop _ _).symm, fun more => ?_⟩
        rw [List.take_left' hlen, List.drop_left' hlen]
        simp only [hlen, if_true]
      · simp only [readBody, hpos, hmax, hlen, if_false] at h
        split at h <;> exact h.elim

/-- **A read behind which reading can go on depends only on what it takes.** -/
theorem read_eq_of_passable {stream : Bytes} (h : Passable (read stream).outcome) :
    ∃ front, stream = front ++ (read stream).rest ∧
      ∀ more, read (front ++ more) = ⟨(read stream).outcome, more⟩ := by
  obtain ⟨block, last, rest, rfl, hblock, hread⟩ := @exists_headerBlock _ none _ h
  change read (block ++ rest) = _ at hread
  rw [hread] at h ⊢
  obtain ⟨body, hrest, hlocal⟩ := readBody_eq_of_passable h
  refine ⟨block ++ body, ?_, fun more => ?_⟩
  · rw [List.append_assoc, ← hrest]
  · rw [List.append_assoc, hblock.read_append, hlocal]

/-- The header of a written frame is a block that gives the length of its body. -/
theorem headerBlock_header {body : Bytes} (h : (body.length : Int) ≤ Number.int64Max) :
    HeaderBlock none (some body.length) (header body) := by
  have hreturn : Utf8.encode ['\r'] = [0x0D] := by decide
  rw [header_eq]
  exact .length (Utf8.lineFeed_not_mem_encode (lineFeed_not_mem_lengthLine body.length))
    ⟨_, trimSymbols_lengthLine body.length, by decide, by decide⟩ (lengthValue?_natText h)
    (.blank (by rw [hreturn]; decide) (by rw [hreturn]; decide))

end LanguageClient.Frame
