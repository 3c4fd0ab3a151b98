import LanguageClient.Proofs.Rpc.Framing
import Mathlib.Data.List.TakeWhile

/-! # A stream that is cut short.

A peer that dies leaves a stream that ends anywhere: inside a name, a number or an end
of line, between the blank line and the body, inside a body, or behind a whole frame.
Up to the cut nothing is lost, and at the cut nothing is made up. What was sent as a
whole is read, in order; then comes an error, and reading never gives a body again. The
error tells whether a body was begun (`readMany_cut`).

A stream that is cut short parts into whole frames and the beginning of one more
(`exists_frame_cut`). What reading gives for such a beginning is said by three lemmas,
for a beginning without a blank line (`read_header_part`), for a body that is not there
and for one that is not all there (`readBody_part`). -/

namespace LanguageClient.Frame

/-! ### The beginning of a frame -/

theorem splitLine_eq_none {stream : Bytes} (h : (0x0A : UInt8) ∉ stream) :
    splitLine stream = none := by
  simp only [splitLine, Text.dropWhile_notMem h]

/-- A line that does not end is the end of the stream. -/
theorem readHeaders_eq_end {fuel : Nat} {length : Int} {stream : Bytes}
    (h : (0x0A : UInt8) ∉ stream) : readHeaders fuel length stream = ⟨.error .endOfStream, []⟩ := by
  cases fuel with
  | zero => rfl
  | succ fuel => simp only [readHeaders, splitLine_eq_none h]

theorem read_nil : read [] = ⟨.error .endOfStream, []⟩ := rfl

/-- A beginning ends in the first part or in the second one. -/
theorem prefix_append_cases {α : Type} {l a b : List α} (h : l <+: a ++ b) :
    l <+: a ∨ ∃ p, l = a ++ p ∧ p <+: b := by
  obtain ⟨t, ht⟩ := h
  rcases List.append_eq_append_iff.mp ht with ⟨p, rfl, -⟩ | ⟨p, rfl, hb⟩
  · exact Or.inl (List.prefix_append l p)
  · exact Or.inr ⟨p, rfl, t, hb.symm⟩

/-- A header that is not all there is read as the end of the stream, wherever it stops. -/
theorem read_header_part {body part : Bytes} (hsize : body.length ≤ maxSize)
    (h : part <+: header body) (hne : part ≠ header body) :
    read part = ⟨.error .endOfStream, []⟩ := by
  have hline := Utf8.lineFeed_not_mem_encode (lineFeed_not_mem_lengthLine body.length)
  have hreturn : (0x0A : UInt8) ∉ Utf8.encode ['\r'] := by decide
  have hheader : header body =
      Utf8.encode (lengthLine body.length) ++ 0x0A :: Utf8.encode ['\r'] ++ [0x0A] := by
    rw [header_eq, List.append_assoc, List.cons_append]
  rw [hheader] at h hne
  have hpart := (List.prefix_concat_iff.mp h).resolve_left hne
  rcases prefix_append_cases hpart with hpart | ⟨p, rfl, hp⟩
  · exact readHeaders_eq_end fun hm => hline (hpart.subset hm)
  · rcases List.prefix_cons_iff.mp hp with rfl | ⟨q, rfl, hq⟩
    · rw [List.append_nil]
      exact readHeaders_eq_end hline
    · -- The line that gives the length is there, and the blank line does not end.
      have hread : ∀ fuel, readHeaders fuel body.length q = ⟨.error .endOfStream, []⟩ :=
        fun fuel => readHeaders_eq_end fun hm => hreturn (hq.subset hm)
      simp only [read, readHeaders, splitLine_append hline,
        readLine_lengthLine (length_le_int64Max hsize), hread]

/-- A body that is not all there is an error, which tells whether any of it is. -/
theorem readBody_part {body part : Bytes} (hsize : body.length ≤ maxSize) (h : part <+: body)
    (hne : part ≠ body) : readBody body.length part =
      ⟨.error (if part = [] then .missingBody else .shortBody), []⟩ := by
  have hshort : part.length < body.length :=
    Nat.lt_of_le_of_ne h.length_le fun hlength => hne (h.eq_of_length hlength)
  have hpos : ¬ (body.length : Int) ≤ 0 := by omega
  have hlimit : ¬ (maxSize : Int) < body.length := by omega
  have htake : ¬ (part.take body.length).length = body.length := by
    rw [List.length_take]
    omega
  simp only [readBody, hpos, hlimit, htake, if_false, Int.toNat_natCast, List.isEmpty_iff]
  split <;> rfl

/-- A body that is begun and does not end is an error of its own. -/
theorem read_body_part {body part : Bytes} (hsize : body.length ≤ maxSize) (h : part <+: body)
    (hne : part ≠ body) (hbegun : part ≠ []) :
    read (header body ++ part) = ⟨.error .shortBody, []⟩ := by
  rw [read_header_append (length_le_int64Max hsize), readBody_part hsize h hne, if_neg hbegun]

/-- Without any of its body a frame is read as the end of the stream. -/
theorem read_before_body {body part : Bytes} (hsize : body.length ≤ maxSize) (hbody : body ≠ [])
    (h : part <+: header body) :
    ∃ e : ReadError, read part = ⟨.error e, []⟩ ∧ (e = .endOfStream ∨ e = .missingBody) := by
  by_cases hne : part = header body
  · refine ⟨.missingBody, ?_, Or.inr rfl⟩
    have hread := read_header_append (length_le_int64Max hsize) []
    rw [List.append_nil, readBody_part hsize List.nil_prefix hbody.symm, if_pos rfl] at hread
    rw [hne, hread]
  · exact ⟨.endOfStream, read_header_part hsize h hne, Or.inl rfl⟩

/-! ### The cut -/

/-- A stream of frames that is cut short is some whole frames and a part of the next. -/
theorem exists_frame_cut {bodies : List Bytes} {cut : Bytes} (h : cut <+: encodeAll bodies)
    (hne : cut ≠ encodeAll bodies) :
    ∃ before body after part, bodies = before ++ body :: after ∧
      cut = encodeAll before ++ part ∧ part <+: encode body ∧ part ≠ encode body := by
  induction bodies generalizing cut with
  | nil => exact absurd (List.prefix_nil.mp h) hne
  | cons body bodies ih =>
      rw [encodeAll_cons] at h hne
      have hwhole : (∃ p, cut = encode body ++ p ∧ p <+: encodeAll bodies) →
          ∃ before body' after part, body :: bodies = before ++ body' :: after ∧
            cut = encodeAll before ++ part ∧ part <+: encode body' ∧ part ≠ encode body' := by
        rintro ⟨p, rfl, hp⟩
        obtain ⟨before, body', after, part, rfl, rfl, hpart⟩ := ih hp fun hp => hne (by rw [hp])
        exact ⟨body :: before, body', after, part, rfl, by simp, hpart⟩
      rcases prefix_append_cases h with hcut | hcut
      · by_cases hframe : cut = encode body
        · exact hwhole ⟨[], by simp [hframe], List.nil_prefix⟩
        · exact ⟨[], body, bodies, cut, rfl, rfl, hcut, hframe⟩
      · exact hwhole hcut

/-- Exactly the frames before the cut one are there as a whole. -/
theorem encodeAll_take_prefix_iff {before after : List Bytes} {body part : Bytes}
    (h : part <+: encode body) (hne : part ≠ encode body) (n : Nat) :
    encodeAll ((before ++ body :: after).take n) <+: encodeAll before ++ part ↔
      n ≤ before.length := by
  constructor
  · intro hprefix
    apply Nat.le_of_not_lt
    intro hn
    obtain ⟨k, rfl⟩ : ∃ k, n = before.length + (k + 1) := ⟨n - before.length - 1, by omega⟩
    rw [List.take_length_add_append, List.take_succ_cons, encodeAll_append, encodeAll_cons,
      List.prefix_append_right_inj] at hprefix
    have hframe : encode body <+: part := (List.prefix_append _ _).trans hprefix
    exact hne (h.eq_of_length_le hframe.length_le)
  · intro hn
    obtain ⟨rest, hrest⟩ := List.take_prefix n before
    rw [List.take_append_of_le_length hn]
    have hbefore : encodeAll (before.take n) <+: encodeAll before := by
      rw [← hrest, encodeAll_append, hrest]
      exact List.prefix_append _ _
    exact hbefore.trans (List.prefix_append _ _)

/-- An empty stream gives nothing but its end. -/
theorem readMany_nil (n : Nat) : readMany n [] = (List.replicate n (.error .endOfStream), []) := by
  induction n with
  | zero => rfl
  | succ n ih => simp only [readMany, read_nil, ih, List.replicate_succ]

/-- The whole frames are read, then the error of the cut one comes, and then there is
nothing any more. -/
theorem readMany_append_part {before : List Bytes} {part : Bytes} {e : ReadError}
    (h : ∀ body ∈ before, body ≠ [] ∧ body.length ≤ maxSize)
    (hread : read part = ⟨.error e, []⟩) (more : Nat) :
    (readMany (before.length + 1 + more) (encodeAll before ++ part)).1 =
      before.map .ok ++ .error e :: List.replicate more (.error .endOfStream) := by
  rw [Nat.add_assoc, Nat.add_comm 1 more, readMany_encodeAll fun body hbody => (h body hbody).2,
    map_received fun body hbody => (h body hbody).1]
  simp only [readMany, hread, readMany_nil]

/-- A stream ends inside a body, behind its first octet and before its last one. -/
def EndsInBody (bodies : List Bytes) (cut : Bytes) : Prop :=
  ∃ before body after part, bodies = before ++ body :: after ∧
    cut = encodeAll before ++ (header body ++ part) ∧ part <+: body ∧ part ≠ [] ∧ part ≠ body

/-- **A cut is always noticed.** A stream of frames that ends too early, at whatever
octet, gives exactly the bodies that are there as a whole, in order, and then an error.
The error is that of an unexpected end if the stream ends inside a body, and that of an
end otherwise. Behind the error every read gives the end of the stream. -/
theorem readMany_cut {bodies : List Bytes} (h : ∀ body ∈ bodies, body ≠ [] ∧ body.length ≤ maxSize)
    {cut : Bytes} (hcut : cut <+: encodeAll bodies) (hne : cut ≠ encodeAll bodies) :
    ∃ (whole : Nat) (e : ReadError),
      (∀ n, encodeAll (bodies.take n) <+: cut ↔ n ≤ whole) ∧
      (∀ more, (readMany (whole + 1 + more) cut).1 =
        (bodies.take whole).map .ok ++ .error e :: List.replicate more (.error .endOfStream)) ∧
      (EndsInBody bodies cut → e.toError.isA .unexpectedEnd ∧ ¬ e.toError.isA .endOfStream) ∧
      (¬ EndsInBody bodies cut → e.toError.isA .endOfStream ∧ ¬ e.toError.isA .unexpectedEnd) := by
  -- The cut is inside a body, or at most inside a header.
  by_cases hinside : EndsInBody bodies cut
  · obtain ⟨before, body, after, part, rfl, rfl, hpart, hbegun, hshort⟩ := hinside
    obtain ⟨hbefore, hbody, -⟩ := List.forall_mem_append.mp h |>.imp_right List.forall_mem_cons.mp
    have hframe : header body ++ part <+: encode body := (List.prefix_append_right_inj _).mpr hpart
    have hframe' : header body ++ part ≠ encode body :=
      fun he => hshort (List.append_cancel_left he)
    refine ⟨before.length, .shortBody, encodeAll_take_prefix_iff hframe hframe', ?_, ?_, ?_⟩
    · rw [List.take_left]
      exact readMany_append_part hbefore (read_body_part hbody.2 hpart hshort hbegun)
    · exact fun _ => by decide
    · intro houtside
      exact absurd ⟨before, body, after, part, rfl, rfl, hpart, hbegun, hshort⟩ houtside
  · obtain ⟨before, body, after, part, rfl, rfl, hframe, hframe'⟩ := exists_frame_cut hcut hne
    obtain ⟨hbefore, hbody, -⟩ := List.forall_mem_append.mp h |>.imp_right List.forall_mem_cons.mp
    have hheader : part <+: header body := by
      rcases prefix_append_cases hframe with hpart | ⟨p, rfl, hp⟩
      · exact hpart
      -- If the cut is past the header, it would have to be inside the body.
      · by_cases hbegun : p = []
        · exact ⟨[], by rw [hbegun, List.append_nil, List.append_nil]⟩
        · have hshort : p ≠ body := fun he => hframe' (by rw [he, encode])
          exact absurd ⟨before, body, after, p, rfl, rfl, hp, hbegun, hshort⟩ hinside
    obtain ⟨e, hread, he⟩ := read_before_body hbody.2 hbody.1 hheader
    refine ⟨before.length, e, encodeAll_take_prefix_iff hframe hframe', ?_, ?_, ?_⟩
    · rw [List.take_left]
      exact readMany_append_part hbefore hread
    · exact fun h' => absurd h' hinside
    · rintro -
      rcases he with rfl | rfl <;> decide

/-- A frame, and the next one up to the middle of a character of its body. -/
def cutCharacter : Bytes := encode (utf8 "a") ++ (header (utf8 "é") ++ [0xC3])

/-- The first body is read, then an unexpected end, then only the end of the stream. -/
theorem readMany_cutCharacter :
    cutCharacter <+: encodeAll [utf8 "a", utf8 "é"] ∧
      cutCharacter ≠ encodeAll [utf8 "a", utf8 "é"] ∧
      ∃ e : ReadError, e.toError.isA .unexpectedEnd ∧
        (readMany 3 cutCharacter).1 = [.ok (utf8 "a"), .error e, .error .endOfStream] := by
  have hcut : cutCharacter <+: encodeAll [utf8 "a", utf8 "é"] := by decide +kernel
  have hne : cutCharacter ≠ encodeAll [utf8 "a", utf8 "é"] := by decide +kernel
  obtain ⟨whole, e, hwhole, hread, hinside, -⟩ := readMany_cut (by decide +kernel) hcut hne
  have hone : 1 ≤ whole := (hwhole 1).mp (by decide +kernel)
  have htwo : ¬ 2 ≤ whole := fun h => absurd ((hwhole 2).mpr h) (by decide +kernel)
  obtain rfl : whole = 1 := by omega
  have hends : EndsInBody [utf8 "a", utf8 "é"] cutCharacter :=
    ⟨[utf8 "a"], utf8 "é", [], [0xC3], rfl, by decide +kernel, by decide +kernel, by decide +kernel,
      by decide +kernel⟩
  exact ⟨hcut, hne, e, (hinside hends).1, hread 1⟩

end LanguageClient.Frame
