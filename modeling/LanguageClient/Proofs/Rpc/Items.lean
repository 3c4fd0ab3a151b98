import LanguageClient.Proofs.Rpc.Grammar
import LanguageClient.Proofs.Rpc.Noise

/-! # What a stream carries.

A stream is a sequence of items, each a message in its frame or noise, up to where no
item stands any more: at its end, or at headers that no reader can go on behind.
`Carries` says which messages a stream carries so, without a reader.

Every read of a stream that is not empty takes something off it (`exists_used`). What
is taken off so that reading goes on is an item (`exists_item`), and every item is taken
off as it stands (`Item.read_append`). So every stream carries messages, and one sequence
of them only (`exists_carries`, `Carries.unique`). -/

namespace LanguageClient

namespace Frame

/-- Whether an error stays what it is when more arrives. -/
def Fatal : ReadError → Prop
  | .badLength _ | .tooLarge _ => True
  | _ => False

/-- A body that is too large is so whatever stands behind it. -/
theorem readBody_append_of_fatal {length : Int} {stream : Bytes} {e : ReadError}
    (h : (readBody length stream).outcome = .error e) (he : Fatal e) (more : Bytes) :
    (readBody length (stream ++ more)).outcome = .error e := by
  unfold readBody at h ⊢
  split at h
  · cases h
    exact he.elim
  · next hpos =>
      rw [if_neg hpos]
      split at h
      · next hlarge =>
          rw [if_pos hlarge]
          exact h
      · simp only at h
        split at h
        · cases h
        · split at h <;> cases h <;> exact he.elim

/-- A fatal error stays what it is when more arrives. -/
theorem readHeaders_append_of_fatal {fuel fuel' : Nat} (hfuel : fuel ≤ fuel') {length : Int}
    {stream : Bytes} {e : ReadError} (h : (readHeaders fuel length stream).outcome = .error e)
    (he : Fatal e) (more : Bytes) : (readHeaders fuel' length (stream ++ more)).outcome = .error e := by
  induction fuel generalizing fuel' length stream with
  | zero =>
      cases h
      exact he.elim
  | succ fuel ih =>
      obtain ⟨fuel', rfl⟩ : ∃ n, fuel' = n + 1 := ⟨fuel' - 1, by omega⟩
      -- A line that is not there may come with more octets.
      cases hsplit : splitLine stream with
      | none =>
          simp only [readHeaders, hsplit] at h
          cases h
          exact he.elim
      | some p =>
          obtain ⟨line, rest⟩ := p
          obtain ⟨rfl, hline⟩ := splitLine_eq_some hsplit
          rw [List.append_assoc, List.cons_append]
          simp only [readHeaders, hsplit, splitLine_append hline] at h ⊢
          -- The line is the same, so the verdict on it is too.
          cases hread : readLine line <;> simp only [hread] at h ⊢
          case blank => exact readBody_append_of_fatal h he more
          case badLength => exact h
          all_goals exact ih (by omega) h

theorem read_append_of_fatal {stream : Bytes} {e : ReadError} (h : (read stream).outcome = .error e)
    (he : Fatal e) (more : Bytes) : (read (stream ++ more)).outcome = .error e :=
  readHeaders_append_of_fatal (by simp) h he more

theorem readBody_rest_suffix (length : Int) (stream : Bytes) :
    (readBody length stream).rest <:+ stream := by
  unfold readBody
  simp only
  repeat' split
  all_goals first | exact List.suffix_refl _ | exact List.drop_suffix _ _ | exact List.nil_suffix

/-- What a read leaves is an end of the stream. -/
theorem readHeaders_rest_suffix (fuel : Nat) (length : Int) (stream : Bytes) :
    (readHeaders fuel length stream).rest <:+ stream := by
  induction fuel generalizing length stream with
  | zero => exact List.nil_suffix
  | succ fuel ih =>
      cases hsplit : splitLine stream with
      | none =>
          simp only [readHeaders, hsplit]
          exact List.nil_suffix
      | some p =>
          obtain ⟨line, rest⟩ := p
          obtain ⟨rfl, -⟩ := splitLine_eq_some hsplit
          have hrest : rest <:+ line ++ 0x0A :: rest := ⟨line ++ [0x0A], by simp⟩
          simp only [readHeaders, hsplit]
          cases readLine line
          case blank => exact (readBody_rest_suffix length rest).trans hrest
          case badLength => exact hrest
          all_goals exact (ih _ rest).trans hrest

/-- **A read of a stream that is not empty takes something off it**, whatever it gives. -/
theorem exists_used {stream : Bytes} (h : stream ≠ []) :
    ∃ used ≠ [], stream = used ++ (read stream).rest := by
  obtain ⟨used, hused⟩ := readHeaders_rest_suffix (stream.length + 1) (-1) stream
  refine ⟨used, ?_, hused.symm⟩
  rintro rfl
  have hall : (read stream).rest = stream := hused
  have hlt := length_read h
  rw [hall] at hlt
  exact absurd hlt (Nat.lt_irrefl _)

/-- Behind headers reading goes on if there is no body to be read, or all of it is there. -/
theorem readBody_cases {length : Int} {stream : Bytes} (h : Passable (readBody length stream).outcome) :
    length ≤ 0 ∧ readBody length stream = ⟨.error .missingLength, stream⟩ ∨
      ∃ body rest, readBody length stream = ⟨.ok body, rest⟩ := by
  unfold readBody at h ⊢
  split at h
  · next hpos => exact Or.inl ⟨hpos, if_pos hpos⟩
  · next hpos =>
      rw [if_neg hpos]
      split at h
      · exact h.elim
      · next hlarge =>
          rw [if_neg hlarge]
          simp only at h ⊢
          split at h
          · next hlength => exact Or.inr ⟨_, _, if_pos hlength⟩
          · split at h <;> exact h.elim

end Frame

namespace Rpc

/-! ### What a stream carries -/

/-- What can stand in a stream so that a reader goes on behind it, with the message that it is. -/
inductive Item : Bytes → Option Message → Prop where
  /-- A body that is a message, behind headers that give its length. -/
  | message {block body : Bytes} {m : Message} (head : Frame.HeaderBlock none (some body.length) block)
      (ne : body ≠ []) (size : body.length ≤ Frame.maxSize) (good : parse body = .ok m) :
      Item (block ++ body) (some m)
  | noise {front : Bytes} (h : Noise front) : Item front none

/-- The messages that a stream carries, up to where no item stands in it. -/
inductive Carries : Bytes → List Message → Prop where
  | item {front rest : Bytes} {m : Option Message} {ms : List Message} (h : Item front m)
      (behind : Carries rest ms) : Carries (front ++ rest) (m.toList ++ ms)
  | stop {stream : Bytes} (h : ∀ front rest m, stream = front ++ rest → ¬ Item front m) :
      Carries stream []

/-- An item is taken off a stream as it stands there. -/
theorem Item.read_append {front : Bytes} {m : Option Message} (h : Item front m) (rest : Bytes) :
    ∃ outcome, Frame.read (front ++ rest) = ⟨outcome, rest⟩ ∧ Frame.Passable outcome ∧
      said? outcome = m := by
  cases h with
  | @message block body m head ne size good =>
      refine ⟨.ok body, ?_, trivial, ?_⟩
      · rw [List.append_assoc, head.read_append]
        exact Frame.readBody_append ne size _
      · simp only [said?, Except.toOption, Option.bind_some, good]
  | noise h => exact h.read_append rest

/-- Whatever is taken off a stream so that reading goes on is an item. -/
theorem exists_item {stream : Bytes} (h : Frame.Passable (Frame.read stream).outcome) :
    ∃ front, stream = front ++ (Frame.read stream).rest ∧
      Item front (said? (Frame.read stream).outcome) := by
  -- The header block comes first, and its end is where the body begins.
  obtain ⟨block, last, rest, rfl, hblock, hread⟩ := @Frame.exists_headerBlock _ none _ h
  change Frame.read (block ++ rest) = _ at hread
  rw [hread] at h ⊢
  rcases Frame.readBody_cases h with ⟨hzero, hbody⟩ | ⟨body, behind, hbody⟩
  · rw [hbody]
    refine ⟨block, rfl, .noise ?_⟩
    obtain ⟨-, -, -, -, ⟨rfl, -⟩ | ⟨n, rfl, -⟩⟩ := hblock.headers
    · exact .unlabelled hblock
    -- A length of zero is no message.
    · obtain rfl : n = 0 := Int.ofNat_eq_zero.mp (Int.le_antisymm hzero (Int.natCast_nonneg n))
      exact .empty hblock
  · obtain ⟨rfl, hlength, hpos, hsize⟩ := Frame.readBody_eq_ok.mp hbody
    rw [hbody]
    refine ⟨block ++ body, (List.append_assoc ..).symm, ?_⟩
    have hne : body ≠ [] := List.length_pos_iff.mp hpos
    obtain rfl : last = some (body.length : Int) := by
      cases last with
      | none => simp only [Frame.lengthOf, Option.getD_none] at hlength; omega
      | some n => exact congrArg some hlength
    cases hparse : parse body with
    | ok m =>
        simp only [said?, Except.toOption, Option.bind_some, hparse]
        exact .message hblock hne hsize hparse
    | error e =>
        simp only [said?, Except.toOption, Option.bind_some, hparse]
        exact .noise (.unparsed hblock hne hsize hparse)

/-- Where reading does not go on, there is no item. -/
theorem carries_nil {stream : Bytes} (h : ¬ Frame.Passable (Frame.read stream).outcome) :
    Carries stream [] := by
  refine .stop fun front rest m hstream hitem => h ?_
  obtain ⟨outcome, hread, hpass, -⟩ := hitem.read_append rest
  rw [hstream, hread]
  exact hpass

/-- Every stream carries some messages. -/
theorem exists_carries (stream : Bytes) : ∃ ms, Carries stream ms := by
  induction hn : stream.length using Nat.strongRecOn generalizing stream with
  | ind n ih =>
      by_cases hpass : Frame.Passable (Frame.read stream).outcome
      · have hne : stream ≠ [] := by
          rintro rfl
          exact hpass
        obtain ⟨front, hstream, hitem⟩ := exists_item hpass
        obtain ⟨ms, hms⟩ := ih _ (hn ▸ Frame.length_read hne) (Frame.read stream).rest rfl
        rw [hstream]
        exact ⟨_, .item hitem hms⟩
      · exact ⟨[], carries_nil hpass⟩

/-- **A stream carries one sequence of messages.** -/
theorem Carries.unique {stream : Bytes} {ms ms' : List Message} (h : Carries stream ms)
    (h' : Carries stream ms') : ms' = ms := by
  induction h generalizing ms' with
  | @item front rest m ms hitem _ ih =>
      obtain ⟨outcome, hread, -, rfl⟩ := hitem.read_append rest
      generalize hall : front ++ rest = stream at h' hread
      cases h' with
      | @item front' rest' m' ms' hitem' hbehind =>
          obtain ⟨outcome', hread', -, rfl⟩ := hitem'.read_append rest'
          obtain ⟨rfl, rfl⟩ := Frame.ReadResult.mk.inj (hread.symm.trans hread')
          rw [ih hbehind]
      | stop hnone => exact absurd hitem (hnone front rest _ hall.symm)
  | stop hnone =>
      cases h' with
      | item hitem _ => exact absurd hitem (hnone _ _ _ rfl)
      | stop => rfl

end Rpc

end LanguageClient
