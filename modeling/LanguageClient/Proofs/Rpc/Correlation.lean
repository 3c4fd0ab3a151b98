import LanguageClient.Proofs.Number.Decimal
import LanguageClient.Proofs.Rpc.Traffic
import LanguageClient.Proofs.Text.Utf8

/-! # Every call gets its own answer.

`Invariant` relates a connection at work to what was noted so far: every call
that began waits, is on its way out or has returned, and only one of these; the
ids that are expected belong to calls that were not answered; and every response
a call holds is the first that was read behind its beginning with its id on it. -/

namespace LanguageClient.Rpc

/-! ### Notes -/

def begun (notes : List Note) : List Nat :=
  notes.filterMap fun
    | .began id => some id
    | _ => none

def returned (notes : List Note) : List Nat :=
  notes.filterMap fun
    | .returned id _ => some id
    | _ => none

/-- A frame that is read behind these notes holds a response with the id of a
call that has begun. -/
def Responds (before : List Note) (body : Bytes) (id : Nat) (m : Message) : Prop :=
  .began id ∈ before ∧ parse body = .ok m ∧ m.isResponse = true ∧ m.intId = some (id : Int)

/-- A frame with a response to a call was read. -/
def Answers (notes : List Note) (id : Nat) (m : Message) : Prop :=
  ∃ before body after, notes = before ++ .received body :: after ∧ Responds before body id m

/-- A frame completes a call: it is the first one with a response to it. -/
def Completes (before : List Note) (body : Bytes) (id : Nat) (m : Message) : Prop :=
  Responds before body id m ∧ ∀ m', ¬ Answers before id m'

/-- A frame that completes a call was read. -/
def Completed (notes : List Note) (id : Nat) (m : Message) : Prop :=
  ∃ before body after, notes = before ++ .received body :: after ∧ Completes before body id m

/-- A call may end with an outcome: with the response that completed it, or with
an error that no response has caused. -/
def Rightful (notes : List Note) (id : Nat) : Outcome → Prop
  | .response m => Completed notes id m
  | .failed e => Unanswered e

section Notes

variable {notes : List Note} {id : Nat} {m : Message}

@[simp] theorem begun_began : begun (notes ++ [.began id]) = begun notes ++ [id] :=
  List.filterMap_append

@[simp] theorem begun_received (body : Bytes) : begun (notes ++ [.received body]) = begun notes := by
  simp [begun]

@[simp] theorem begun_returned (o : Outcome) : begun (notes ++ [.returned id o]) = begun notes := by
  simp [begun]

@[simp] theorem returned_began : returned (notes ++ [.began id]) = returned notes := by
  simp [returned]

@[simp] theorem returned_received (body : Bytes) :
    returned (notes ++ [.received body]) = returned notes := by
  simp [returned]

@[simp] theorem returned_returned (o : Outcome) :
    returned (notes ++ [.returned id o]) = returned notes ++ [id] :=
  List.filterMap_append

theorem begun_append (notes new : List Note) : begun (notes ++ new) = begun notes ++ begun new :=
  List.filterMap_append

theorem returned_append (notes new : List Note) :
    returned (notes ++ new) = returned notes ++ returned new :=
  List.filterMap_append

theorem mem_begun : id ∈ begun notes ↔ .began id ∈ notes := by
  unfold begun
  rw [List.mem_filterMap]
  constructor
  · rintro ⟨n, hn, hid⟩
    cases n <;> cases hid
    exact hn
  · exact fun h => ⟨_, h, rfl⟩

theorem mem_returned : id ∈ returned notes ↔ ∃ o, .returned id o ∈ notes := by
  unfold returned
  rw [List.mem_filterMap]
  constructor
  · rintro ⟨n, hn, hid⟩
    cases n <;> cases hid
    exact ⟨_, hn⟩
  · exact fun ⟨o, h⟩ => ⟨_, h, rfl⟩

theorem Completed.append (h : Completed notes id m) (new : List Note) :
    Completed (notes ++ new) id m := by
  obtain ⟨before, body, after, rfl, hrest⟩ := h
  exact ⟨before, body, after ++ new, by simp, hrest⟩

/-- What stands in a list stands at its end, or it stood there before the last one came. -/
theorem concat_eq_append_cons {α : Type} {l before after : List α} {a b : α}
    (h : l ++ [a] = before ++ b :: after) : (l = before ∧ a = b) ∨ ∃ after', l = before ++ b :: after' := by
  rcases List.eq_nil_or_concat after with rfl | ⟨after', last, rfl⟩
  · obtain ⟨hl, hab⟩ := List.append_inj' h rfl
    exact Or.inl ⟨hl, List.cons.inj hab |>.1⟩
  · rw [List.concat_eq_append, ← List.cons_append, ← List.append_assoc] at h
    exact Or.inr ⟨after', (List.append_inj' h rfl).1⟩

/-- Only a frame with a response to a call answers it anew. -/
theorem answers_concat {n : Note} (h : Answers (notes ++ [n]) id m) :
    Answers notes id m ∨ ∃ body, n = .received body ∧ parse body = .ok m ∧
      m.isResponse = true ∧ m.intId = some (id : Int) := by
  obtain ⟨before, body, after, hsplit, hbegan, hrest⟩ := h
  rcases concat_eq_append_cons hsplit with ⟨_, rfl⟩ | ⟨after', hnotes⟩
  · exact Or.inr ⟨body, rfl, hrest⟩
  · exact Or.inl ⟨before, body, after', hnotes, hbegan, hrest⟩

theorem Rightful.append {o : Outcome} (h : Rightful notes id o) (new : List Note) :
    Rightful (notes ++ new) id o := by
  cases o with
  | response m => exact Completed.append h new
  | failed e => exact h

end Notes

/-! ### The invariant -/

def Books.callIds (b : Books) : List Nat := b.calls.map (·.1)

/-- The ids of the calls that are on their way out. -/
def Books.leavingIds (b : Books) : List Nat := b.leaving.map (·.1)

/-- What holds of the calls on a connection, whatever happened. -/
structure Invariant (b : Books) (notes : List Note) : Prop where
  /-- Ids are given out in order. -/
  ids : begun notes = List.range' 1 b.issued
  /-- A call that began waits, is on its way out or has returned, -/
  accounted : ∀ id, id ∈ begun notes ↔ id ∈ b.callIds ∨ id ∈ b.leavingIds ∨ id ∈ returned notes
  /-- and only one of these. -/
  distinct : (b.callIds ++ b.leavingIds ++ returned notes).Nodup
  pendingDistinct : b.pending.Nodup
  pendingLive : ∀ id ∈ b.pending, id ∈ b.callIds ∨ id ∈ b.leavingIds
  pendingOpen : ∀ id ∈ b.pending, ∀ m, ¬ Answers notes id m
  /-- A call that waits without a response is expected to get one. -/
  expected : b.closed = false → ∀ id, (id, none) ∈ b.calls → id ∈ b.pending
  given : ∀ id m, (id, some m) ∈ b.calls → Completed notes id m
  rightful : ∀ id o, (id, o) ∈ b.leaving → Rightful notes id o
  returns : ∀ before after id o, notes = before ++ .returned id o :: after → Rightful before id o

theorem invariant_initial : Invariant {} [] where
  ids := rfl
  accounted := by simp [begun, returned, Books.callIds, Books.leavingIds]
  distinct := by simp [returned, Books.callIds, Books.leavingIds]
  pendingDistinct := List.nodup_nil
  pendingLive := by simp
  pendingOpen := by simp
  expected := by simp
  given := by simp
  rightful := by simp
  returns := by simp

namespace Invariant

variable {b : Books} {notes : List Note}

theorem not_returned (h : Invariant b notes) {id : Nat}
    (hid : id ∈ b.callIds ∨ id ∈ b.leavingIds) : id ∉ returned notes := by
  intro hr
  have hd := List.nodup_append.mp h.distinct
  exact hd.2.2 id (List.mem_append.mpr hid) id hr rfl

theorem began_of_live (h : Invariant b notes) {id : Nat}
    (hid : id ∈ b.callIds ∨ id ∈ b.leavingIds) : .began id ∈ notes := by
  rw [← mem_begun, h.accounted]
  exact hid.elim Or.inl fun hl => Or.inr (Or.inl hl)

/-- The next id was not given out. -/
theorem fresh (h : Invariant b notes) : b.issued + 1 ∉ begun notes := by
  rw [h.ids, List.mem_range'_1]
  omega

/-- A note that is no return keeps all that was said of returns. -/
theorem returns_concat (h : Invariant b notes) {n : Note} (hn : ∀ id o, n ≠ .returned id o) :
    ∀ before after id o, notes ++ [n] = before ++ .returned id o :: after → Rightful before id o := by
  intro before after id o hsplit
  rcases concat_eq_append_cons hsplit with ⟨_, he⟩ | ⟨after', hnotes⟩
  · exact absurd he (hn id o)
  · exact h.returns before after' id o hnotes

theorem shut (h : Invariant b notes) : Invariant { b with pending := [], closed := true } notes :=
  { h with
    pendingDistinct := List.nodup_nil
    pendingLive := by simp
    pendingOpen := by simp
    expected := by simp }

/-- A body that answers no pending call changes nothing. -/
theorem ignored (h : Invariant b notes) {body : Bytes}
    (hno : ∀ (m : Message) (id : Nat), parse body = .ok m → m.isResponse = true →
      m.intId = some (id : Int) → id ∉ b.pending) : Invariant b (notes ++ [.received body]) where
  ids := by rw [begun_received, h.ids]
  accounted := by rw [begun_received, returned_received]; exact h.accounted
  distinct := by rw [returned_received]; exact h.distinct
  pendingDistinct := h.pendingDistinct
  pendingLive := h.pendingLive
  pendingOpen := by
    intro id hid m ha
    rcases answers_concat ha with ha | ⟨body', he, hm, hresp, hmid⟩
    · exact h.pendingOpen id hid m ha
    · cases he
      exact hno m id hm hresp hmid hid
  expected := h.expected
  given := fun id m hm => (h.given id m hm).append _
  rightful := fun id o ho => (h.rightful id o ho).append _
  returns := h.returns_concat (by simp)

/-- A response completes the pending call with its id, which is then pending no longer. -/
theorem answered (h : Invariant b notes) {body : Bytes} {m : Message} {id : Nat}
    (hm : parse body = .ok m) (hresp : m.isResponse = true) (hid : m.intId = some (id : Int))
    (hmem : id ∈ b.pending) :
    Invariant { b with
      pending := b.pending.filter (· != id)
      calls := b.calls.map fun p => if p.1 = id then (p.1, some m) else p }
      (notes ++ [.received body]) := by
  have hids : (b.calls.map fun p => if p.1 = id then (p.1, some m) else p).map (·.1) = b.callIds := by
    rw [List.map_map, Books.callIds]
    apply List.map_congr_left
    intro p _
    rw [Function.comp_apply]
    split <;> rfl
  exact {
    ids := by rw [begun_received, h.ids]
    accounted := by
      rw [begun_received, returned_received, Books.callIds, hids]
      exact h.accounted
    distinct := by
      rw [returned_received, Books.callIds, hids]
      exact h.distinct
    pendingDistinct := h.pendingDistinct.filter _
    pendingLive := by
      rw [Books.callIds, hids]
      exact fun k hk => h.pendingLive k (List.mem_filter.mp hk).1
    -- The new frame names one call, whose id is not pending any more.
    pendingOpen := by
      intro k hk m' ha
      obtain ⟨hk, hne⟩ := List.mem_filter.mp hk
      rcases answers_concat ha with ha | ⟨body', hb, hm', _, hid'⟩
      · exact h.pendingOpen k hk m' ha
      · cases hb
        cases hm.symm.trans hm'
        rw [hid, Option.some.injEq, Int.natCast_inj] at hid'
        exact bne_iff_ne.mp hne hid'.symm
    expected := by
      intro hc k hk
      obtain ⟨p, hp, hpk⟩ := List.mem_map.mp hk
      split at hpk
      · cases hpk
      · next hne =>
          subst hpk
          exact List.mem_filter.mpr ⟨h.expected hc k hp, bne_iff_ne.mpr hne⟩
    given := by
      intro k m' hk
      obtain ⟨p, hp, hpk⟩ := List.mem_map.mp hk
      split at hpk
      · next hpid =>
          cases hpk
          rw [hpid]
          -- The call was open until this frame came, so it is the first to answer it.
          have hbegan := h.began_of_live (h.pendingLive id hmem)
          exact ⟨notes, body, [], rfl, ⟨hbegan, hm, hresp, hid⟩, h.pendingOpen id hmem⟩
      · subst hpk
        exact (h.given k m' hp).append _
    rightful := fun k o ho => (h.rightful k o ho).append _
    returns := h.returns_concat (by simp) }

/-- Only frames answer calls. -/
theorem answers_of_concat {n : Note} {id : Nat} {m : Message} (hn : ∀ body, n ≠ .received body)
    (h : Answers (notes ++ [n]) id m) : Answers notes id m := by
  rcases answers_concat h with h | ⟨body, he, _⟩
  · exact h
  · exact absurd he (hn body)

theorem began_of_answers {id : Nat} {m : Message} (h : Answers notes id m) : .began id ∈ notes := by
  obtain ⟨before, body, after, rfl, hbegan, _⟩ := h
  exact List.mem_append_left _ hbegan

/-- A new call gets the next id. -/
theorem began (h : Invariant b notes) :
    Invariant { b with
      issued := b.issued + 1
      pending := b.pending ++ [b.issued + 1]
      calls := b.calls ++ [(b.issued + 1, none)] } (notes ++ [.began (b.issued + 1)]) := by
  have hfresh := h.fresh
  have hnew := mt (h.accounted (b.issued + 1)).mpr hfresh
  have hids : (b.calls ++ [(b.issued + 1, none)]).map Prod.fst = b.callIds ++ [b.issued + 1] :=
    List.map_append
  exact {
    ids := by rw [begun_began, h.ids, List.range'_concat, Nat.one_mul, Nat.add_comm 1]
    accounted := by
      intro k
      have hk := h.accounted k
      rw [begun_began, returned_began, Books.callIds, hids]
      grind [Books.leavingIds]
    distinct := by
      have hd := h.distinct
      rw [returned_began, Books.callIds, hids]
      grind [Books.leavingIds]
    pendingDistinct := by
      have hd := h.pendingDistinct
      have hlive := h.pendingLive
      grind
    pendingLive := by
      intro k hk
      rw [Books.callIds, hids]
      rcases List.mem_append.mp hk with hk | hk
      · exact (h.pendingLive k hk).imp_left (List.mem_append_left _)
      · exact Or.inl (List.mem_append_right _ hk)
    -- Nothing can have answered the new call: its id was never given out.
    pendingOpen := by
      intro k hk m ha
      have ha := answers_of_concat (by simp) ha
      rcases List.mem_append.mp hk with hk | hk
      · exact h.pendingOpen k hk m ha
      · rw [List.mem_singleton.mp hk] at ha
        exact hfresh (mem_begun.mpr (began_of_answers ha))
    expected := by
      intro hc k hk
      rcases List.mem_append.mp hk with hk | hk
      · exact List.mem_append_left _ (h.expected hc k hk)
      · cases List.mem_singleton.mp hk
        exact List.mem_append_right _ (List.mem_singleton.mpr rfl)
    given := by
      intro k m hk
      rcases List.mem_append.mp hk with hk | hk
      · exact (h.given k m hk).append _
      · cases List.mem_singleton.mp hk
    rightful := fun k o ho => (h.rightful k o ho).append _
    returns := h.returns_concat (by simp) }

/-- A call that returns leaves the books, with an outcome that fits the response it was given. -/
theorem retired (h : Invariant b notes) {id : Nat} {given : Option Message} {o : Outcome}
    (hcall : (id, given) ∈ b.calls) (he : Ends given o) :
    Invariant { b with
      calls := b.calls.filter (·.1 != id)
      leaving := b.leaving ++ [(id, o)] } notes := by
  have hids : (b.calls.filter (·.1 != id)).map (·.1) = b.callIds.filter (· != id) := by
    rw [Books.callIds, List.filter_map]
    rfl
  have hleaving : (b.leaving ++ [(id, o)]).map (·.1) = b.leavingIds ++ [id] := List.map_append
  have hmem : id ∈ b.callIds := List.mem_map.mpr ⟨_, hcall, rfl⟩
  exact {
    ids := h.ids
    accounted := by
      intro k
      have hk := h.accounted k
      rw [Books.callIds, Books.leavingIds, hids, hleaving]
      grind
    distinct := by
      have hd := h.distinct
      rw [Books.callIds, Books.leavingIds, hids, hleaving]
      grind
    pendingDistinct := h.pendingDistinct
    pendingLive := by
      intro k hk
      have hlive := h.pendingLive k hk
      rw [Books.callIds, Books.leavingIds, hids, hleaving]
      grind
    pendingOpen := h.pendingOpen
    expected := fun hc k hk => h.expected hc k (List.mem_filter.mp hk).1
    given := fun k m hk => h.given k m (List.mem_filter.mp hk).1
    -- The outcome of a call that was given a message is made from that message.
    rightful := by
      intro k o' ho
      rcases List.mem_append.mp ho with ho | ho
      · exact h.rightful k o' ho
      · cases List.mem_singleton.mp ho
        cases he with
        | failed hu => exact hu
        | response m => exact h.given id m hcall
    returns := h.returns }

/-- So does a call that had already found out how it ends. -/
theorem left (h : Invariant b notes) {id : Nat} {o : Outcome} (hl : (id, o) ∈ b.leaving) :
    Invariant { b with
      pending := b.pending.filter (· != id)
      leaving := b.leaving.filter (·.1 != id) } (notes ++ [.returned id o]) := by
  have hleaving : (b.leaving.filter (·.1 != id)).map (·.1) = b.leavingIds.filter (· != id) := by
    rw [Books.leavingIds, List.filter_map]
    rfl
  have hmem : id ∈ b.leavingIds := List.mem_map.mpr ⟨_, hl, rfl⟩
  exact {
    ids := by rw [begun_returned, h.ids]
    accounted := by
      intro k
      have hk := h.accounted k
      rw [begun_returned, returned_returned, Books.leavingIds, hleaving]
      grind [Books.callIds]
    distinct := by
      have hd := h.distinct
      rw [returned_returned, Books.leavingIds, hleaving]
      grind [Books.callIds]
    pendingDistinct := h.pendingDistinct.filter _
    pendingLive := by
      intro k hk
      have hlive := h.pendingLive k (List.mem_filter.mp hk).1
      rw [Books.leavingIds, hleaving]
      grind [Books.callIds]
    pendingOpen := fun k hk m ha =>
      h.pendingOpen k (List.mem_filter.mp hk).1 m (answers_of_concat (by simp) ha)
    expected := by
      intro hc k hk
      have hk' : k ∈ b.callIds := List.mem_map.mpr ⟨_, hk, rfl⟩
      -- A call that waits is not one that leaves, so its own id stays pending.
      have hne : k ≠ id := by
        rintro rfl
        have hd := (List.nodup_append.mp h.distinct).1
        exact (List.nodup_append.mp hd).2.2 k hk' k hmem rfl
      exact List.mem_filter.mpr ⟨h.expected hc k hk, bne_iff_ne.mpr hne⟩
    given := fun k m hk => (h.given k m hk).append _
    rightful := fun k o' ho => (h.rightful k o' (List.mem_filter.mp ho).1).append _
    returns := by
      intro before after k o' hsplit
      rcases concat_eq_append_cons hsplit with ⟨rfl, hn⟩ | ⟨after', hnotes⟩
      · cases hn
        exact h.rightful id o hl
      · exact h.returns before after' k o' hnotes }

end Invariant

/-- **Whatever happens keeps the invariant.** -/
theorem Shift.invariant {b b' : Books} {notes new : List Note} (hs : Shift b new b')
    (h : Invariant b notes) : Invariant b' (notes ++ new) := by
  cases hs with
  | quiet => rw [List.append_nil]; exact h
  | shut => rw [List.append_nil]; exact h.shut
  | ignored unexpected => exact h.ignored unexpected
  | answered read response named expected => exact h.answered read response named expected
  | began => exact h.began
  | retired here ends => rw [List.append_nil]; exact h.retired here ends
  | returned here => exact h.left here

/-! ### Runs -/

/-- **The invariant holds whatever moves are made.** -/
theorem play?_invariant {moves : List Move} {σ τ : Traffic} {notes new : List Note}
    (h : Traffic.play? moves σ = some (τ, new)) (hi : Invariant σ.books notes) :
    Invariant τ.books (notes ++ new) := by
  induction moves generalizing σ notes new with
  | nil =>
      cases h
      rw [List.append_nil]
      exact hi
  | cons m moves ih =>
      obtain ⟨⟨υ, first⟩, hm, h⟩ := Option.bind_eq_some_iff.mp h
      obtain ⟨⟨τ', rest⟩, hrest, he⟩ := Option.map_eq_some_iff.mp h
      cases he
      obtain ⟨b, hnoted, hquiet⟩ := step?_shifts hm
      have hυ : Invariant υ.books (notes ++ first) := by
        have := hquiet.invariant (hnoted.invariant hi)
        rwa [List.append_nil] at this
      rw [← List.append_assoc]
      exact ih hrest hυ

theorem invariant_of_opened {hasCloser : Bool} {moves : List Move} {σ : Traffic} {notes : List Note}
    (h : Traffic.play? moves (.opened hasCloser) = some (σ, notes)) : Invariant σ.books notes :=
  play?_invariant h invariant_initial

/-- Once everything has settled, the calls that have not returned are those
whose response is expected. -/
theorem Invariant.pending_iff {σ : Traffic} {notes : List Note} (h : Invariant σ.books notes)
    (hs : σ.Settled) (id : Nat) :
    id ∈ σ.connection.pending ↔ .began id ∈ notes ∧ ∀ o, .returned id o ∉ notes := by
  have hleaving : σ.books.leavingIds = [] := congrArg (List.map Prod.fst) hs.leaving
  have hbegan := h.accounted id
  rw [hleaving, mem_begun, mem_returned] at hbegan
  constructor
  · intro hid
    have hlive := h.pendingLive id hid
    exact ⟨h.began_of_live hlive, fun o ho => h.not_returned hlive (mem_returned.mpr ⟨o, ho⟩)⟩
  · rintro ⟨hb, hr⟩
    have hcall : id ∈ σ.books.callIds := by grind
    -- A call that cannot return has no response, and the connection is not closed.
    obtain ⟨⟨_, given⟩, hp, rfl⟩ := List.mem_map.mp hcall
    obtain ⟨w, hw, he⟩ := List.mem_map.mp hp
    cases he
    obtain ⟨_, hopen, hnone⟩ := Connection.ready_eq_nil.mp (hs.calls w hw)
    rw [hnone] at hp
    exact h.expected hopen w.id hp

/-! ### What comes from the server -/

/-- What a call gave its caller is a result, an error of the server, or that the
result could not be read. -/
inductive FromServer (o : Outcome) : Prop where
  | done (h : o.done = .ok ())
  | refused {e : RpcError} (h : o.done = .error (.rpc e))
  | result {α : Type} {d : Json.Decoder α} {zero value : α} {method : String}
      (h : o.read d zero method = .ok value)
  | error {α : Type} {d : Json.Decoder α} {zero : α} {method : String} {e : RpcError}
      (h : o.read d zero method = .error (.rpc e))
  | unreadable {α : Type} {d : Json.Decoder α} {zero : α} {method : String} {e : Error}
      (h : o.read d zero method = .error (.context ("unmarshal " ++ method ++ " result") e))

theorem unanswered_ne_rpc {e : Error} (h : Unanswered e) (r : RpcError) : e ≠ .rpc r := by
  cases h <;> exact fun he => by cases he

theorem unanswered_ne_unmarshal {e : Error} (h : Unanswered e) (method : String) (e' : Error) :
    e ≠ .context ("unmarshal " ++ method ++ " result") e' := by
  cases h with
  | condition c => exact fun he => by cases he
  | send method' e =>
      intro he
      injection he with htext _ _
      have hchars := congrArg String.toList htext
      simp at hchars

/-- Only a response gives a caller something from the server. -/
theorem FromServer.exists_response {notes : List Note} {id : Nat} {o : Outcome} (h : FromServer o)
    (hr : Rightful notes id o) : ∃ m, o = .response m ∧ Completed notes id m := by
  cases o with
  | response m => exact ⟨m, rfl, hr⟩
  | failed e =>
      exfalso
      cases h with
      | done h => cases h
      | refused h => exact unanswered_ne_rpc hr _ (Except.error.inj h)
      | result h => cases h
      | error h => exact unanswered_ne_rpc hr _ (Except.error.inj h)
      | unreadable h => exact unanswered_ne_unmarshal hr _ _ (Except.error.inj h)

/-! ### Responses that nobody waits for -/

def integerOctets : Bytes := utf8 "+-0123456789"

/-- A response that answers no call that waits for one. -/
inductive Stray (notes : List Note) (m : Message) : Prop where
  /-- The id is a string, a fraction or null, or there is none. -/
  | foreign (h : ∀ raw, m.id = some raw → ∃ b ∈ raw, b.toNat < 0x80 ∧ b ∉ integerOctets)
  /-- No call has the id. -/
  | unknown {id : Int} (hid : m.intId = some id) (h : ∀ n : Nat, (n : Int) = id → .began n ∉ notes)
  /-- The call with the id was answered. -/
  | answered {id : Nat} {m' : Message} (hid : m.intId = some (id : Int)) (h : Answers notes id m')
  /-- The call with the id has returned, as one that was cancelled has. -/
  | returned {id : Nat} {o : Outcome} (hid : m.intId = some (id : Int))
      (h : .returned id o ∈ notes)

/-- Characters of integers are ASCII. -/
theorem mem_integerOctets {b : UInt8} (hb : b.toNat < 0x80)
    (h : Char.ofNat b.toNat = '-' ∨ Char.ofNat b.toNat = '+' ∨ (Char.ofNat b.toNat).isDigit = true) :
    b ∈ integerOctets := by
  have hall : ∀ n : Fin 0x80, Char.ofNat n = '-' ∨ Char.ofNat n = '+' ∨
      (Char.ofNat n).isDigit = true → UInt8.ofNat n ∈ integerOctets := by decide +kernel
  have hmem := hall ⟨b.toNat, hb⟩ h
  rwa [UInt8.ofNat_toNat] at hmem

/-- An id with an octet that is in no integer is no integer. -/
theorem intId_eq_none {m : Message}
    (h : ∀ raw, m.id = some raw → ∃ b ∈ raw, b.toNat < 0x80 ∧ b ∉ integerOctets) :
    m.intId = none := by
  unfold Message.intId
  cases hid : m.id with
  | none => rfl
  | some raw =>
      obtain ⟨b, hb, hlow, hno⟩ := h raw hid
      rw [Option.bind_some, Option.eq_none_iff_forall_ne_some]
      intro n hn
      have hchar := Number.mem_of_int64? hn (Utf8.mem_decode_of_ascii hb hlow)
      exact hno (mem_integerOctets hlow hchar)

/-- **A stray response changes nothing.** -/
theorem Stray.dispatch {σ : Traffic} {notes : List Note} {m : Message} (h : Stray notes m)
    (hi : Invariant σ.books notes) (hm : m.isResponse = true) :
    σ.connection.dispatch m = (σ.connection, []) := by
  rw [Connection.dispatch_response hm, Connection.deliver_unexpected]
  intro id hid hmem
  have hlive := hi.pendingLive id hmem
  cases h with
  | foreign h => rw [intId_eq_none h] at hid; cases hid
  | unknown hid' h =>
      rw [hid', Option.some.injEq] at hid
      exact h id hid.symm (hi.began_of_live hlive)
  | answered hid' h =>
      rw [hid', Option.some.injEq, Int.natCast_inj] at hid
      exact hi.pendingOpen id hmem _ (hid ▸ h)
  | returned hid' h =>
      rw [hid', Option.some.injEq, Int.natCast_inj] at hid
      exact hi.not_returned hlive (mem_returned.mpr ⟨_, hid ▸ h⟩)

/-- A stray response is read, and nothing comes of it. -/
theorem Stray.readStep {σ : Traffic} {notes : List Note} {body : Bytes} {m : Message}
    (h : Stray notes m) (hi : Invariant σ.books notes) (hm : m.isResponse = true)
    (hframe : σ.connection.frame? = some body) (hparse : parse body = .ok m)
    (hloop : σ.connection.loopDone = false) :
    σ.connection.readStep = some (σ.connection.consume.loopTop, []) := by
  have hread : (Frame.read σ.connection.stream).outcome = .ok body := by
    unfold Connection.frame? at hframe
    cases ho : (Frame.read σ.connection.stream).outcome with
    | error e => rw [ho] at hframe; cases hframe
    | ok body' => rw [ho] at hframe; cases hframe; rfl
  have hdispatch : σ.connection.consume.dispatch m = (σ.connection.consume, []) :=
    h.dispatch (σ := σ.change Connection.consume) hi hm
  unfold Connection.readStep
  rw [if_neg (by rw [hloop]; decide)]
  simp only [hread, hparse]
  exact congrArg (fun r => some (r.1.loopTop, r.2)) hdispatch

/-- **Calls and responses belong together**, whatever happens on a connection.
The ids are 1, 2, 3, … in this order. Whenever everything has settled, the ids
that are expected are those of the calls that began and have not returned. No
call returns twice. A call that gives its caller something from the server does
so because of the first frame with a response to it, which was read behind its
beginning, and no frame completes two calls. A stray response is taken off the
stream and has no other effect. -/
theorem calls_correlate {hasCloser : Bool} {moves : List Move} {σ : Traffic} {notes : List Note}
    (h : Traffic.play? moves (.opened hasCloser) = some (σ, notes)) :
    begun notes = List.range' 1 σ.connection.issued ∧
    (σ.Settled → σ.connection.pending.Nodup ∧
      ∀ id, id ∈ σ.connection.pending ↔ .began id ∈ notes ∧ ∀ o, .returned id o ∉ notes) ∧
    (returned notes).Nodup ∧
    (∀ before id o after, notes = before ++ .returned id o :: after → FromServer o →
      ∃ m, o = .response m ∧ Completed before id m) ∧
    (∀ before body after id id' m m', notes = before ++ .received body :: after →
      Completes before body id m → Completes before body id' m' → id = id') ∧
    ∀ body m, σ.connection.frame? = some body → parse body = .ok m → m.isResponse = true →
      Stray notes m → σ.connection.loopDone = false →
      σ.connection.readStep = some (σ.connection.consume.loopTop, []) := by
  have hi := invariant_of_opened h
  refine ⟨hi.ids, ?_, ?_, ?_, ?_, ?_⟩
  · exact fun hs => ⟨hi.pendingDistinct, hi.pending_iff hs⟩
  · exact (List.nodup_append.mp hi.distinct).2.1
  · exact fun before id o after hsplit hserver =>
      hserver.exists_response (hi.returns before after id o hsplit)
  · rintro before body after id id' m m' - ⟨⟨_, hm, _, hid⟩, _⟩ ⟨⟨_, hm', _, hid'⟩, _⟩
    cases hm.symm.trans hm'
    rw [hid, Option.some.injEq, Int.natCast_inj] at hid'
    exact hid'
  · exact fun body m hframe hparse hm hstray hloop => hstray.readStep hi hm hframe hparse hloop

/-- Two calls are made, the first is answered and returns, and then a response
comes whose id is a string. -/
def answeredMoves : List Move :=
  [.begin none, .send 1 "initialize" .absent, .begin none, .send 2 "shutdown" .absent,
    .arrive (Frame.encode (utf8 "\x7b\"jsonrpc\":\"2.0\",\"id\":1,\"result\":7\x7d")), .read,
    .wake 1 0, .leave 1,
    .arrive (Frame.encode (utf8 "\x7b\"jsonrpc\":\"2.0\",\"id\":\"2\",\"result\":7\x7d"))]

/-- The call that has just returned without an error. -/
def lastDone? (notes : List Note) : Option Nat :=
  notes.getLast?.bind fun
    | .returned id o => if o.done.isOk then some id else none
    | _ => none

/-- The id of the response at the front of the stream. -/
def nextId? (c : Connection) : Option Bytes :=
  c.frame?.bind fun body => ((parse body).toOption.filter (·.isResponse)).bind (·.id)

theorem answeredMoves_played :
    ∃ p, Traffic.play? answeredMoves (.opened true) = some p ∧
      (p.1.connection.pending, p.1.connection.loopDone, lastDone? p.2, nextId? p.1.connection) =
        ([2], false, some 1, some (utf8 "\"2\"")) :=
  Option.map_eq_some_iff.mp (by decide +kernel)

/-- The second call still waits when the response with the string is taken off
the stream. -/
theorem answeredMoves_correlate :
    ∃ σ notes, Traffic.play? answeredMoves (.opened true) = some (σ, notes) ∧
      (∃ before o m, notes = before ++ [.returned 1 o] ∧ Completed before 1 m) ∧
      σ.connection.pending = [2] ∧
      σ.connection.readStep = some (σ.connection.consume.loopTop, []) := by
  obtain ⟨⟨σ, notes⟩, hp, hfacts⟩ := answeredMoves_played
  obtain ⟨hpending, hfacts⟩ := Prod.mk.inj hfacts
  obtain ⟨hloop, hfacts⟩ := Prod.mk.inj hfacts
  obtain ⟨hlast, hnext⟩ := Prod.mk.inj hfacts
  obtain ⟨_, _, _, hserver, _, hstray⟩ := calls_correlate hp
  refine ⟨σ, notes, hp, ?_, hpending, ?_⟩
  · obtain ⟨n, hn, hlast⟩ := Option.bind_eq_some_iff.mp hlast
    cases n with
    | returned id o =>
        obtain ⟨hdone, hid⟩ := Option.ite_none_right_eq_some.mp hlast
        cases hid
        obtain ⟨before, hsplit⟩ := List.getLast?_eq_some_iff.mp hn
        have hok : o.done = .ok () := by
          cases hd : o.done with
          | ok _ => rfl
          | error e => rw [hd] at hdone; cases hdone
        obtain ⟨m, _, hm⟩ := hserver _ _ _ [] hsplit (.done hok)
        exact ⟨before, o, m, hsplit, hm⟩
    | began id => cases hlast
    | received body => cases hlast
  -- The second response, whose id is a string, is nobody's.
  · obtain ⟨body, hframe, hnext⟩ := Option.bind_eq_some_iff.mp hnext
    obtain ⟨m, hm, hid⟩ := Option.bind_eq_some_iff.mp hnext
    obtain ⟨hparse, hresp⟩ := Option.filter_eq_some_iff.mp hm
    have hok : parse body = .ok m := by
      cases hd : parse body with
      | ok m' => rw [hd] at hparse; cases hparse; rfl
      | error e => rw [hd] at hparse; cases hparse
    refine hstray body m hframe hok hresp (.foreign ?_) hloop
    intro raw hraw
    rw [hid, Option.some.injEq] at hraw
    exact ⟨0x22, by rw [← hraw]; decide, by decide, by decide⟩

end LanguageClient.Rpc
