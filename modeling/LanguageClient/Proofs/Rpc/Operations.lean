import LanguageClient.Proofs.Rpc.Correlation
import LanguageClient.Proofs.Rpc.Framing

/-! # Operations are moves.

An operation on a connection leads from one settled state to the next and hides
the moves in between. Here it is taken apart again: every operation is a number
of moves that ends settled, the first of which is made by somebody and the others
come of it (`Plays`), and the calls that return in it are those that the moves note
(`perform_simulated`). What holds of all moves therefore holds of all operations
(`pending_performAll`). -/

namespace LanguageClient.Rpc

/-- What can be asked of a connection, and what can happen to it. -/
inductive Operation where
  | handle (method : String) (h : Handler)
  | call (method : String) (params : Params) (abandoned : Option Condition)
  | notify (method : String) (params : Params) (abandoned : Option Condition)
  | abandon (id : Nat) (why : Condition)
  | receive (bytes : Bytes)
  | hangup
  | cancelLoop
  | close
  | limit (left : Option Nat)

namespace Connection

/-- Does an operation. A call that fails at once returns in it, if it got an id. -/
def perform (c : Connection) : Operation → Connection × List Effect
  | .handle method h => (c.handle method h, [])
  | .call method params abandoned =>
    match c.call method params abandoned with
    | (c', effects, .ok _) => (c', effects)
    | (c', effects, .error e) =>
      (c', effects ++ if c.closed then [] else [.returned (c.issued + 1) (.failed e)])
  | .notify method params abandoned =>
    let (c, effects, _) := c.notify method params abandoned
    (c, effects)
  | .abandon id why => c.abandon id why
  | .receive bytes => c.receive bytes
  | .hangup => c.hangup
  | .cancelLoop => (c.cancelLoop, [])
  | .close => c.close
  | .limit left => ({ c with writer := { c.writer with left } }, [])

def performAll (c : Connection) : List Operation → Connection × List Effect
  | [] => (c, [])
  | op :: ops =>
    let (c, effects) := c.perform op
    let (c, more) := c.performAll ops
    (c, effects ++ more)

/-- A connection with no call on its way in or out. -/
def atRest (c : Connection) : Traffic := { connection := c }

end Connection

/-! ### Sequences of moves -/

/-- Moves that are due lead from one state to another. -/
def Plays (σ : Traffic) (notes : List Note) (τ : Traffic) : Prop :=
  ∃ moves, Traffic.paced? moves σ = some (τ, notes)

theorem Plays.refl (σ : Traffic) : Plays σ [] σ := ⟨[], rfl⟩

theorem Plays.cons {σ τ υ : Traffic} {m : Move} {notes more : List Note} (hdue : σ.Due m)
    (h : σ.step? m = some (τ, notes)) (h' : Plays τ more υ) : Plays σ (notes ++ more) υ := by
  obtain ⟨moves, hmoves⟩ := h'
  exact ⟨m :: moves, Traffic.paced?_cons_eq_some.mpr ⟨τ, notes, more, hdue, h, hmoves, rfl⟩⟩

theorem Plays.one {σ τ : Traffic} {m : Move} {notes : List Note} (hdue : σ.Due m)
    (h : σ.step? m = some (τ, notes)) : Plays σ notes τ := by
  have := Plays.cons hdue h (Plays.refl τ)
  rwa [List.append_nil] at this

theorem Plays.trans {σ τ υ : Traffic} {notes more : List Note} (h : Plays σ notes τ)
    (h' : Plays τ more υ) : Plays σ (notes ++ more) υ := by
  obtain ⟨moves, hmoves⟩ := h
  induction moves generalizing σ notes with
  | nil => cases hmoves; exact h'
  | cons m moves ih =>
      obtain ⟨ρ, first, rest, hdue, hm, hplay, rfl⟩ := Traffic.paced?_cons_eq_some.mp hmoves
      rw [List.append_assoc]
      exact Plays.cons hdue hm (ih hplay)

theorem Plays.invariant {σ τ : Traffic} {notes new : List Note} (h : Plays σ new τ)
    (hi : Invariant σ.books notes) : Invariant τ.books (notes ++ new) := by
  obtain ⟨moves, hmoves⟩ := h
  exact play?_invariant (Traffic.play?_of_paced? hmoves) hi

/-! ### The read loop

Every round takes something off the stream or is the last one. -/

namespace Connection

/-- The read loop has ended, or it waits for octets. -/
theorem readStep_eq_none {c : Connection} :
    c.readStep = none ↔
      c.loopDone = true ∨ ∃ e, (Frame.read c.stream).outcome = .error e ∧ c.isBlocked e = true := by
  constructor
  · intro h
    unfold readStep at h
    split at h
    · next hdone => exact Or.inl hdone
    · simp only at h
      split at h
      · next e he =>
          split at h
          · next hb => exact Or.inr ⟨e, he, hb⟩
          · split at h <;> cases h
      · split at h <;> cases h
  · rintro (hdone | ⟨e, he, hb⟩)
    · rw [readStep, if_pos hdone]
    · simp only [readStep, he, hb, if_true, ite_self]

/-- How much there is left for the read loop to do. -/
def workLeft (c : Connection) : Nat := if c.loopDone then 0 else c.stream.length + 1

theorem workLeft_loopTop (c : Connection) : c.loopTop.workLeft ≤ c.workLeft := by
  unfold loopTop
  repeat' split
  all_goals simp [workLeft]

theorem workLeft_dispatch (m : Message) (c : Connection) : (c.dispatch m).1.workLeft = c.workLeft := by
  obtain ⟨pending, waiting, writer, hc⟩ := exists_dispatch m c
  rw [hc]
  rfl

/-- Every round takes something off the stream, or is the last one. -/
theorem workLeft_readStep {c c' : Connection} {es : List Effect} (h : c.readStep = some (c', es)) :
    c'.workLeft < c.workLeft := by
  have hloop : c.loopDone = false := by
    cases hdone : c.loopDone with
    | false => rfl
    | true =>
        rw [readStep_eq_none.mpr (Or.inl hdone)] at h
        cases h
  -- A round that does not end the loop has consumed something.
  have hconsume : (Frame.read c.stream).outcome ≠ .error .endOfStream →
      c.consume.workLeft < c.workLeft := by
    intro hne
    have hstream : c.stream ≠ [] := fun hnil => hne (by rw [hnil]; rfl)
    have hlt := Frame.length_read hstream
    simp only [workLeft, consume, hloop, Bool.false_eq_true, if_false]
    omega
  cases readStep_round h with
  | skipped read =>
      exact Nat.lt_of_le_of_lt (workLeft_loopTop _) (hconsume (by simp [read]))
  -- This one ends the loop, and an ended loop has no work left.
  | broken read => simp [workLeft, hloop]
  | unparsed read parsed =>
      exact Nat.lt_of_le_of_lt (workLeft_loopTop _) (hconsume (by simp [read]))
  | acted read parsed =>
      refine Nat.lt_of_le_of_lt (workLeft_loopTop _) ?_
      rw [workLeft_dispatch]
      exact hconsume (by simp [read])

/-- With enough rounds the read loop goes on until it has to wait. -/
theorem readAll_blocked {fuel : Nat} {c : Connection} (h : c.workLeft ≤ fuel) :
    (readAll fuel c).1.readStep = none := by
  induction fuel generalizing c with
  | zero =>
      have hdone : c.loopDone = true := by
        unfold workLeft at h
        split at h
        · assumption
        · omega
      exact readStep_eq_none.mpr (Or.inl hdone)
  | succ fuel ih =>
      unfold readAll
      cases hstep : c.readStep with
      | none => exact hstep
      | some r =>
          obtain ⟨c', es⟩ := r
          have hlt := workLeft_readStep hstep
          exact ih (by omega)

theorem not_returned_of_readStep {c c' : Connection} {es : List Effect}
    (h : c.readStep = some (c', es)) (id : Nat) (o : Outcome) : .returned id o ∉ es := by
  cases readStep_round h with
  | @acted body m read parsed =>
      cases hk : m.kind <;> simp only [dispatch, hk, send]
      case request => split <;> simp
      case notification => split <;> simp
      all_goals simp
  | _ => simp

/-- The rounds of the read loop are moves, and no call returns in them. -/
theorem readAll_plays (fuel : Nat) (c : Connection) :
    ∃ notes, Plays c.atRest notes (readAll fuel c).1.atRest ∧ (∀ id o, .returned id o ∉ notes) ∧
      ∀ id o, .returned id o ∉ (readAll fuel c).2 := by
  induction fuel generalizing c with
  | zero => exact ⟨[], Plays.refl _, by simp, by simp [readAll]⟩
  | succ fuel ih =>
      unfold readAll
      cases hstep : c.readStep with
      | none => exact ⟨[], Plays.refl _, by simp, by simp⟩
      | some r =>
          obtain ⟨c', es⟩ := r
          obtain ⟨notes, hplays, hnotes, heffects⟩ := ih c'
          have hmove : c.atRest.step? .read = some (c'.atRest, c.frame?.toList.map .received) := by
            simp only [Traffic.step?, atRest, hstep, Option.map_some]
          refine ⟨_, Plays.cons (Or.inl rfl) hmove hplays, ?_, ?_⟩
          · simpa using hnotes
          · intro id o ho
            rcases List.mem_append.mp ho with ho | ho
            · exact not_returned_of_readStep hstep id o ho
            · exact heffects id o ho

/-! ### Calls that return -/

theorem call?_of_mem {c : Connection} {w : Waiting} (h : (c.waiting.map (·.id)).Nodup)
    (hw : w ∈ c.waiting) : c.call? w.id = some w := by
  unfold call?
  generalize c.waiting = l at h hw
  induction l with
  | nil => cases hw
  | cons v l ih =>
      rw [List.map_cons, List.nodup_cons] at h
      rcases List.mem_cons.mp hw with rfl | hw
      · rw [List.find?_cons_of_pos (by simp)]
      · have hne : v.id ≠ w.id := fun he => h.1 (he ▸ List.mem_map_of_mem hw)
        rw [List.find?_cons_of_neg (by simpa using hne)]
        exact ih h.2 hw

def without (gone : Nat → Bool) (c : Connection) : Connection :=
  { c with
    waiting := c.waiting.filter fun w => !gone w.id
    pending := c.pending.filter fun id => !gone id }

theorem without_none (c : Connection) : c.without (fun _ => false) = c := by
  simp only [without, Bool.not_false, List.filter_eq_self.mpr fun _ _ => rfl]

theorem without_without (p q : Nat → Bool) (c : Connection) :
    (c.without p).without q = c.without fun id => p id || q id := by
  simp only [without, List.filter_filter, Bool.not_or, Bool.and_comm]

/-- Other calls are still there. -/
theorem call?_without {c : Connection} {gone : Nat → Bool} {id : Nat} (h : gone id = false) :
    (c.without gone).call? id = c.call? id := by
  rw [call?, call?, without, List.find?_filter]
  congr 1
  funext w
  by_cases hw : w.id = id
  · simp [hw, h]
  · simp [hw]

/-- One call finds out how it ends and returns. -/
theorem plays_return {c : Connection} {w : Waiting} {o : Outcome} (hw : c.call? w.id = some w)
    (ho : (c.ready w).head? = some o) :
    Plays c.atRest [.returned w.id o] (c.without (w.id == ·)).atRest := by
  have hwake : c.atRest.step? (.wake w.id 0) = some (c.atRest.retire w.id o, []) := by
    rw [List.head?_eq_getElem?] at ho
    simp [Traffic.step?, atRest, hw, ho]
  refine Plays.cons (Or.inl rfl) hwake (Plays.one (m := .leave w.id) (Or.inl rfl) ?_)
  simp [Traffic.step?, atRest, Traffic.retire, without, bne, Bool.beq_comm]

/-- Calls return one after the other. -/
theorem plays_returns {c : Connection} {done : List (Nat × Outcome)} (hd : (done.map (·.1)).Nodup)
    (h : ∀ p ∈ done, ∃ w, w.id = p.1 ∧ c.call? w.id = some w ∧ (c.ready w).head? = some p.2) :
    Plays c.atRest (done.map fun p => .returned p.1 p.2)
      (c.without fun id => done.any (·.1 == id)).atRest := by
  induction done generalizing c with
  | nil =>
      rw [List.map_nil]
      simp only [List.any_nil, without_none]
      exact Plays.refl _
  | cons p done ih =>
      rw [List.map_cons, List.nodup_cons] at hd
      obtain ⟨w, hid, hw, ho⟩ := h p List.mem_cons_self
      -- The others are still there and as ready as before: no two have the same id.
      have hrest : ∀ q ∈ done, ∃ v, v.id = q.1 ∧
          (c.without (w.id == ·)).call? v.id = some v ∧ (c.ready v).head? = some q.2 := by
        intro q hq
        obtain ⟨v, hv, hcall, hready⟩ := h q (List.mem_cons_of_mem p hq)
        refine ⟨v, hv, ?_, hready⟩
        rw [call?_without, hcall]
        rw [hv, hid, beq_eq_false_iff_ne]
        exact fun he => hd.1 (he ▸ List.mem_map_of_mem hq)
      have hall := (plays_return hw ho).trans (ih hd.2 hrest)
      rw [without_without, hid] at hall
      exact hall

/-- The calls that can return, with the way in which they do. -/
def finished (c : Connection) : List (Nat × Outcome) :=
  c.waiting.filterMap fun w => (c.ready w).head?.map fun o => (w.id, o)

theorem settleCalls_eq (c : Connection) :
    c.settleCalls = (c.without fun id => c.finished.any (·.1 == id),
      c.finished.map fun p => .returned p.1 p.2) := rfl

theorem mem_finished {c : Connection} {p : Nat × Outcome} :
    p ∈ c.finished ↔ ∃ w ∈ c.waiting, w.id = p.1 ∧ (c.ready w).head? = some p.2 := by
  obtain ⟨id, o⟩ := p
  simp [finished, List.mem_filterMap, and_comm (b := _ = id)]

/-- No call returns twice in one go. -/
theorem nodup_finished {c : Connection} (h : (c.waiting.map (·.id)).Nodup) :
    (c.finished.map (·.1)).Nodup := by
  have hsub : (c.finished.map (·.1)).Sublist (c.waiting.map (·.id)) := by
    unfold finished
    generalize c.waiting = l
    induction l with
    | nil => exact .slnil
    | cons w l ih =>
        rw [List.filterMap_cons]
        cases (c.ready w).head? with
        | none => exact .cons _ ih
        | some o => exact .cons_cons _ ih
  exact hsub.nodup h

/-- Every call that can return does so, and the others have to wait. -/
theorem settleCalls_plays {c : Connection} (h : (c.waiting.map (·.id)).Nodup) :
    ∃ notes, Plays c.atRest notes c.settleCalls.1.atRest ∧
      (∀ id o, .returned id o ∈ c.settleCalls.2 ↔ .returned id o ∈ notes) ∧
      ∀ w ∈ c.settleCalls.1.waiting, c.settleCalls.1.ready w = [] := by
  rw [settleCalls_eq]
  refine ⟨c.finished.map fun p => .returned p.1 p.2, ?_, by simp, ?_⟩
  · refine plays_returns (nodup_finished h) fun p hp => ?_
    obtain ⟨w, hw, hid, ho⟩ := mem_finished.mp hp
    exact ⟨w, hid, call?_of_mem h hw, ho⟩
  · intro w hw
    obtain ⟨hmem, hgone⟩ := List.mem_filter.mp hw
    cases ho : (c.ready w).head? with
    | none => exact List.head?_eq_none_iff.mp ho
    | some o =>
        have hfin : (w.id, o) ∈ c.finished := mem_finished.mpr ⟨w, hmem, rfl, ho⟩
        have hany : c.finished.any (·.1 == w.id) = true :=
          List.any_eq_true.mpr ⟨_, hfin, beq_self_eq_true _⟩
        simp only [hany] at hgone
        cases hgone

/-! ### Operations -/

/-- An operation that leads to a connection with some effects is a number of
moves: they end settled, and the same calls return. -/
structure Simulated (c : Connection) (r : Connection × List Effect) (notes : List Note) : Prop where
  plays : Plays c.atRest notes r.1.atRest
  settled : r.1.atRest.Settled
  returns : ∀ id o, .returned id o ∈ r.2 ↔ .returned id o ∈ notes

theorem nodup_waiting {σ : Traffic} {notes : List Note} (h : Invariant σ.books notes) :
    (σ.connection.waiting.map (·.id)).Nodup := by
  have hd := (List.nodup_append.mp (List.nodup_append.mp h.distinct).1).1
  have hids : σ.books.callIds = σ.connection.waiting.map (·.id) := by
    simp only [Books.callIds, Traffic.books, books, calls, List.map_map]
    rfl
  exact hids ▸ hd

/-- What the read loop waits for depends on the stream alone. -/
theorem readStep_eq_none_congr {c c' : Connection} (hd : c'.loopDone = c.loopDone)
    (hs : c'.stream = c.stream) (he : c'.ended = c.ended) (h : c.readStep = none) :
    c'.readStep = none := by
  rw [readStep_eq_none] at h ⊢
  rw [hd, hs]
  refine h.imp_right fun ⟨e, ho, hb⟩ => ⟨e, ho, ?_⟩
  rw [← hb]
  cases e <;> simp only [isBlocked, he]

/-- Everything goes on until nothing can move. -/
theorem settle_simulated {c : Connection} {notes : List Note} (h : Invariant c.atRest.books notes) :
    ∃ new, Simulated c c.settle new := by
  obtain ⟨read, hread, hnotes, heffects⟩ := readAll_plays (c.stream.length + 2) c
  have hblocked : (readAll (c.stream.length + 2) c).1.readStep = none := by
    apply readAll_blocked
    unfold workLeft
    split <;> omega
  obtain ⟨left, hleft, hreturns, hready⟩ := settleCalls_plays (nodup_waiting (hread.invariant h))
  refine ⟨read ++ left, hread.trans hleft, ⟨rfl, rfl, ?_, hready⟩, ?_⟩
  · exact readStep_eq_none_congr (c := (readAll (c.stream.length + 2) c).1) rfl rfl rfl hblocked
  · intro id o
    simp only [settle, List.mem_append, hnotes, heffects, false_or]
    exact hreturns id o

/-- A move on the connection alone, after which everything goes on. -/
theorem Simulated.settle {c c' : Connection} {m : Move} {notes : List Note}
    (h : Invariant c.atRest.books notes) (hdue : c.atRest.Due m)
    (hm : c.atRest.step? m = some (c'.atRest, [])) : ∃ new, Simulated c c'.settle new := by
  have hi := (Plays.one hdue hm).invariant h
  obtain ⟨new, hnew⟩ := settle_simulated hi
  exact ⟨new, Plays.cons hdue hm hnew.plays, hnew.settled, hnew.returns⟩

/-- A move that no call and no read notices. -/
theorem Simulated.quiet {c c' : Connection} {m : Move} {effects : List Effect}
    (hs : c.atRest.Settled) (hdue : c.atRest.Due m) (hm : c.atRest.step? m = some (c'.atRest, []))
    (he : ∀ id o, .returned id o ∉ effects)
    (hsame : c' = { c with
      handlers := c'.handlers, loopCancelled := c'.loopCancelled, writer := c'.writer }) :
    Simulated c (c', effects) [] where
  plays := Plays.one hdue hm
  settled := by
    rw [hsame]
    exact ⟨rfl, rfl, readStep_eq_none_congr (c := c) rfl rfl rfl hs.reader, hs.calls⟩
  returns := fun id o => by simp [he]

theorem notify_same (method : String) (params : Params) (abandoned : Option Condition)
    (c : Connection) :
    (c.notify method params abandoned).1 =
        { c with writer := (c.notify method params abandoned).1.writer } ∧
      ∀ id o, .returned id o ∉ (c.notify method params abandoned).2.1 := by
  unfold notify
  split
  · simp
  · split
    · simp
    · split
      · simp
      · simp only [send, true_and]
        split <;> simp

/-! ### Calls -/

/-- A call has got its id. -/
def begun (abandoned : Option Condition) (c : Connection) : Connection :=
  { c with
    issued := c.issued + 1
    pending := c.pending ++ [c.issued + 1]
    waiting := c.waiting ++ [{ id := c.issued + 1, abandoned }] }

/-- The next id is neither expected nor waited for. -/
structure NextFree (c : Connection) : Prop where
  waiting : ∀ w ∈ c.waiting, w.id ≠ c.issued + 1
  pending : ∀ id ∈ c.pending, id ≠ c.issued + 1

/-- At rest the next id is neither expected nor waited for. -/
theorem nextFree_of_invariant {c : Connection} {notes : List Note}
    (h : Invariant c.atRest.books notes) : c.NextFree := by
  have hlive : ∀ id, id ∈ c.atRest.books.callIds ∨ id ∈ c.atRest.books.leavingIds →
      id ≠ c.issued + 1 := by
    rintro id hid rfl
    exact h.fresh (mem_begun.mpr (h.began_of_live hid))
  refine ⟨fun w hw => hlive w.id (Or.inl ?_), fun id hid => hlive id (h.pendingLive id hid)⟩
  exact List.mem_map_of_mem (List.mem_map_of_mem (f := fun w : Waiting => (w.id, w.response)) hw)

theorem NextFree.call?_begun {c : Connection} (h : c.NextFree) (abandoned : Option Condition) :
    (c.begun abandoned).call? (c.issued + 1) = some { id := c.issued + 1, abandoned } := by
  have hnone : c.waiting.find? (·.id == c.issued + 1) = none := by
    simpa using h.waiting
  simp [call?, begun, List.find?_append, hnone]

theorem NextFree.filter_waiting {c : Connection} (h : c.NextFree) (abandoned : Option Condition) :
    (c.begun abandoned).waiting.filter (·.id != c.issued + 1) = c.waiting := by
  have hkeep : c.waiting.filter (·.id != c.issued + 1) = c.waiting := by
    rw [List.filter_eq_self]
    exact fun w hw => bne_iff_ne.mpr (h.waiting w hw)
  simp [begun, hkeep]

theorem NextFree.filter_pending {c : Connection} (h : c.NextFree) (abandoned : Option Condition) :
    (c.begun abandoned).pending.filter (· != c.issued + 1) = c.pending := by
  have hkeep : c.pending.filter (· != c.issued + 1) = c.pending := by
    rw [List.filter_eq_self]
    exact fun id hid => bne_iff_ne.mpr (h.pending id hid)
  simp [begun, hkeep]

/-- A call that has its id and has not sent its request. -/
def sending (abandoned : Option Condition) (c : Connection) : Traffic :=
  { connection := c.begun abandoned, unsent := [c.issued + 1] }

/-- A call whose request cannot be sent leaves nothing behind but its id. -/
theorem NextFree.plays_unsent {c : Connection} (h : c.NextFree) {abandoned : Option Condition}
    (hdue : c.atRest.Due (.begin abandoned)) {w : Frame.Writer} {o : Outcome} {method : String}
    {params : Params} (hm : (c.sending abandoned).step? (.send (c.issued + 1) method params) =
      some (({ c.sending abandoned with
        connection := { c.begun abandoned with writer := w } } : Traffic).retire (c.issued + 1) o, [])) :
    Plays c.atRest [.began (c.issued + 1), .returned (c.issued + 1) o]
      { c with issued := c.issued + 1, writer := w }.atRest := by
  have hbegin : c.atRest.step? (.begin abandoned) =
      some (c.sending abandoned, [.began (c.issued + 1)]) := rfl
  refine Plays.cons hdue hbegin (Plays.cons (Or.inl rfl) hm
    (Plays.one (m := .leave (c.issued + 1)) (Or.inl rfl) ?_))
  have hw := h.filter_waiting abandoned
  have hp := h.filter_pending abandoned
  simp only [Traffic.step?, Traffic.retire, sending, hw, hp]
  simp [atRest, begun]

/-- What happens when the request of the next call is written. -/
def sendNext (c : Connection) (method : String) (params : Option Bytes) :
    Connection × List Effect × Option Error :=
  c.send (.request (c.issued + 1) method params)

def sent (abandoned : Option Condition) (method : String) (params : Option Bytes) (c : Connection) :
    Connection :=
  { c.begun abandoned with writer := (c.sendNext method params).1.writer }

section Call

variable {c : Connection} {method : String} {params : Params} {abandoned : Option Condition}
variable {bytes : Option Bytes} {e : Error}

theorem not_returned_of_sendNext (id : Nat) (o : Outcome) :
    .returned id o ∉ (c.sendNext method bytes).2.1 := by
  simp only [sendNext, send]
  split <;> simp

/-- On a closed connection a call returns at once, and nothing changes. -/
theorem perform_call_closed (h : c.closed = true) :
    c.perform (.call method params abandoned) = (c, []) := by
  simp [perform, call, h]

/-- A call whose parameters cannot be written returns at once, and has used up its id. -/
theorem perform_call_unencodable (h : c.closed = false) (hp : params.encode = .error e) :
    c.perform (.call method params abandoned) =
      ({ c with issued := c.issued + 1 },
        [.returned (c.issued + 1) (Traffic.sendFailure method e)]) := by
  simp only [perform, call, h, hp]
  rfl

/-- So does a call whose request cannot be written. -/
theorem perform_call_unsent (h : c.closed = false) (hp : params.encode = .ok bytes)
    (hf : (c.sendNext method bytes).2.2 = some e) :
    c.perform (.call method params abandoned) =
      ({ c with issued := c.issued + 1, writer := (c.sendNext method bytes).1.writer },
        (c.sendNext method bytes).2.1 ++
          [.returned (c.issued + 1) (Traffic.sendFailure method e)]) := by
  have hf' : (send (.request (c.issued + 1) method bytes) { c with issued := c.issued + 1 }).2.2 =
      some e := hf
  have hcall : c.call method params abandoned =
      ({ c with issued := c.issued + 1, writer := (c.sendNext method bytes).1.writer },
        (c.sendNext method bytes).2.1, .error (.context ("send " ++ method) e)) := by
    rw [call, if_neg (by rw [h]; decide)]
    simp only [hp, hf']
    rfl
  simp only [perform, hcall, h]
  rfl

/-- A call whose request was written waits, until it can return. -/
theorem perform_call_sent (h : c.closed = false) (hp : params.encode = .ok bytes)
    (hf : (c.sendNext method bytes).2.2 = none) :
    c.perform (.call method params abandoned) =
      ((c.sent abandoned method bytes).settleCalls.1,
        (c.sendNext method bytes).2.1 ++ (c.sent abandoned method bytes).settleCalls.2) := by
  have hf' : (send (.request (c.issued + 1) method bytes) { c with issued := c.issued + 1 }).2.2 =
      none := hf
  rw [perform, call, if_neg (by rw [h]; decide)]
  simp only [hp, hf']
  rfl

end Call

/-- A call is made, and returns at once or waits. -/
theorem call_simulated {c : Connection} {notes : List Note} (hs : c.atRest.Settled)
    (h : Invariant c.atRest.books notes) (method : String) (params : Params)
    (abandoned : Option Condition) :
    ∃ new, Simulated c (c.perform (.call method params abandoned)) new := by
  have hfree := nextFree_of_invariant h
  have hcall := hfree.call?_begun abandoned
  cases hclosed : c.closed with
  | true =>
      rw [perform_call_closed hclosed]
      exact ⟨[], Plays.refl _, hs, by simp⟩
  | false =>
      have hdue : c.atRest.Due (.begin abandoned) := Or.inr ⟨hs, fun _ => hclosed⟩
      cases hp : params.encode with
      | error e =>
          have hm : (c.sending abandoned).step? (.send (c.issued + 1) method params) =
              some ((c.sending abandoned).retire (c.issued + 1) (Traffic.sendFailure method e), []) := by
            simp [Traffic.step?, sending, hcall, hp]
          rw [perform_call_unencodable hclosed hp]
          refine ⟨_, hfree.plays_unsent hdue (w := c.writer) hm, ⟨rfl, rfl, ?_, hs.calls⟩, by simp⟩
          exact readStep_eq_none_congr (c := c) rfl rfl rfl hs.reader
      | ok bytes =>
          have hsend : (c.begun abandoned).send (.request (c.issued + 1) method bytes) =
              (c.sent abandoned method bytes, (c.sendNext method bytes).2) := rfl
          cases hf : (c.sendNext method bytes).2.2 with
          | some e =>
              have hm : (c.sending abandoned).step? (.send (c.issued + 1) method params) =
                  some (({ c.sending abandoned with
                    connection := c.sent abandoned method bytes } : Traffic).retire (c.issued + 1)
                      (Traffic.sendFailure method e), []) := by
                simp [Traffic.step?, sending, hcall, hp, hsend, hf]
              rw [perform_call_unsent hclosed hp hf]
              refine ⟨_, hfree.plays_unsent hdue hm, ⟨rfl, rfl, ?_, hs.calls⟩, ?_⟩
              · exact readStep_eq_none_congr (c := c) rfl rfl rfl hs.reader
              · simp [not_returned_of_sendNext]
          | none =>
              -- The request is out, and a call that was given up before returns at once.
              have hm : (c.sending abandoned).step? (.send (c.issued + 1) method params) =
                  some ((c.sent abandoned method bytes).atRest, []) := by
                simp [Traffic.step?, sending, hcall, hp, hsend, hf, atRest]
              have hplays := Plays.cons hdue rfl (Plays.one (Or.inl rfl) hm)
              obtain ⟨left, hleft, hreturns, hready⟩ :=
                settleCalls_plays (c := c.sent abandoned method bytes)
                  (nodup_waiting (hplays.invariant h))
              rw [perform_call_sent hclosed hp hf]
              refine ⟨_, hplays.trans hleft, ⟨rfl, rfl, ?_, hready⟩, ?_⟩
              · exact readStep_eq_none_congr (c := c) rfl rfl rfl hs.reader
              · intro id o
                simp [not_returned_of_sendNext, hreturns]

/-! ### Runs of operations -/

/-- **Every operation is a number of moves** that end settled, and the calls that
return in it are those that return in the moves. -/
theorem perform_simulated {c : Connection} {notes : List Note} (hs : c.atRest.Settled)
    (h : Invariant c.atRest.books notes) (op : Operation) :
    ∃ new, Simulated c (c.perform op) new := by
  have hdue : ∀ m : Move, m.begins = false → c.atRest.Due m :=
    fun m hm => Or.inr ⟨hs, fun hbegins => absurd hbegins (by rw [hm]; decide)⟩
  cases op with
  | handle method hd => exact ⟨[], .quiet (m := .handle method hd) hs (hdue _ rfl) rfl (by simp) rfl⟩
  | call method params abandoned => exact call_simulated hs h method params abandoned
  | notify method params abandoned =>
      obtain ⟨hsame, heffects⟩ := notify_same method params abandoned c
      have hquiet : Simulated c ((c.notify method params abandoned).1,
          (c.notify method params abandoned).2.1) [] :=
        .quiet (m := .notify method params abandoned) hs (hdue _ rfl) rfl heffects (by rw [hsame])
      exact ⟨[], hquiet⟩
  | abandon id why => exact Simulated.settle (m := .abandon id why) h (hdue _ rfl) rfl
  | receive bytes => exact Simulated.settle (m := .arrive bytes) h (hdue _ rfl) rfl
  | hangup => exact Simulated.settle (m := .hangup) h (hdue _ rfl) rfl
  | cancelLoop => exact ⟨[], .quiet (m := .cancelLoop) hs (hdue _ rfl) rfl (by simp) rfl⟩
  | close => exact Simulated.settle (m := .close) h (hdue _ rfl) rfl
  | limit left => exact ⟨[], .quiet (m := .limit left) hs (hdue _ rfl) rfl (by simp) rfl⟩

/-- Operations one after the other are paced moves. -/
theorem performAll_simulated {c : Connection} {notes : List Note} (hs : c.atRest.Settled)
    (h : Invariant c.atRest.books notes) (ops : List Operation) :
    ∃ new, Simulated c (c.performAll ops) new := by
  induction ops generalizing c notes with
  | nil => exact ⟨[], Plays.refl _, hs, by simp [performAll]⟩
  | cons op ops ih =>
      obtain ⟨first, hfirst⟩ := perform_simulated hs h op
      obtain ⟨rest, hrest⟩ := ih hfirst.settled (hfirst.plays.invariant h)
      refine ⟨first ++ rest, hfirst.plays.trans hrest.plays, hrest.settled, ?_⟩
      intro id o
      simp [performAll, hfirst.returns, hrest.returns]

/-- A connection that was just opened waits for octets. -/
theorem settled_opened (hasCloser : Bool) : (Traffic.opened hasCloser).Settled :=
  ⟨rfl, rfl, readStep_eq_none.mpr (Or.inr ⟨.endOfStream, rfl, rfl⟩),
    fun _ hw => absurd hw List.not_mem_nil⟩

/-- **After any operations, the ids that are expected are those of the calls
that were made and have not returned.** -/
theorem pending_performAll (hasCloser : Bool) (ops : List Operation) (id : Nat) :
    id ∈ (performAll { hasCloser } ops).1.pending ↔
      1 ≤ id ∧ id ≤ (performAll { hasCloser } ops).1.issued ∧
        ∀ o, .returned id o ∉ (performAll { hasCloser } ops).2 := by
  have hinitial : Invariant ({ hasCloser } : Connection).atRest.books [] := invariant_initial
  obtain ⟨notes, hsim⟩ := performAll_simulated (settled_opened hasCloser) hinitial ops
  have hi := hsim.plays.invariant invariant_initial
  have hbegan : .began id ∈ notes ↔ 1 ≤ id ∧ id ≤ (performAll { hasCloser } ops).1.issued := by
    rw [← mem_begun, show Rpc.begun notes = _ from hi.ids, List.mem_range'_1]
    simp only [atRest, Traffic.books, books]
    omega
  have hiff := hi.pending_iff hsim.settled id
  simp only [List.nil_append, hbegan, and_assoc] at hiff
  simp only [hsim.returns]
  exact hiff

end Connection

end LanguageClient.Rpc
