import LanguageClient.Proofs.Rpc.Truncation
import LanguageClient.Rpc.Connection
import Mathlib.Data.List.Nodup

/-! # Frames of many senders.

Calls, notifications and refusals go out over one connection at the same time.
Each sender writes its message out, takes the lock, gives the header of its frame
to the writer and then the body, gives the lock back and returns; between any two
of these steps others may make theirs (`Outbox.step?`, `Outbox.play?`).

Nothing is glued behind half a frame. What was written is what `Frame.write` gives
for the messages one after the other, in the order in which their senders had the
lock (`Fits`, `step?_fits`, `play?_fits`), and a writer that has refused once takes
nothing more (`InTurn.shape`). So the stream is made of the frames of exactly those
messages whose sending succeeded, and at most one header behind them
(`sending_keeps_frames`). -/

namespace LanguageClient.Rpc

/-! ### Senders -/

inductive Job where
  | call (id : Nat) (method : String) (params : Params)
  | notify (method : String) (params : Params)
  | refuse (id : Bytes) (method : String)

/-- The message of a job, if its parameters can be written. -/
def Job.message : Job → Except Error Outgoing
  | .call id method params => params.encode.map (.request id method)
  | .notify method params => params.encode.map (.notification method)
  | .refuse id method => .ok (.refusal id method)

inductive Stage where
  | idle
  /-- The message is written out, and the lock is wanted. -/
  | encoded (m : Outgoing)
  /-- The lock is held, and nothing is written. -/
  | holding (m : Outgoing)
  /-- The header is written. -/
  | halfway (m : Outgoing)
  /-- The outcome is known, and the lock still held. -/
  | leaving (failure : Option Error)
  | returned (failure : Option Error)

def Stage.Writes : Stage → Prop
  | .holding _ | .halfway _ | .leaving _ => True
  | .idle | .encoded _ | .returned _ => False

/-- What senders share, and how far each of them is. -/
structure Outbox where
  writer : Frame.Writer := {}
  written : Bytes := []
  locked : Bool := false
  stage : Nat → Stage := fun _ => .idle

namespace Outbox

def move (σ : Outbox) (i : Nat) (s : Stage) : Outbox :=
  { σ with stage := fun j => if j = i then s else σ.stage j }

/-- The next step of a sender; `none` if it has returned or has to wait. -/
def step? (job : Nat → Job) (σ : Outbox) (i : Nat) : Option Outbox :=
  match σ.stage i with
  | .idle =>
    match (job i).message with
    | .error e => some (σ.move i (.returned (some e)))
    | .ok m => some (σ.move i (.encoded m))
  | .encoded m => if σ.locked then none else some { σ.move i (.holding m) with locked := true }
  | .holding m =>
    match σ.writer.write with
    | (w, false) =>
      some { σ.move i (.leaving (some (.context "write header" Frame.brokenPipe))) with writer := w }
    | (w, true) =>
      some { σ.move i (.halfway m) with writer := w, written := σ.written ++ Frame.header m.bytes }
  | .halfway m =>
    match σ.writer.write with
    | (w, false) =>
      some { σ.move i (.leaving (some (.context "write body" Frame.brokenPipe))) with writer := w }
    | (w, true) => some { σ.move i (.leaving none) with writer := w, written := σ.written ++ m.bytes }
  | .leaving failure => some { σ.move i (.returned failure) with locked := false }
  | .returned _ => none

def play? (job : Nat → Job) (σ : Outbox) (steps : List Nat) : Option Outbox := steps.foldlM (step? job) σ

end Outbox

/-! ### A sender left alone -/

def octets (effects : List Effect) : Bytes :=
  effects.flatMap fun
    | .wrote frame => frame
    | _ => []

theorem octets_settleCalls (c : Connection) : octets c.settleCalls.2 = [] := by
  simp [octets, Connection.settleCalls, List.flatMap_map]

/-- What a connection does with a job while nobody else sends. -/
def Connection.submit (j : Job) (c : Connection) : Connection × List Effect × Option Error :=
  match j.message with
  | .error e => (c, [], some e)
  | .ok m => c.send m

theorem Connection.notify_eq_submit {c : Connection} (hopen : c.closed = false) (method : String)
    (params : Params) : c.notify method params none = c.submit (.notify method params) := by
  cases params <;> simp [notify, hopen, submit, Job.message, Params.encode, Except.map]

theorem Connection.dispatch_eq_submit {c : Connection} {m : Message} (h : m.kind = .request) :
    c.dispatch m = ((c.submit (.refuse (m.id.getD []) m.method)).1,
      (c.submit (.refuse (m.id.getD []) m.method)).2.1) := by
  simp [dispatch, h, submit, Job.message]

/-- A call is submitting its request: it waits if that succeeds. -/
theorem Connection.call_eq_submit {c : Connection} (hopen : c.closed = false) (method : String)
    (params : Params) (abandoned : Option Condition) :
    let r := { c with issued := c.issued + 1 }.submit (.call (c.issued + 1) method params)
    ∃ c' returned, octets returned = [] ∧ c.call method params abandoned = (c', r.2.1 ++ returned,
      match r.2.2 with
      | some e => .error (.context ("send " ++ method) e)
      | none => .ok (c.issued + 1)) := by
  intro r
  have hr : r = { c with issued := c.issued + 1 }.submit (.call (c.issued + 1) method params) := rfl
  unfold call
  rw [if_neg (by simp [hopen])]
  cases params with
  | unencodable reason => exact ⟨_, [], rfl, rfl⟩
  | absent | json =>
      dsimp only [submit, Job.message, Params.encode, Except.map] at hr ⊢
      rw [← hr]
      obtain ⟨c', effects, failure⟩ := r
      cases failure with
      | none => exact ⟨_, _, octets_settleCalls _, rfl⟩
      | some e => exact ⟨c', [], rfl, by rw [List.append_nil]⟩

theorem octets_send (c : Connection) (m : Outgoing) :
    octets (c.send m).2.1 = (Frame.write c.writer m.bytes).written := by
  simp only [Connection.send]
  split
  · next hempty => exact (List.isEmpty_iff.mp hempty).symm
  · exact List.flatMap_singleton _ _

/-- **A sender whose steps are not disturbed does what the connection does.** -/
theorem play?_alone {job : Nat → Job} {σ : Outbox} {i : Nat} {c : Connection}
    (hw : c.writer = σ.writer) (hfree : σ.locked = false) (hi : σ.stage i = .idle) :
    ∃ n σ', σ.play? job (List.replicate n i) = some σ' ∧ σ'.locked = false ∧
      σ'.writer = (c.submit (job i)).1.writer ∧
      σ'.written = σ.written ++ octets (c.submit (job i)).2.1 ∧
      σ'.stage i = .returned (c.submit (job i)).2.2 := by
  cases hm : (job i).message with
  | error e =>
      refine ⟨1, ?_⟩
      simp [Outbox.play?, Outbox.step?, Outbox.move, Connection.submit, octets, hi, hm, hw, hfree]
  | ok m =>
      have hsubmit : c.submit (job i) = c.send m := by rw [Connection.submit, hm]
      obtain ⟨⟨left⟩, written, locked, stage⟩ := σ
      cases hfree
      dsimp only at hw hi
      rw [hsubmit, octets_send]
      -- the lock is free, so only the writer decides how many steps there are
      match left with
      | none | some (n + 2) =>
          refine ⟨5, ?_⟩
          simp [Outbox.play?, List.replicate, Outbox.step?, Outbox.move, hi, hm, Connection.send,
            Frame.write, Frame.Writer.write, Frame.encode, hw]
      | some 1 =>
          refine ⟨5, ?_⟩
          simp [Outbox.play?, List.replicate, Outbox.step?, Outbox.move, hi, hm, Connection.send,
            Frame.write, Frame.Writer.write, hw]
      | some 0 =>
          refine ⟨4, ?_⟩
          simp [Outbox.play?, List.replicate, Outbox.step?, Outbox.move, hi, hm, Connection.send,
            Frame.write, Frame.Writer.write, hw]

/-! ### One after the other -/

/-- A frame that was written as far as the writer took it. -/
structure Turn where
  sender : Nat
  body : Bytes
  failure : Option Error

/-- Frames written one after the other: the writer and the octets behind them. -/
inductive InTurn (start : Frame.Writer) : List Turn → Frame.Writer → Bytes → Prop where
  | nil : InTurn start [] start []
  | next {turns : List Turn} {w : Frame.Writer} {bytes : Bytes} (h : InTurn start turns w bytes)
      (i : Nat) (body : Bytes) :
      InTurn start (turns ++ [⟨i, body, (Frame.write w body).error⟩]) (Frame.write w body).writer
        (bytes ++ (Frame.write w body).written)

/-- The turns in which a whole frame was written. -/
def succeeded (turns : List Turn) : List Turn := turns.filter (·.failure.isNone)

theorem mem_succeeded {turns : List Turn} {t : Turn} :
    t ∈ succeeded turns ↔ t ∈ turns ∧ t.failure = none := by
  rw [succeeded, List.mem_filter, Option.isNone_iff_eq_none]

theorem succeeded_append_of_failure {turns : List Turn} {t : Turn} (h : t.failure ≠ none) :
    succeeded (turns ++ [t]) = succeeded turns := by
  simp [succeeded, h]

theorem succeeded_append_of_success {turns : List Turn} {t : Turn} (h : t.failure = none) :
    succeeded (turns ++ [t]) = succeeded turns ++ [t] := by
  simp [succeeded, h]

/-- The octets of the frames of some turns. -/
def frames (turns : List Turn) : Bytes := turns.flatMap fun t => Frame.encode t.body

/-- What becomes of a frame: it is written as a whole; or nothing of it is, since the
writer had refused before; or its header is, and the writer refuses from then on. -/
theorem write_cases (w : Frame.Writer) (body : Bytes) :
    (Frame.write w body).error = none ∧ (Frame.write w body).written = Frame.encode body ∨
      (Frame.write w body).error ≠ none ∧ (Frame.write w body).writer = w ∧
        (Frame.write w body).written = [] ∨
      (Frame.write w body).error ≠ none ∧ (Frame.write w body).writer.left = some 0 ∧
        (Frame.write w body).written = Frame.header body := by
  obtain ⟨left⟩ := w
  match left with
  | none => exact Or.inl ⟨rfl, rfl⟩
  | some 0 => exact Or.inr (Or.inl ⟨nofun, rfl, rfl⟩)
  | some 1 => exact Or.inr (Or.inr ⟨nofun, rfl, rfl⟩)
  | some (n + 2) => exact Or.inl ⟨rfl, rfl⟩

/-- A frame is written by two writes, the header and the body. -/
theorem write_refused {w : Frame.Writer} (h : w.left = some 0) (body : Bytes) :
    (Frame.write w body).error ≠ none ∧ (Frame.write w body).writer = w ∧
      (Frame.write w body).written = [] := by
  obtain ⟨left⟩ := w
  cases h
  exact ⟨nofun, rfl, rfl⟩

/-- **Frames written in turn stay whole**: those that succeeded, and at most one
header behind them, after which the writer takes nothing more. -/
theorem InTurn.shape {start w : Frame.Writer} {turns : List Turn} {bytes : Bytes}
    (h : InTurn start turns w bytes) :
    ∃ rest, bytes = frames (succeeded turns) ++ rest ∧
      (rest = [] ∨ w.left = some 0 ∧ ∃ t ∈ turns, t.failure ≠ none ∧ rest = Frame.header t.body) := by
  induction h with
  | nil => exact ⟨[], rfl, Or.inl rfl⟩
  | @next turns w bytes _ i body ih =>
      obtain ⟨rest, rfl, hrest⟩ := ih
      rcases hrest with rfl | ⟨hleft, t, ht, hfailure, rfl⟩
      · rw [List.append_nil]
        rcases write_cases w body with
          ⟨herror, hwritten⟩ | ⟨herror, -, hwritten⟩ | ⟨herror, hleft, hwritten⟩
        · refine ⟨[], ?_, Or.inl rfl⟩
          rw [succeeded_append_of_success herror, hwritten, List.append_nil]
          simp [frames]
        · refine ⟨[], ?_, Or.inl rfl⟩
          rw [succeeded_append_of_failure herror, hwritten]
        · refine ⟨Frame.header body, ?_, Or.inr ⟨hleft, ⟨i, body, _⟩, ?_, herror, rfl⟩⟩
          · rw [succeeded_append_of_failure herror, hwritten]
          · exact List.mem_append_right turns (List.mem_singleton.mpr rfl)
      · -- the writer has refused before, and refuses again
        obtain ⟨herror, hwriter, hwritten⟩ := write_refused hleft body
        have hleft' : (Frame.write w body).writer.left = some 0 := by rw [hwriter, hleft]
        refine ⟨Frame.header t.body, ?_, Or.inr ⟨hleft', t, List.mem_append_left _ ht, hfailure, rfl⟩⟩
        rw [succeeded_append_of_failure herror, hwritten, List.append_nil]

/-! ### The invariant -/

def NoTurn (turns : List Turn) (i : Nat) : Prop := ∀ t ∈ turns, t.sender ≠ i

/-- What a sender's stage says about its job and its turn. -/
def Stands (turns : List Turn) (i : Nat) (j : Job) : Stage → Prop
  | .idle => NoTurn turns i
  | .encoded m | .holding m | .halfway m => j.message = .ok m ∧ NoTurn turns i
  | .leaving failure => ∃ m, j.message = .ok m ∧ ⟨i, m.bytes, failure⟩ ∈ turns
  | .returned failure =>
    (∃ m, j.message = .ok m ∧ ⟨i, m.bytes, failure⟩ ∈ turns) ∨
      ∃ e, j.message = .error e ∧ failure = some e ∧ NoTurn turns i

/-- How what was written compares with the turns that are over: it is the same, but
for the header of a sender that is halfway. -/
structure Shows (w : Frame.Writer) (bytes : Bytes) (σ : Outbox) : Prop where
  halfway : ∀ i m, σ.stage i = .halfway m →
    w.write = (σ.writer, true) ∧ σ.written = bytes ++ Frame.header m.bytes
  whole : (∀ i m, σ.stage i ≠ .halfway m) → w = σ.writer ∧ bytes = σ.written

/-- **The invariant**: the turns that are over were written one after the other, and
whoever writes holds the lock. -/
structure Fits (job : Nat → Job) (start : Frame.Writer) (turns : List Turn) (σ : Outbox) : Prop where
  nodup : (turns.map Turn.sender).Nodup
  stands : ∀ i, Stands turns i (job i) (σ.stage i)
  lock : ∃ holder : Option Nat, σ.locked = holder.isSome ∧ ∀ i, (σ.stage i).Writes ↔ holder = some i
  bytes : ∃ w bytes, InTurn start turns w bytes ∧ Shows w bytes σ

variable {job : Nat → Job} {start : Frame.Writer} {turns : List Turn} {σ σ' : Outbox} {i j : Nat} {s : Stage}

@[simp] theorem Outbox.move_stage_self : (σ.move i s).stage i = s := if_pos rfl

theorem Outbox.move_stage_of_ne (h : j ≠ i) : (σ.move i s).stage j = σ.stage j := if_neg h

theorem fits_start (job : Nat → Job) (start : Frame.Writer) : Fits job start [] { writer := start } where
  nodup := List.nodup_nil
  stands := by
    intro i t ht
    cases ht
  lock := ⟨none, rfl, fun i => ⟨False.elim, nofun⟩⟩
  bytes := ⟨start, [], .nil, nofun, fun _ => ⟨rfl, rfl⟩⟩

/-- Nobody else writes. -/
theorem Fits.alone (h : Fits job start turns σ) (hi : (σ.stage i).Writes) (hj : (σ.stage j).Writes) :
    j = i := by
  obtain ⟨holder, -, hholder⟩ := h.lock
  exact Option.some.inj (((hholder j).mp hj).symm.trans ((hholder i).mp hi))

/-- Who holds the lock stays the same if the sender that moves keeps what it has. -/
theorem Fits.lock_move (h : Fits job start turns σ) (hs : s.Writes ↔ (σ.stage i).Writes) :
    ∃ holder : Option Nat, σ.locked = holder.isSome ∧
      ∀ j, ((σ.move i s).stage j).Writes ↔ holder = some j := by
  obtain ⟨holder, hlocked, hholder⟩ := h.lock
  refine ⟨holder, hlocked, fun j => ?_⟩
  by_cases hj : j = i
  · subst hj
    rw [Outbox.move_stage_self, hs, hholder]
  · rw [Outbox.move_stage_of_ne hj, hholder]

/-- The turn of another sender leaves a sender where it stands. -/
theorem Stands.append {k : Job} (h : Stands turns j k s) (hne : i ≠ j) (body : Bytes)
    (failure : Option Error) : Stands (turns ++ [⟨i, body, failure⟩]) j k s := by
  have hno : NoTurn turns j → NoTurn (turns ++ [⟨i, body, failure⟩]) j := by
    intro hno t ht
    rcases List.mem_append.mp ht with ht | ht
    · exact hno t ht
    · cases List.mem_singleton.mp ht
      exact hne
  cases s with
  | idle => exact hno h
  | encoded m | holding m | halfway m => exact ⟨h.1, hno h.2⟩
  | leaving failure =>
      obtain ⟨m, hm, ht⟩ := h
      exact ⟨m, hm, List.mem_append_left _ ht⟩
  | returned failure =>
      rcases h with ⟨m, hm, ht⟩ | ⟨e, he, hfailure, h⟩
      · exact Or.inl ⟨m, hm, List.mem_append_left _ ht⟩
      · exact Or.inr ⟨e, he, hfailure, hno h⟩

/-- A step that writes nothing. -/
theorem Fits.advance (h : Fits job start turns σ) (hstands : Stands turns i (job i) s)
    (hold : ∀ m, σ.stage i ≠ .halfway m) (hnew : ∀ m, s ≠ .halfway m) {locked : Bool}
    (hlock : ∃ holder : Option Nat, locked = holder.isSome ∧
      ∀ j, ((σ.move i s).stage j).Writes ↔ holder = some j) :
    Fits job start turns { σ.move i s with locked } where
  nodup := h.nodup
  stands := by
    intro j
    by_cases hj : j = i
    · subst hj
      exact (Outbox.move_stage_self (σ := σ)).symm ▸ hstands
    · exact (Outbox.move_stage_of_ne (σ := σ) hj).symm ▸ h.stands j
  lock := hlock
  bytes := by
    obtain ⟨w, bytes, hturns, hhalfway, hwhole⟩ := h.bytes
    -- The thread that moves is halfway neither before nor after, and the others stay where they are.
    have hsame : ∀ j m, (σ.move i s).stage j = .halfway m ↔ σ.stage j = .halfway m := by
      intro j m
      by_cases hj : j = i
      · subst hj
        rw [Outbox.move_stage_self]
        exact ⟨fun hm => absurd hm (hnew m), fun hm => absurd hm (hold m)⟩
      · rw [Outbox.move_stage_of_ne hj]
    refine ⟨w, bytes, hturns, fun j m hj => hhalfway j m ((hsame j m).mp hj), fun hnone => hwhole ?_⟩
    intro j m hj
    exact hnone j m ((hsame j m).mpr hj)

/-- **A turn ends**: whatever the writer took is what it takes of a frame. -/
theorem Fits.finish (h : Fits job start turns σ) {m : Outgoing} (hm : (job i).message = .ok m)
    (hno : NoTurn turns i) (hwrites : (σ.stage i).Writes) {w : Frame.Writer} {bytes : Bytes}
    (hturns : InTurn start turns w bytes) :
    Fits job start (turns ++ [⟨i, m.bytes, (Frame.write w m.bytes).error⟩])
      { σ.move i (.leaving (Frame.write w m.bytes).error) with
        writer := (Frame.write w m.bytes).writer
        written := bytes ++ (Frame.write w m.bytes).written } where
  nodup := by
    rw [List.map_append, List.map_singleton]
    refine List.nodup_append.mpr ⟨h.nodup, List.pairwise_singleton _ _, ?_⟩
    intro a ha b hb
    obtain ⟨t, ht, rfl⟩ := List.mem_map.mp ha
    cases List.mem_singleton.mp hb
    exact hno t ht
  stands := by
    intro j
    by_cases hj : j = i
    · subst hj
      dsimp only
      rw [Outbox.move_stage_self]
      exact ⟨m, hm, List.mem_append_right _ (List.mem_singleton.mpr rfl)⟩
    · dsimp only
      rw [Outbox.move_stage_of_ne hj]
      exact (h.stands j).append (Ne.symm hj) _ _
  lock := h.lock_move ⟨fun _ => hwrites, fun _ => trivial⟩
  bytes := by
    refine ⟨_, _, hturns.next i m.bytes, ?_, fun _ => ⟨rfl, rfl⟩⟩
    -- the lock was held by the sender that leaves
    intro j m' hj
    dsimp only at hj
    by_cases hji : j = i
    · subst hji
      rw [Outbox.move_stage_self] at hj
      cases hj
    · rw [Outbox.move_stage_of_ne hji] at hj
      have hjw : (σ.stage j).Writes := by
        rw [hj]
        trivial
      exact absurd (h.alone hwrites hjw) hji

/-- Nobody writes if the lock is free. -/
theorem Fits.not_writes (h : Fits job start turns σ) (hfree : σ.locked = false) (i : Nat) :
    ¬ (σ.stage i).Writes := by
  obtain ⟨holder, hlocked, hholder⟩ := h.lock
  rw [hholder]
  rintro rfl
  cases hfree.symm.trans hlocked

/-- The lock is free again once its holder has returned. -/
theorem Fits.lock_free (h : Fits job start turns σ) (hi : (σ.stage i).Writes) (hs : ¬ s.Writes) :
    ∃ holder : Option Nat, false = holder.isSome ∧
      ∀ j, ((σ.move i s).stage j).Writes ↔ holder = some j := by
  refine ⟨none, rfl, fun j => ⟨fun hj => ?_, nofun⟩⟩
  by_cases hji : j = i
  · subst hji
    rw [Outbox.move_stage_self] at hj
    exact absurd hj hs
  · rw [Outbox.move_stage_of_ne hji] at hj
    exact absurd (h.alone hi hj) hji

/-- The lock is held by a sender that has just taken it. -/
theorem Fits.lock_taken (h : Fits job start turns σ) (hfree : σ.locked = false) (hs : s.Writes) :
    ∃ holder : Option Nat, true = holder.isSome ∧
      ∀ j, ((σ.move i s).stage j).Writes ↔ holder = some j := by
  refine ⟨some i, rfl, fun j => ?_⟩
  by_cases hji : j = i
  · subst hji
    rw [Outbox.move_stage_self]
    exact ⟨fun _ => rfl, fun _ => hs⟩
  · rw [Outbox.move_stage_of_ne hji]
    exact ⟨fun hj => absurd hj (h.not_writes hfree j), fun hj => absurd (Option.some.inj hj).symm hji⟩

/-- While a sender holds the lock and has written nothing, what was written is what
the turns before it left. -/
theorem Fits.bytes_of_holding (h : Fits job start turns σ) {m : Outgoing} (hi : σ.stage i = .holding m) :
    InTurn start turns σ.writer σ.written := by
  obtain ⟨w, bytes, hturns, -, hwhole⟩ := h.bytes
  obtain ⟨rfl, rfl⟩ := hwhole fun j m' hj => by
    have hji : j = i := h.alone (by rw [hi]; trivial) (by rw [hj]; trivial)
    subst hji
    cases hi.symm.trans hj
  exact hturns

/-- The header is taken. -/
theorem Fits.begin (h : Fits job start turns σ) {m : Outgoing} (hi : σ.stage i = .holding m)
    {w : Frame.Writer} (hw : σ.writer.write = (w, true)) :
    Fits job start turns { σ.move i (.halfway m) with
      writer := w, written := σ.written ++ Frame.header m.bytes } where
  nodup := h.nodup
  stands := by
    intro j
    by_cases hj : j = i
    · subst hj
      have hstands := h.stands j
      rw [hi] at hstands
      exact (Outbox.move_stage_self (σ := σ)).symm ▸ hstands
    · exact (Outbox.move_stage_of_ne (σ := σ) hj).symm ▸ h.stands j
  lock := h.lock_move (by rw [hi]; exact Iff.rfl)
  bytes := by
    refine ⟨σ.writer, σ.written, h.bytes_of_holding hi, ?_, fun hnone => ?_⟩
    · intro j m' hj
      dsimp only at hj
      by_cases hji : j = i
      · subst hji
        rw [Outbox.move_stage_self] at hj
        cases hj
        exact ⟨hw, rfl⟩
      · rw [Outbox.move_stage_of_ne hji] at hj
        exact absurd (h.alone (by rw [hi]; trivial) (by rw [hj]; trivial)) hji
    · -- Somebody is halfway now.
      exact absurd Outbox.move_stage_self (hnone i m)

/-- What `Frame.write` does is what the two writes of a sender do. -/
theorem write_of_refused {w w' : Frame.Writer} (h : w.write = (w', false)) (body : Bytes) :
    Frame.write w body = ⟨w', [], some (.context "write header" Frame.brokenPipe)⟩ := by
  rw [Frame.write, h]

theorem write_of_halfway {w w' w'' : Frame.Writer} {taken : Bool} (h : w.write = (w', true))
    (h' : w'.write = (w'', taken)) (body : Bytes) :
    Frame.write w body =
      if taken then ⟨w'', Frame.encode body, none⟩
      else ⟨w'', Frame.header body, some (.context "write body" Frame.brokenPipe)⟩ := by
  rw [Frame.write, h]
  dsimp only
  rw [h']
  cases taken <;> rfl

/-- **Every step keeps the invariant.** -/
theorem step?_fits (h : Fits job start turns σ) (hstep : σ.step? job i = some σ') :
    ∃ turns', Fits job start turns' σ' := by
  have hstands := h.stands i
  cases hi : σ.stage i with
  | idle =>
      rw [hi] at hstands
      simp only [Outbox.step?, hi] at hstep
      split at hstep <;> cases hstep
      · next e he =>
          exact ⟨turns, h.advance (s := .returned (some e)) (Or.inr ⟨e, he, rfl, hstands⟩)
            (by simp [hi]) nofun (h.lock_move (by rw [hi]; exact Iff.rfl))⟩
      · next m hm =>
          exact ⟨turns, h.advance (s := .encoded m) ⟨hm, hstands⟩ (by simp [hi]) nofun
            (h.lock_move (by rw [hi]; exact Iff.rfl))⟩
  | encoded m =>
      rw [hi] at hstands
      simp only [Outbox.step?, hi] at hstep
      split at hstep <;> cases hstep
      next hfree =>
        rw [Bool.not_eq_true] at hfree
        exact ⟨turns, h.advance (s := .holding m) hstands (by simp [hi]) nofun
          (h.lock_taken hfree trivial)⟩
  | holding m =>
      -- A refused header ends the turn. If it is taken, the turn is in the middle, and the
      -- turns that are over stay the same.
      rw [hi] at hstands
      have hwrites : (σ.stage i).Writes := by
        rw [hi]
        trivial
      simp only [Outbox.step?, hi] at hstep
      split at hstep <;> cases hstep
      · next w hw =>
          have hfinish := h.finish hstands.1 hstands.2 hwrites (h.bytes_of_holding hi)
          rw [write_of_refused hw, List.append_nil] at hfinish
          exact ⟨_, hfinish⟩
      · next w hw => exact ⟨turns, h.begin hi hw⟩
  | halfway m =>
      -- The two writes together are one `Frame.write` by the writer from before the header.
      rw [hi] at hstands
      have hwrites : (σ.stage i).Writes := by
        rw [hi]
        trivial
      obtain ⟨w₀, bytes, hturns, hhalfway, -⟩ := h.bytes
      obtain ⟨hw₀, hbytes⟩ := hhalfway i m hi
      have hfinish := h.finish hstands.1 hstands.2 hwrites hturns
      simp only [Outbox.step?, hi] at hstep
      split at hstep <;> cases hstep
      · next w hw =>
          rw [write_of_halfway hw₀ hw] at hfinish
          exact ⟨_, hbytes ▸ hfinish⟩
      · next w hw =>
          rw [write_of_halfway hw₀ hw] at hfinish
          rw [hbytes, List.append_assoc]
          exact ⟨_, hfinish⟩
  | leaving failure =>
      rw [hi] at hstands
      have hwrites : (σ.stage i).Writes := by
        rw [hi]
        trivial
      simp only [Outbox.step?, hi] at hstep
      cases hstep
      exact ⟨turns, h.advance (s := .returned failure) (Or.inl hstands) (by simp [hi]) nofun
        (h.lock_free hwrites id)⟩
  | returned failure =>
      simp only [Outbox.step?, hi] at hstep
      cases hstep

/-- **So does every run.** -/
theorem play?_fits (h : Fits job start turns σ) {steps : List Nat} (hplay : σ.play? job steps = some σ') :
    ∃ turns', Fits job start turns' σ' := by
  induction steps generalizing σ turns with
  | nil =>
      cases hplay
      exact ⟨turns, h⟩
  | cons i steps ih =>
      rw [Outbox.play?, List.foldlM_cons] at hplay
      obtain ⟨σ₁, hstep, hplay⟩ := Option.bind_eq_some_iff.mp hplay
      obtain ⟨turns₁, h₁⟩ := step?_fits h hstep
      exact ih h₁ hplay

/-! ### Reading -/

theorem bytes_ne_nil (m : Outgoing) : m.bytes ≠ [] := by
  simp [Outgoing.bytes, Json.object]

/-- Whoever had a turn and does not write any more has returned. -/
theorem Fits.turn (h : Fits job start turns σ) (hquiet : ∀ i, ¬ (σ.stage i).Writes) {t : Turn}
    (ht : t ∈ turns) : σ.stage t.sender = .returned t.failure ∧
      ∃ m, (job t.sender).message = .ok m ∧ t.body = m.bytes := by
  have hstands := h.stands t.sender
  -- A sender has one turn at most.
  have hturn : ∀ {m : Outgoing} {failure : Option Error}, ⟨t.sender, m.bytes, failure⟩ ∈ turns →
      t = ⟨t.sender, m.bytes, failure⟩ := by
    intro m failure hmem
    exact List.inj_on_of_nodup_map h.nodup ht hmem rfl
  cases hi : σ.stage t.sender with
  | idle =>
      rw [hi] at hstands
      exact absurd rfl (hstands t ht)
  | encoded m =>
      rw [hi] at hstands
      exact absurd rfl (hstands.2 t ht)
  | holding m | halfway m | leaving failure => exact absurd (by rw [hi]; trivial) (hquiet t.sender)
  | returned failure =>
      rw [hi] at hstands
      rcases hstands with ⟨m, hm, hmem⟩ | ⟨_, _, _, hno⟩
      · have hteq := hturn hmem
        rw [hteq]
        exact ⟨rfl, m, hm, rfl⟩
      · exact absurd rfl (hno t ht)

/-- Those with a turn that succeeded are those that returned without an error. -/
theorem Fits.mem_succeeded_iff (h : Fits job start turns σ) (hquiet : ∀ i, ¬ (σ.stage i).Writes)
    (i : Nat) : i ∈ (succeeded turns).map Turn.sender ↔ σ.stage i = .returned none := by
  rw [List.mem_map]
  constructor
  · rintro ⟨t, ht, rfl⟩
    obtain ⟨ht, hnone⟩ := mem_succeeded.mp ht
    exact hnone ▸ (h.turn hquiet ht).1
  · intro hi
    have hstands := h.stands i
    rw [hi] at hstands
    rcases hstands with ⟨m, -, hmem⟩ | ⟨_, _, hnone, -⟩
    · exact ⟨_, mem_succeeded.mpr ⟨hmem, rfl⟩, rfl⟩
    · cases hnone

/-- A message that cannot be written out gives its error and nothing else. -/
theorem Fits.of_message_error (h : Fits job start turns σ) (hquiet : ∀ i, ¬ (σ.stage i).Writes)
    {e : Error} (he : (job i).message = .error e) :
    σ.stage i = .idle ∨ σ.stage i = .returned (some e) := by
  have hstands := h.stands i
  have hmessage : ∀ m, (job i).message ≠ .ok m := by
    intro m hm
    cases he.symm.trans hm
  cases hi : σ.stage i with
  | idle => exact Or.inl rfl
  | encoded m | holding m | halfway m =>
      rw [hi] at hstands
      exact absurd hstands.1 (hmessage m)
  | leaving failure => exact absurd (by rw [hi]; trivial) (hquiet i)
  | returned failure =>
      rw [hi] at hstands
      rcases hstands with ⟨m, hm, -⟩ | ⟨e', he', rfl, -⟩
      · exact absurd hm (hmessage m)
      · cases he.symm.trans he'
        exact Or.inr rfl

/-- The bodies of all turns can be read if the messages are not too large. -/
theorem Fits.readable (h : Fits job start turns σ) (hquiet : ∀ i, ¬ (σ.stage i).Writes)
    (hsize : ∀ i m, σ.stage i ≠ .idle → (job i).message = .ok m → m.bytes.length ≤ Frame.maxSize) :
    ∀ t ∈ turns, t.body ≠ [] ∧ t.body.length ≤ Frame.maxSize := by
  intro t ht
  obtain ⟨hstage, m, hm, hbody⟩ := h.turn hquiet ht
  have hbegun : σ.stage t.sender ≠ .idle := by
    rw [hstage]
    simp
  rw [hbody]
  exact ⟨bytes_ne_nil m, hsize t.sender m hbegun hm⟩

/-- The frames of turns are those of their bodies, and are read one by one. -/
theorem readMany_frames {turns : List Turn} (h : ∀ t ∈ turns, t.body ≠ [] ∧ t.body.length ≤ Frame.maxSize)
    (n : Nat) (rest : Bytes) :
    Frame.readMany (turns.length + n) (frames turns ++ rest) =
      (turns.map (fun t => .ok t.body) ++ (Frame.readMany n rest).1, (Frame.readMany n rest).2) := by
  have hbodies : frames turns = Frame.encodeAll (turns.map Turn.body) := by
    rw [Frame.encodeAll, List.flatMap_map, frames]
  have hne := Frame.map_received (List.forall_mem_map.mpr fun t ht => (h t ht).1)
  have hread := Frame.readMany_encodeAll (List.forall_mem_map.mpr fun t ht => (h t ht).2) n rest
  rw [List.length_map] at hread
  rw [hbodies, hread, hne, List.map_map]
  rfl

/-- Nothing, or a header with nothing behind it, ends a stream. -/
theorem readMany_rest {rest : Bytes}
    (h : rest = [] ∨ ∃ body, body ≠ [] ∧ body.length ≤ Frame.maxSize ∧ rest = Frame.header body) :
    ∃ e : Frame.ReadError, Frame.readMany 1 rest = ([.error e], []) ∧ e.toError.isA .endOfStream := by
  obtain ⟨e, hread, he⟩ : ∃ e : Frame.ReadError, Frame.read rest = ⟨.error e, []⟩ ∧
      (e = .endOfStream ∨ e = .missingBody) := by
    rcases h with rfl | ⟨body, hne, hsize, rfl⟩
    · exact ⟨.endOfStream, rfl, Or.inl rfl⟩
    · exact Frame.read_before_body hsize hne List.prefix_rfl
  refine ⟨e, by simp only [Frame.readMany, hread], ?_⟩
  rcases he with rfl | rfl <;> decide

/-- **Frames of many senders stay whole.** Whatever is sent, in whatever order the
senders make their steps and however many writes are taken: at any time at which
nobody is writing, the stream is made of the frames of exactly those messages whose
sending succeeded, and behind them at most the header of one whose sending failed.
A message that cannot be written out is not among them. A peer reads exactly the
bodies that were sent, and then the end of the stream. -/
theorem sending_keeps_frames (job : Nat → Job) (left : Option Nat) (steps : List Nat) (σ : Outbox)
    (hplay : Outbox.play? job { writer := ⟨left⟩ } steps = some σ)
    (hquiet : ∀ i, ¬ (σ.stage i).Writes) :
    ∃ (sent : List (Nat × Bytes)) (rest : Bytes),
      (sent.map Prod.fst).Nodup ∧
      (∀ i, i ∈ sent.map Prod.fst ↔ σ.stage i = .returned none) ∧
      (∀ i body, (i, body) ∈ sent → ∃ m, (job i).message = .ok m ∧ body = m.bytes) ∧
      σ.written = (sent.flatMap fun p => Frame.encode p.2) ++ rest ∧
      (rest = [] ∨ ∃ i e m, σ.stage i = .returned (some e) ∧ (job i).message = .ok m ∧
        rest = Frame.header m.bytes) ∧
      (∀ i e, (job i).message = .error e → σ.stage i = .idle ∨ σ.stage i = .returned (some e)) ∧
      ((∀ i m, σ.stage i ≠ .idle → (job i).message = .ok m → m.bytes.length ≤ Frame.maxSize) →
        ∃ e : Frame.ReadError, e.toError.isA .endOfStream ∧
          Frame.readMany (sent.length + 1) σ.written =
            (sent.map (fun p => .ok p.2) ++ [.error e], [])) := by
  obtain ⟨turns, h⟩ := play?_fits (fits_start job ⟨left⟩) hplay
  obtain ⟨w, bytes, hturns, -, hwhole⟩ := h.bytes
  obtain ⟨-, rfl⟩ := hwhole fun i m hi => hquiet i (by rw [hi]; trivial)
  obtain ⟨rest, hwritten, hrest⟩ := hturns.shape
  -- the header of a turn that failed belongs to a sender that returned its error
  have hrest' : rest = [] ∨ ∃ i e m, σ.stage i = .returned (some e) ∧ (job i).message = .ok m ∧
      rest = Frame.header m.bytes := by
    rcases hrest with hnil | ⟨-, t, ht, hfailure, rfl⟩
    · exact Or.inl hnil
    · obtain ⟨hstage, m, hm, hbody⟩ := h.turn hquiet ht
      obtain ⟨e, he⟩ := Option.ne_none_iff_exists'.mp hfailure
      exact Or.inr ⟨t.sender, e, m, he ▸ hstage, hm, hbody ▸ rfl⟩
  refine ⟨(succeeded turns).map fun t => (t.sender, t.body), rest, ?_, ?_, ?_, ?_, hrest', ?_, ?_⟩
  · rw [List.map_map]
    exact (List.filter_sublist.map Turn.sender).nodup h.nodup
  · intro i
    rw [List.map_map]
    exact h.mem_succeeded_iff hquiet i
  · intro i body hmem
    obtain ⟨t, ht, heq⟩ := List.mem_map.mp hmem
    cases heq
    exact (h.turn hquiet (mem_succeeded.mp ht).1).2
  · rw [hwritten, frames, List.flatMap_map]
  · intro i e he
    exact h.of_message_error hquiet he
  · intro hsize
    have hreadable := h.readable hquiet hsize
    obtain ⟨e, hend, heof⟩ : ∃ e : Frame.ReadError, Frame.readMany 1 rest = ([.error e], []) ∧
        e.toError.isA .endOfStream := by
      apply readMany_rest
      rcases hrest with hnil | ⟨-, t, ht, -, rfl⟩
      · exact Or.inl hnil
      · exact Or.inr ⟨t.body, (hreadable t ht).1, (hreadable t ht).2, rfl⟩
    refine ⟨e, heof, ?_⟩
    rw [List.length_map, hwritten, readMany_frames (fun t ht => hreadable t (mem_succeeded.mp ht).1),
      hend, List.map_map]
    rfl

/-! ### Three writes -/

def crossingJobs : Nat → Job
  | 0 => .call 1 "shutdown" .absent
  | 1 => .notify "exit" (.unencodable "no JSON form")
  | 2 => .notify "initialized" .absent
  | _ => .refuse (utf8 "7") "workspace/configuration"

/-- Four senders cross. The writer takes the frame of the first and the header of the
third; the second has nothing to write, and the last comes too late. -/
def crossing : List Nat := [0, 2, 3, 0, 1, 0, 0, 0, 2, 2, 2, 2, 3, 3, 3]

/-- What four senders leave behind. -/
def crossed : Outbox := (Outbox.play? crossingJobs { writer := ⟨some 3⟩ } crossing).getD {}

theorem play?_crossing :
    Outbox.play? crossingJobs { writer := ⟨some 3⟩ } crossing = some crossed := rfl

theorem crossed_stage : ∀ i, crossed.stage i = .returned none ∧ i = 0 ∨
    (∃ e, crossed.stage i = .returned (some e)) ∧ i ≠ 0 ∨ crossed.stage i = .idle ∧ i ≠ 0
  | 0 => Or.inl ⟨rfl, rfl⟩
  | 1 => Or.inr (Or.inl ⟨⟨_, rfl⟩, by decide⟩)
  | 2 => Or.inr (Or.inl ⟨⟨_, rfl⟩, by decide⟩)
  | 3 => Or.inr (Or.inl ⟨⟨_, rfl⟩, by decide⟩)
  | n + 4 => Or.inr (Or.inr ⟨rfl, by omega⟩)

theorem crossing_keeps_frames :
    Outbox.play? crossingJobs { writer := ⟨some 3⟩ } crossing = some crossed ∧
      (∀ i, ¬ (crossed.stage i).Writes) ∧
      ∃ (sent : List (Nat × Bytes)) (rest : Bytes), (∀ i, i ∈ sent.map Prod.fst ↔ i = 0) ∧
        crossed.written = (sent.flatMap fun p => Frame.encode p.2) ++ rest := by
  have hquiet : ∀ i, ¬ (crossed.stage i).Writes := by
    intro i
    rcases crossed_stage i with ⟨h, -⟩ | ⟨⟨e, h⟩, -⟩ | ⟨h, -⟩ <;> rw [h] <;> exact id
  refine ⟨play?_crossing, hquiet, ?_⟩
  obtain ⟨sent, rest, -, hsent, -, hwritten, -⟩ :=
    sending_keeps_frames crossingJobs (some 3) crossing crossed play?_crossing hquiet
  refine ⟨sent, rest, fun i => (hsent i).trans ?_, hwritten⟩
  rcases crossed_stage i with ⟨h, hi⟩ | ⟨⟨e, h⟩, hi⟩ | ⟨h, hi⟩
  · exact ⟨fun _ => hi, fun _ => h⟩
  · rw [h]
    exact ⟨nofun, fun h0 => absurd h0 hi⟩
  · rw [h]
    exact ⟨nofun, fun h0 => absurd h0 hi⟩

end LanguageClient.Rpc
