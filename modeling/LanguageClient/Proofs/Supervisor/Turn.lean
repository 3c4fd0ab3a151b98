import LanguageClient.Proofs.Supervisor.Control

/-! # What threads rely on, and what they leave to others.

A thread lets go of the supervisor's lock between deciding on a change of state
and making it. That the change is still legal when it is made rests on

* `Task.Fits`  — what holds of the shared state as long as a thread stands at
  its point, whatever the others do;
* `Sound`      — what holds of the shared state at any time;
* `Turn`       — what one step, of a thread or from outside, may do to it.

`Task.Fits.turn` says that no turn of one thread spoils what holds for another,
and `step_proper` that every step of every thread is such a turn. -/

namespace LanguageClient.Supervisor

/-! ### What holds at a point -/

/-- Whether a task is the one call to start the server that was let through. -/
def Task.isStarter : Task → Bool
  | .start _ .enter => false
  | .start _ _ => true
  | _ => false

theorem Task.isStarter_start {mode : LaunchMode} {p : StartPoint} (h : p ≠ .enter) :
    (Task.start mode p).isStarter = true := by
  cases p with
  | enter => exact absurd rfl h
  | _ => rfl

/-- What is known about the process where a call to start the server stands. -/
def StartPoint.FitsProcess (running : Option Bool) : StartPoint → Prop
  | .announceStarting _ | .checkBinary | .spawn => running = none
  | .closeAborted _ | .cancelled | .stopped => running = some false
  | .shutdown q => running ≠ none ∧ (q = .close → running = some false)
  | .fail _ => running ≠ some true
  | _ => running ≠ none

/-- What holds where a call to start the server stands. From when it was let
through to when it moves on, the state is its own. -/
def StartPoint.Fits (s : State) : StartPoint → Prop
  | .enter => True
  | .announceRunning _ _ | .finish _ _ =>
    s.used = true ∧ s.lifecycle ≠ .starting ∧ s.startDone = false
  | p => s.used = true ∧ s.lifecycle = .starting ∧ s.startDone = false ∧ p.FitsProcess s.running?

/-- What the thread that is stopping the server knows of the shared state. -/
def StopPoint.FitsState (s : State) : StopPoint → Prop
  | .acquire | .look | .release => True
  | .awaitStart => s.used = true ∧ s.stopRequested = true
  | .shutdown q =>
    s.lifecycle = .running ∧ s.stopping = true ∧ (q = .close → s.running? = some false)
  | .stopped => s.lifecycle = .running ∧ s.stopping = true ∧ s.running? = some false
  | .killFailed | .awaitKilled | .closeFailed | .failedStopped => s.lifecycle = .failed
  | .announceStopped _ | .announceFailedStopped _ => s.lifecycle = .stopped ∧ s.used = true

/-- What holds where thread `i`, a call to stop the server, stands. -/
def StopPoint.Fits (s : State) (i : Nat) (p : StopPoint) : Prop :=
  p ≠ .acquire → s.stopper = some i ∧ p.FitsState s

/-- What holds where thread `i` stands. -/
def Task.Fits (s : State) (i : Nat) : Task → Prop
  | .start _ p => p.Fits s
  | .stop p => p.Fits s i
  | _ => True

/-! ### What holds at any time -/

/-- What holds of the shared state at any time. -/
structure Sound (s : State) : Prop where
  unused : s.used = false → s.lifecycle = .stopped ∧ s.running? = none ∧ s.startDone = false
  /-- A server that is stopped or has failed has no process that runs. -/
  reaped : s.lifecycle = .stopped ∨ s.lifecycle = .failed → s.running? ≠ some true
  started : s.startDone = true → s.lifecycle ≠ .starting

theorem Sound.used_of_ne {s : State} (h : Sound s) (hs : s.lifecycle ≠ .stopped) : s.used = true := by
  cases hu : s.used with
  | true => rfl
  | false => exact absurd (h.unused hu).1 hs

/-! ### Turns -/

/-- What one step may do to the shared state. `starter` says whether it is a
step of the call that was let through to start the server, and `me` which
thread takes it, if one does. -/
structure Turn (starter : Bool) (me : Option Nat) (s s' : State) : Prop where
  legal : s'.lifecycle = s.lifecycle ∨ s.lifecycle.canStep s'.lifecycle = true
  used : s.used = true → s'.used = true
  stopRequested : s.stopRequested = true → s'.stopRequested = true
  stopping : s.stopping = true → s'.stopping = true
  entersStarting : s'.lifecycle = .starting →
    s.lifecycle = .starting ∨ s.used = false ∧ s'.used = true
  entersRunning : s'.lifecycle = .running →
    s.lifecycle = .running ∨ s.lifecycle = .starting ∧ s.stopRequested = false
  leavesStarting : s.lifecycle = .starting → s'.lifecycle = .starting ∨ starter = true
  leavesRunning : s.lifecycle = .running →
    s'.lifecycle = .running ∨ s.stopping = false ∨ s.stopper = me
  leavesFailed : s.lifecycle = .failed → s'.lifecycle = .failed ∨ s.stopper = me
  /-- Whoever stops the server or sees it fail has seen its process end. -/
  reaps : s'.lifecycle = .stopped ∨ s'.lifecycle = .failed →
    s'.lifecycle = s.lifecycle ∨ s'.running? ≠ some true
  process : Fades s s' ∨
    starter = true ∧ s.lifecycle = .starting ∧ s.running? = none ∧ s'.running? = some true
  startDone : s'.startDone = s.startDone ∨
    starter = true ∧ s.used = true ∧ s'.lifecycle ≠ .starting
  stopper : ∀ j, s.stopper = some j → me ≠ some j → s'.stopper = some j

/-- A quiet change is a turn, whoever makes it. -/
theorem Quiet.turn {s s' : State} (h : Quiet s s') (starter : Bool) (me : Option Nat) :
    Turn starter me s s' where
  legal := Or.inl h.lifecycle
  used := fun hu => h.used.trans hu
  stopRequested := fun hr => h.stopRequested.trans hr
  stopping := fun hs => h.stopping.trans hs
  entersStarting := fun hl => Or.inl (h.lifecycle ▸ hl)
  entersRunning := fun hl => Or.inl (h.lifecycle ▸ hl)
  leavesStarting := fun hl => Or.inl (h.lifecycle.trans hl)
  leavesRunning := fun hl => Or.inl (h.lifecycle.trans hl)
  leavesFailed := fun hl => Or.inl (h.lifecycle.trans hl)
  reaps := fun _ => Or.inl h.lifecycle
  process := Or.inl h.process
  startDone := Or.inl h.startDone
  stopper := fun _ hj _ => h.stopper.trans hj

/-- A stopped server can only be started. -/
theorem eq_starting_of_canStep {target : Lifecycle} (h : Lifecycle.stopped.canStep target = true) :
    target = .starting := by
  cases target with
  | starting => rfl
  | _ => cases h

namespace Turn

variable {b : Bool} {me : Option Nat} {s s' : State}

/-- A process that has ended, or never was, is not revived. -/
theorem running?_ne (h : Turn b me s s') (hl : s.lifecycle ≠ .starting)
    (hr : s.running? ≠ some true) : s'.running? ≠ some true := by
  rcases h.process with (hp | ⟨hp, _⟩) | ⟨_, hp, _⟩
  · rw [hp]; exact hr
  · exact absurd hp hr
  · exact absurd hp hl

/-- A process that has ended does not run again. -/
theorem running?_ended (h : Turn b me s s') (hr : s.running? = some false) :
    s'.running? = some false := by
  rcases h.process with (hp | ⟨hp, _⟩) | ⟨_, _, hp, _⟩
  · rw [hp]; exact hr
  · rw [hr] at hp; cases hp
  · rw [hr] at hp; cases hp

theorem running?_isSome (h : Turn b me s s') (hr : s.running? ≠ none) : s'.running? ≠ none := by
  rcases h.process with (hp | ⟨_, hp⟩) | ⟨_, _, _, hp⟩
  · rw [hp]; exact hr
  · rw [hp]; simp
  · rw [hp]; simp

/-- A server that was stopped after use stays stopped. -/
theorem stays_stopped (h : Turn b me s s') (hu : s.used = true) (hl : s.lifecycle = .stopped) :
    s'.lifecycle = .stopped := by
  rcases h.legal with hs | hs
  · exact hs.trans hl
  · rw [hl] at hs
    rcases h.entersStarting (eq_starting_of_canStep hs) with he | ⟨he, _⟩
    · rw [hl] at he; cases he
    · rw [hu] at he; cases he

/-- Once starting is over it does not come back. -/
theorem ne_starting (h : Turn b me s s') (hu : s.used = true) (hl : s.lifecycle ≠ .starting) :
    s'.lifecycle ≠ .starting := by
  intro hs
  rcases h.entersStarting hs with he | ⟨he, _⟩
  · exact hl he
  · rw [hu] at he; cases he

end Turn

/-- What holds of the shared state at any time survives a turn. -/
theorem Sound.turn {b : Bool} {me : Option Nat} {s s' : State} (h : Sound s) (ht : Turn b me s s') :
    Sound s' where
  unused := by
    -- Whoever is used stays so, so that it was unused before as well.
    intro hu'
    have hu : s.used = false := by
      cases hu : s.used with
      | false => rfl
      | true => rw [ht.used hu] at hu'; cases hu'
    obtain ⟨hl, hr, hd⟩ := h.unused hu
    refine ⟨?_, ?_, ?_⟩
    · rcases ht.legal with hs | hs
      · exact hs.trans hl
      · rw [hl] at hs
        rcases ht.entersStarting (eq_starting_of_canStep hs) with he | ⟨_, he⟩
        · rw [hl] at he; cases he
        · rw [hu'] at he; cases he
    · rcases ht.process with (hp | ⟨hp, _⟩) | ⟨_, hp, _⟩
      · exact hp.trans hr
      · rw [hr] at hp; cases hp
      · rw [hl] at hp; cases hp
    · rcases ht.startDone with he | ⟨_, he, _⟩
      · exact he.trans hd
      · rw [hu] at he; cases he
  reaped := by
    intro hl
    rcases ht.reaps hl with he | hr
    · have hs : s.lifecycle ≠ .starting := by
        rw [← he]
        rcases hl with hl | hl <;> rw [hl] <;> simp
      exact ht.running?_ne hs (h.reaped (he ▸ hl))
    · exact hr
  started := by
    intro hd
    rcases ht.startDone with he | ⟨_, _, hl⟩
    · rw [he] at hd
      have hu : s.used = true := by
        cases hu : s.used with
        | true => rfl
        | false => rw [(h.unused hu).2.2] at hd; cases hd
      exact ht.ne_starting hu (h.started hd)
    · exact hl

/-! ### No turn spoils what holds for another thread -/

theorem StartPoint.FitsProcess.fades {s s' : State} {p : StartPoint}
    (h : p.FitsProcess s.running?) (hf : Fades s s') : p.FitsProcess s'.running? := by
  rcases hf with hf | ⟨ha, hb⟩
  · rw [hf]; exact h
  · rw [hb]
    rw [ha] at h
    cases p <;> simp_all [FitsProcess]

/-- The state belongs to the call that starts the server as long as that call
makes no move. -/
theorem StartPoint.Fits.turn {me : Option Nat} {s s' : State} {p : StartPoint} (h : p.Fits s)
    (ht : Turn false me s s') : p.Fits s' := by
  have hdone : s.startDone = false → s'.startDone = false := by
    intro hd
    rcases ht.startDone with he | ⟨hb, _⟩
    · exact he.trans hd
    · cases hb
  cases p with
  | enter => trivial
  | announceRunning _ _ | finish _ _ =>
      -- Starting is over, and nobody can bring it back.
      obtain ⟨hu, hl, hd⟩ := h
      exact ⟨ht.used hu, ht.ne_starting hu hl, hdone hd⟩
  | _ =>
      -- Only the starter leaves this state, and only it gets a process.
      obtain ⟨hu, hl, hd, hp⟩ := h
      have hl' := (ht.leavesStarting hl).resolve_right (by simp)
      have hf := ht.process.resolve_right (by simp)
      exact ⟨ht.used hu, hl', hdone hd, hp.fades hf⟩

/-- What the thread that is stopping the server knows, only that thread can
change. -/
theorem StopPoint.FitsState.turn {b : Bool} {me : Option Nat} {s s' : State} {p : StopPoint}
    (h : p.FitsState s) (ht : Turn b me s s') (hme : s.stopper ≠ me) : p.FitsState s' := by
  -- Nobody else makes a stopping server leave the state it runs in.
  have hrun : s.lifecycle = .running → s.stopping = true → s'.lifecycle = .running := by
    intro hl hs
    rcases ht.leavesRunning hl with he | he | he
    · exact he
    · rw [hs] at he; cases he
    · exact absurd he hme
  cases p with
  | acquire | look | release => trivial
  | awaitStart =>
      obtain ⟨hu, hr⟩ := h
      exact ⟨ht.used hu, ht.stopRequested hr⟩
  | shutdown q =>
      obtain ⟨hl, hs, hr⟩ := h
      exact ⟨hrun hl hs, ht.stopping hs, fun hq => ht.running?_ended (hr hq)⟩
  | stopped =>
      obtain ⟨hl, hs, hr⟩ := h
      exact ⟨hrun hl hs, ht.stopping hs, ht.running?_ended hr⟩
  | killFailed | awaitKilled | closeFailed | failedStopped =>
      exact (ht.leavesFailed h).resolve_right hme
  | announceStopped _ | announceFailedStopped _ =>
      obtain ⟨hl, hu⟩ := h
      exact ⟨ht.stays_stopped hu hl, ht.used hu⟩

/-- **No turn spoils what holds for another thread.** -/
theorem Task.Fits.turn {b : Bool} {me : Option Nat} {s s' : State} {u : Task} {j : Nat}
    (h : u.Fits s j) (ht : Turn b me s s') (hb : u.isStarter = true → b = false)
    (hme : me ≠ some j) : u.Fits s' j := by
  cases u with
  | start mode p =>
      by_cases hp : p = .enter
      · subst hp; trivial
      · obtain rfl := hb (Task.isStarter_start hp)
        exact StartPoint.Fits.turn h ht
  | stop p =>
      intro hp
      obtain ⟨hmine, hfit⟩ := h hp
      exact ⟨ht.stopper j hmine hme, hfit.turn ht (fun he => hme (he ▸ hmine))⟩
  | notify _ _ _ => trivial
  | watch _ => trivial
  | done => trivial

end LanguageClient.Supervisor
