import LanguageClient.Proofs.Supervisor.Chronicle
import LanguageClient.Proofs.Supervisor.StopWhileStarting

/-! # What a call to start the server returns.

The call that is let through makes the first change and the second one. What it returns says
how it made the second: nothing if the server runs, that a stop was requested if the server
is stopped, and why starting failed otherwise.

* `StartFailure`      — the errors of a start, each with what has failed;
* `Task.Founded`      — a start that is about to fail fails for one of these reasons;
* `Settles`           — a result that fits the second change;
* `Stage`             — how far the one start has come, as the chronicle says;
* `start_results_agree` — result, state and last error agree in every interleaving. -/

namespace LanguageClient.Supervisor

variable {g : Settings} {s : State} {i : Nat} {t : Thread} {p : Progress}

/-! ### Why starting fails -/

/-- The binary can be executed, and there is a process. -/
structure Settings.Spawns (g : Settings) : Prop where
  executable : checkExecutable g.files g.binary = .ok ()
  spawned : g.spawnError = none

/-- The error of one of the two messages with which client and server agree on the protocol. -/
inductive IsHandshakeError : Error → Prop where
  | request (cause : Error) : IsHandshakeError (.context "initialize request" cause)
  | notification (cause : Error) : IsHandshakeError (.context "initialized notification" cause)

/-- Why starting fails, with the error that says so: the binary is refused, or a process is,
or client and server do not agree on the protocol. -/
inductive StartFailure (g : Settings) : Error → Prop where
  | binary {cause : Error}
      (refused : checkExecutable g.files g.binary = .error (.missingBinary g.binary.path (some cause))) :
      StartFailure g (.missingBinary g.binary.path (some cause))
  | spawn {cause : Error} (executable : checkExecutable g.files g.binary = .ok ())
      (refused : g.spawnError = some cause) : StartFailure g (.spawn g.binary.path (some cause))
  | handshake {cause : Error} (spawns : g.Spawns) (failed : IsHandshakeError cause) :
      StartFailure g (.protocolStart (some cause))

theorem StartFailure.ne_stopRequested {e : Error} (h : StartFailure g e) :
    e ≠ .condition .stopRequested := by
  rintro rfl
  cases h

/-- A binary that is refused counts as missing, for a reason. -/
theorem exists_of_refused {fs : FileSystem} {b : Binary} {e : Error}
    (h : checkExecutable fs b = .error e) : ∃ cause, e = .missingBinary b.path (some cause) := by
  unfold checkExecutable at h
  (repeat' split at h) <;> cases h <;> exact ⟨_, rfl⟩

/-- What a start has found out where it stands. -/
def Task.Founded (g : Settings) : Task → Prop
  | .start _ .spawn => checkExecutable g.files g.binary = .ok ()
  | .start _ .greet | .start _ (.awaitGreeting _) | .start _ (.acknowledge _) => g.Spawns
  | .start _ (.abort e) | .start _ (.awaitKilled e) | .start _ (.closeAborted e) =>
    g.Spawns ∧ IsHandshakeError e
  | .start _ (.fail e) => StartFailure g e
  | _ => True

/-- Nothing has to be known where nothing is asked for and nothing fails. -/
theorem founded_shutting (starter : Option LaunchMode) (q : Option ShutdownPoint) :
    (Task.shutting starter q).Founded g := by
  cases starter <;> cases q <;> trivial

/-- What a start has found out stays so with each of its steps. -/
theorem Does.founded {τ : Task} (h : Does g i t s τ p) (ht : τ.Founded g) : p.task.Founded g := by
  cases h with
  | passes row =>
      cases row with
      | unusable found =>
          obtain ⟨cause, rfl⟩ := exists_of_refused found
          exact .binary found
      | usable found => exact found
      | greeted | reaped => exact ht
      | rebuffed => exact ⟨ht, .request _⟩
      | unconnected | granted | denied | exited | killed => exact founded_shutting _ _
      | _ => trivial
  | shifts row | marks row | informs row => cases row <;> trivial
  -- The spawn was refused, or there is a process now.
  | spawns _ _ result =>
      rcases result with ⟨cause, hrefused, -, rfl⟩ | ⟨hspawned, -, rfl⟩
      · exact .spawn ht hrefused
      · exact ⟨ht, hspawned⟩
  | talks _ row =>
      cases row with
      | greet => exact ht
      | greetFailed => exact ⟨ht, .request _⟩
      | acknowledge => trivial
      | acknowledgeFailed => exact ⟨ht, .notification _⟩
      | shutdown | shutdownFailed | farewell => exact founded_shutting _ _
  | kills row =>
      cases row with
      | abort => exact ht
      | late => exact founded_shutting _ _
      | failed => trivial
  | closes row =>
      cases row with
      | aborted => exact .handshake ht.1 ht.2
      | finished => exact founded_shutting _ _
      | _ => trivial
  | sends | returns | tells => trivial

theorem founded_of_step (ht : t.task.Founded g) (h : step g i t s = some p) : p.task.Founded g :=
  (does_of_step h).founded ht

/-- **A start fails only for a reason**, in every interleaving. -/
theorem Steps.founded {path : List Lifecycle} {es : List Effect} {σ : System}
    (hs : Steps g {} path es σ) :
    ∀ (j : Nat) (u : Thread), σ.threads[j]? = some u → u.task.Founded g := by
  induction hs with
  | refl => simp
  | step hsteps hstep ih =>
      have hinv := hsteps.invariant invariant_initial
      intro j u hj
      rcases hstep.calm_or_advances with ⟨-, hsame⟩ | ⟨i, t, p, hi, hp, rfl, rfl⟩
      · rcases hsame j u hj with ⟨-, hentry⟩ | ⟨v, hv, he⟩
        · rcases Task.isEntry_cases hentry with ⟨mode, he⟩ | he | ⟨method, params, he⟩ <;> rw [he] <;> trivial
        · rw [he]
          exact ih j v hv
      · rcases getElem?_set_append hj with ⟨-, rfl⟩ | ⟨-, hold⟩ | ⟨-, hnew⟩
        · exact founded_of_step (ih i t hi) hp
        · exact ih j u hold
        · obtain ⟨task, htask, rfl⟩ := List.mem_map.mp hnew
          rw [Thread.ofTask, (step_proper hinv.sound (hinv.fits i t hi) hp).started task htask]
          trivial

/-! ### A result and the change behind it -/

/-- A result of a start that fits the change with which starting ends: nothing if the server
runs then, that a stop was requested if it is stopped, and otherwise why starting failed,
which is told as well. -/
structure Settles (g : Settings) (d : Change) (r : Option Error) : Prop where
  source : d.source = .starting
  running : r = none ↔ d.target = .running
  stopped : r = some (.condition .stopRequested) ↔ d.target = .stopped
  failed : r ≠ none → r ≠ some (.condition .stopRequested) →
    d.target = .failed ∧ ∃ e, r = some e ∧ d.error = some e ∧ StartFailure g e

/-- A call that is about to return. -/
inductive Task.Concludes (r : Option Error) : Task → Prop where
  | running {mode : LaunchMode} {moved : Option Transition} {info : Option ProgramInfo} (h : r = none) :
      Task.Concludes r (.start mode (.announceRunning moved info))
  | ended {mode : LaunchMode} {moved : Option Transition} :
      Task.Concludes r (.start mode (.finish moved r))

/-- Who is about to return does so with the next step. -/
theorem Task.Concludes.step {r : Option Error} (h : t.task.Concludes r) :
    ∃ p, step g i t s = some p ∧ p.task = .done ∧ p.state.lastError = s.lastError ∧
      .returned i r ∈ p.effects := by
  obtain ⟨task, _, _, _⟩ := t
  cases h with
  | running h =>
      subst h
      exact ⟨_, rfl, rfl, rfl, by simp⟩
  | ended => exact ⟨_, rfl, rfl, rfl, by simp⟩

/-- There is only one thing it can return. -/
theorem Task.Concludes.unique {task : Task} {r r' : Option Error} (h : task.Concludes r)
    (hmay : task.MayReturn r') : r' = r := by
  cases h with
  | running h => exact hmay.trans h.symm
  | ended => exact hmay

/-- **The transition with which starting ends is the one the result tells of.** -/
theorem settles_of_site {x : Transition} {task task' : Task} (hsite : Site s x task task')
    (hfound : task.Founded g) (hstart : task.isStarter = true) (hsource : x.source = .starting) :
    ∃ r, task'.Concludes r ∧ Settles g { x with maker := i } r := by
  cases hsite with
  | begin => cases hstart
  | run target error =>
      refine ⟨none, .running rfl, hsource, ?_, ?_, ?_⟩
      · simp [target]
      · simp [target]
      · intro hsome
        exact absurd rfl hsome
  | refrain here target error =>
      refine ⟨_, .ended, hsource, ?_, ?_, ?_⟩
      · simp [target]
      · simp [target]
      · intro _ hother
        exact absurd rfl hother
  | @fail mode e target error =>
      refine ⟨_, .ended, hsource, ?_, ?_, ?_⟩
      · simp [target]
      · have hne := StartFailure.ne_stopRequested hfound
        simp [target, hne]
      · intro _ _
        exact ⟨target, e, rfl, error, hfound⟩
  | stop | stopFailed | crash => cases hstart

/-! ### How far the one start has come -/

/-- How far the start that was let through has come, by the changes so far: nobody was let
through; or the server is starting, and the call that made it so goes on; or the same call
has made the second change, and returns or has returned what tells of it. -/
inductive Stage (g : Settings) (es : List Effect) (τ : System) : List Change → Prop where
  | unused (h : τ.state.used = false) (stopped : τ.state.lifecycle = .stopped) : Stage g es τ []
  | starting (c : Change) (begun : c.move = (.stopped, .starting)) (h : τ.state.lifecycle = .starting)
      (thread : ∃ u, τ.threads[c.maker]? = some u ∧ u.task.isStarter = true) : Stage g es τ [c]
  | settled (c d : Change) (later : List Change) (begun : c.move = (.stopped, .starting))
      (same : d.maker = c.maker) (h : τ.state.lifecycle ≠ .starting) (used : τ.state.used = true)
      (rest : ∀ e ∈ later, e.source ≠ .starting)
      (thread : ∃ u r, τ.threads[c.maker]? = some u ∧ Settles g d r ∧
        (u.task.Concludes r ∨
          u.task = .done ∧ .returned c.maker r ∈ es ∧ ∀ r', .returned c.maker r' ∈ es → r' = r)) :
      Stage g es τ (c :: d :: later)

section Stages

variable {cs : List Change} {es new : List Effect} {τ υ : System}

/-- The thread of a settled start, after a step of some system. -/
theorem settled_thread {j : Nat} {d : Change} (hstep : Step g τ new υ)
    (hreturned : ∀ r, .returned j r ∈ es → ∃ u, τ.threads[j]? = some u ∧ u.task = .done)
    (h : ∃ u r, τ.threads[j]? = some u ∧ Settles g d r ∧
      (u.task.Concludes r ∨ u.task = .done ∧ .returned j r ∈ es ∧ ∀ r', .returned j r' ∈ es → r' = r)) :
    ∃ u r, υ.threads[j]? = some u ∧ Settles g d r ∧
      (u.task.Concludes r ∨
        u.task = .done ∧ .returned j r ∈ es ++ new ∧ ∀ r', .returned j r' ∈ es ++ new → r' = r) := by
  obtain ⟨u, r, hj, htells, hstands⟩ := h
  rcases hstep.stands_or_advances hj with ⟨⟨v, hv, he⟩, hsilent⟩ | ⟨p, moves, rfl, rfl⟩
  · refine ⟨v, r, hv, htells, ?_⟩
    rw [he]
    refine hstands.imp_right fun ⟨hdone, hr, honly⟩ => ⟨hdone, List.mem_append_left new hr, ?_⟩
    intro r' hr'
    exact (List.mem_append.mp hr').elim (honly r') fun hnew => absurd hnew (hsilent r')
  · rcases hstands with hconcludes | ⟨hdone, -⟩
    · -- the call itself returns
      obtain ⟨p', hp', hdone, -, hr⟩ := hconcludes.step
      obtain rfl := Option.some.inj (moves.symm.trans hp')
      refine ⟨_, r, System.getElem?_advance_self hj p, htells, Or.inr ⟨hdone, ?_, ?_⟩⟩
      · exact List.mem_append_right es hr
      · intro r' hr'
        rcases List.mem_append.mp hr' with hold | hnew
        · obtain ⟨v, hv, hdone'⟩ := hreturned r' hold
          obtain rfl := Option.some.inj (hj.symm.trans hv)
          rw [hdone'] at hconcludes
          cases hconcludes
        · exact hconcludes.unique (returned_of_step moves hnew).2.2
    · simp only [step, hdone] at moves
      cases moves

/-- A step that leaves the server in its state leaves the start at its stage. -/
theorem Stage.aside (h : Stage g es τ cs) (hinv : Invariant τ) (hstep : Step g τ new υ)
    (hsame : υ.state.lifecycle = τ.state.lifecycle)
    (hreturned : ∀ j r, .returned j r ∈ es → ∃ u, τ.threads[j]? = some u ∧ u.task = .done) :
    Stage g (es ++ new) υ cs := by
  have hused := (hstep.recorded_of_same hinv hsame).2
  cases h with
  | unused h stopped => exact .unused (hused.trans h) (hsame.trans stopped)
  | starting c begun h thread =>
      obtain ⟨u, hj, hu⟩ := thread
      refine .starting c begun (hsame.trans h) ?_
      rcases hstep.stands_or_advances hj with ⟨⟨v, hv, he⟩, -⟩ | ⟨p, moves, rfl, rfl⟩
      · exact ⟨v, hv, he ▸ hu⟩
      · refine ⟨_, System.getElem?_advance_self hj p, ?_⟩
        rcases starter_step hu (hinv.fits _ u hj) moves with hgo | ⟨-, hover⟩
        · exact hgo
        · exact absurd (hsame.trans h) hover
  | settled c d later begun same h used rest thread =>
      refine .settled c d later begun same ?_ (hused.trans used) rest ?_
      · rw [hsame]
        exact h
      · exact settled_thread hstep (hreturned c.maker) thread

/-- A change of state brings the start one stage further, or comes after it. -/
theorem Stage.change {x : Transition} (h : Stage g es τ cs) (hinv : Invariant τ)
    (hfound : ∀ (j : Nat) (u : Thread), τ.threads[j]? = some u → u.task.Founded g)
    (here : τ.threads[i]? = some t) (moves : step g i t τ.state = some p)
    (left : p.state.lifecycle ≠ τ.state.lifecycle) (told : p.task.announcing? = some x)
    (hreturned : ∀ j r, .returned j r ∈ es → ∃ u, τ.threads[j]? = some u ∧ u.task = .done) :
    Stage g (es ++ p.effects) (τ.advance i t p) (cs ++ [{ x with maker := i }]) := by
  obtain ⟨hmove, hlegal, -, heffects, hsite⟩ :=
    change_of_step hinv.sound (hinv.fits i t here) moves left told
  have hproper := step_proper hinv.sound (hinv.fits i t here) moves
  have hself := System.getElem?_advance_self here p
  cases h with
  | unused hunused stopped =>
      -- a stopped server can only start
      rw [stopped] at hlegal hmove
      have hstarting := eq_starting_of_canStep hlegal
      refine .starting _ ?_ hstarting ⟨_, hself, ?_⟩
      · show x.move = _
        rw [hmove, hstarting]
      · exact isStarter_of_starting moves (by rw [stopped]; simp) hstarting
  | starting c begun h thread =>
      obtain ⟨u, hj, hu⟩ := thread
      have hsource : x.source = .starting := (congrArg Prod.fst hmove).trans h
      have hused : τ.state.used = true := (hinv.fits _ u hj).used hu
      -- while the server is starting, only the call that starts it makes a change
      have hstart : t.task.isStarter = true := by
        by_contra hnot
        rcases hproper.turn.leavesStarting h with hstays | hstarter
        · exact left (hstays.trans h.symm)
        · exact hnot hstarter
      obtain rfl := hinv.unique _ _ u t hj here hu hstart
      obtain ⟨r, hconcludes, htells⟩ := settles_of_site (i := c.maker) hsite (hfound _ t here) hstart hsource
      have hgone : p.state.lifecycle ≠ .starting := by
        rw [← h]
        exact left
      exact .settled c _ [] begun rfl hgone (hproper.turn.used hused) (by simp)
        ⟨_, r, hself, htells, Or.inl hconcludes⟩
  | settled c d later begun same h used rest thread =>
      have hsource : x.source ≠ .starting := by
        rw [show x.source = τ.state.lifecycle from congrArg Prod.fst hmove]
        exact h
      have hgone : (τ.advance i t p).state.lifecycle ≠ .starting := hproper.turn.ne_starting used h
      have hused : (τ.advance i t p).state.used = true := hproper.turn.used used
      refine .settled c d (later ++ [{ x with maker := i }]) begun same hgone hused ?_ ?_
      · exact List.forall_mem_append.mpr ⟨rest, List.forall_mem_singleton.mpr hsource⟩
      · exact settled_thread (.advance here moves) (hreturned c.maker) thread

/-- **How far the one start has come**, in every interleaving. -/
theorem Chronicle.stage (h : Chronicle g {} cs es τ) : Stage g es τ cs := by
  induction h with
  | refl => exact .unused rfl rfl
  | aside hbefore hstep hsame ih =>
      have hsteps := hbefore.steps invariant_initial
      exact ih.aside (hbefore.invariant invariant_initial) hstep hsame fun _ _ => hsteps.done_of_returned
  | change hbefore here moves left told ih =>
      have hsteps := hbefore.steps invariant_initial
      exact ih.change (hbefore.invariant invariant_initial) hsteps.founded here moves left told
        fun _ _ => hsteps.done_of_returned

end Stages

/-! ### Every other start -/

section Refused

variable {j : Nat} {mode : LaunchMode} {cs : List Change} {es new : List Effect} {τ υ : System}

/-- Thread `j`, a call to start the server, has not been let through, or has returned. -/
def IsRefused (mode : LaunchMode) (j : Nat) (σ : System) : Prop :=
  ∃ u, σ.threads[j]? = some u ∧ (u.task = .start mode .enter ∨ u.task = .done)

/-- A call to start a supervisor that was used is refused, whoever moves. -/
theorem IsRefused.step (h : IsRefused mode j τ) (hu : τ.state.used = true) (hstep : Step g τ new υ) :
    IsRefused mode j υ ∧ ∀ r, .returned j r ∈ new → r = some (.condition .supervisorUsed) := by
  obtain ⟨u, hj, hstands⟩ := h
  rcases hstep.stands_or_advances hj with ⟨⟨v, hv, he⟩, hsilent⟩ | ⟨p, moves, rfl, rfl⟩
  · refine ⟨⟨v, hv, ?_⟩, fun r hr => absurd hr (hsilent r)⟩
    rw [he]
    exact hstands
  · rcases hstands with henter | hdone
    · rw [step_enter_used hu henter] at moves
      cases moves
      refine ⟨⟨_, System.getElem?_advance_self hj _, Or.inr rfl⟩, ?_⟩
      intro r hr
      cases List.mem_singleton.mp hr
      rfl
    · simp only [step, hdone] at moves
      cases moves

/-- A call to start a supervisor that was used returns that it was, and changes nothing. -/
theorem Chronicle.refused (h : Chronicle g τ cs new υ) (hinv : Invariant τ) (hu : τ.state.used = true)
    (hj : IsRefused mode j τ) :
    (υ.state.used = true ∧ IsRefused mode j υ) ∧
      (∀ r, .returned j r ∈ new → r = some (.condition .supervisorUsed)) ∧ ∀ c ∈ cs, c.maker ≠ j := by
  induction h with
  | refl => exact ⟨⟨hu, hj⟩, by simp, by simp⟩
  | aside hbefore hstep _ ih =>
      obtain ⟨⟨hu', hj'⟩, hreturned, hmaker⟩ := ih
      obtain ⟨-, _, _, hturn⟩ := hstep.invariant (hbefore.invariant hinv)
      obtain ⟨hj'', hnew⟩ := hj'.step hu' hstep
      refine ⟨⟨hturn.used hu', hj''⟩, ?_, hmaker⟩
      intro r hr
      exact (List.mem_append.mp hr).elim (hreturned r) (hnew r)
  | @change ds es τ' i t p x hbefore here moves left _ ih =>
      obtain ⟨⟨hu', hj'⟩, hreturned, hmaker⟩ := ih
      have hstep : Step g τ' p.effects (τ'.advance i t p) := .advance here moves
      obtain ⟨-, _, _, hturn⟩ := hstep.invariant (hbefore.invariant hinv)
      obtain ⟨hj'', hnew⟩ := hj'.step hu' hstep
      refine ⟨⟨hturn.used hu', hj''⟩, ?_, ?_⟩
      · intro r hr
        exact (List.mem_append.mp hr).elim (hreturned r) (hnew r)
      · refine List.forall_mem_append.mpr ⟨hmaker, List.forall_mem_singleton.mpr ?_⟩
        show i ≠ j
        rintro rfl
        -- a step of the call itself leaves everything as it was
        obtain ⟨u, hu'', hstands⟩ := hj'
        obtain rfl := Option.some.inj (here.symm.trans hu'')
        rcases hstands with henter | hdone
        · rw [step_enter_used hu' henter] at moves
          cases moves
          exact left rfl
        · simp only [step, hdone] at moves
          cases moves

/-- The first call to start the server is let through. -/
theorem step_enter_unused {t : Thread} {s : State} (hs : Sound s) (hu : s.used = false)
    (ht : t.task = .start mode .enter) :
    ∃ p x, step g j t s = some p ∧ p.task.announcing? = some x ∧ x.move = (.stopped, .starting) ∧
      p.effects = [] := by
  have hl : State.lifecycle { s with used := true } = .stopped := (hs.unused hu).1
  simp only [step, ht, startStep, hu, Bool.false_eq_true, if_false]
  rw [State.transition_of_canStep (by rw [hl]; rfl)]
  refine ⟨_, _, rfl, rfl, ?_, rfl⟩
  rw [Transition.move, hl]

end Refused

/-! ### A binary that is not there -/

/-- A supervisor of a binary that is not there. -/
def absentServer : Settings where
  binary := { path := "/server", platform := ⟨"linux", "x64"⟩ }

/-- Why a binary that is not there is refused. -/
def absentBinary : Error := .missingBinary "/server" (some (.file "stat" "/server" .noEntry))

/-- Two calls to start a server that is not there. The one that comes first is let through
and fails. -/
theorem absent_chronicle : ∃ τ, Chronicle absentServer {}
    [{ source := .stopped, target := .starting, error := none, observers := 0, maker := 0 },
      { source := .starting, target := .failed, error := some absentBinary, observers := 0, maker := 0 }]
    [.returned 1 (some (.condition .supervisorUsed)), .returned 0 (some absentBinary)] τ ∧
    τ.state.lastError = some absentBinary := by
  have called : Chronicle absentServer {} [] [] _ :=
    (Chronicle.refl.aside (.call (.start .run .enter) false false rfl) rfl).aside
      (.call (.start .run .enter) false false rfl) rfl
  have begun := called.change (i := 0) rfl rfl (by decide) rfl
  have refused := begun.advance (i := 1) rfl rfl rfl
  have told := refused.advance (i := 0) rfl rfl rfl
  have checked := told.advance (i := 0) rfl rfl rfl
  have failed := checked.change (i := 0) rfl rfl (by decide) rfl
  exact ⟨_, failed.advance (i := 0) rfl rfl rfl, rfl⟩

/-! ### Agreement -/

section Agreement

variable {cs : List Change} {es : List Effect} {τ : System}

theorem Stage.used_iff (h : Stage g es τ cs) (hinv : Invariant τ) : τ.state.used = true ↔ cs ≠ [] := by
  cases h with
  | unused h => simp [h]
  | starting c _ _ thread =>
      obtain ⟨u, hj, hu⟩ := thread
      simp [(hinv.fits _ u hj).used hu]
  | settled _ _ _ _ _ _ used => simp [used]

/-- The call that makes the first change is the one that is let through: it alone makes a
change from starting, and what it returns tells of that change. -/
theorem Chronicle.let_through (h : Chronicle g {} cs es τ) {c : Change} (hc : cs.head? = some c) :
    c.move = (.stopped, .starting) ∧
      (∀ d ∈ cs, d.source = .starting → cs[1]? = some d ∧ d.maker = c.maker ∧
        (d.target = .failed → τ.state.lastError = d.error) ∧
        ((∃ r, .returned c.maker r ∈ es) ∨
          ∃ u p r, τ.threads[c.maker]? = some u ∧ step g c.maker u τ.state = some p ∧
            .returned c.maker r ∈ p.effects ∧ Settles g d r)) ∧
      ∀ r, .returned c.maker r ∈ es → ∃ d ∈ cs, Settles g d r := by
  have hstage := h.stage
  cases hstage with
  | unused => cases hc
  | starting c' begun hl thread =>
      cases hc
      obtain ⟨u, hj, hu⟩ := thread
      refine ⟨begun, ?_, ?_⟩
      · intro d hd hsource
        rw [List.mem_singleton.mp hd] at hsource
        have hstopped : c.source = .stopped := congrArg Prod.fst begun
        rw [hstopped] at hsource
        cases hsource
      · -- nothing has been returned: the call goes on
        intro r hr
        obtain ⟨v, hv, hdone⟩ := (h.steps invariant_initial).done_of_returned hr
        obtain rfl := Option.some.inj (hj.symm.trans hv)
        rw [hdone] at hu
        cases hu
  | settled c' d later begun same hl used rest thread =>
      cases hc
      obtain ⟨u, r, hj, htells, hstands⟩ := thread
      refine ⟨begun, ?_, ?_⟩
      · intro d' hd' hsource
        have hsame : d' = d := by
          rcases List.mem_cons.mp hd' with rfl | hd'
          · have hstopped : d'.source = .stopped := congrArg Prod.fst begun
            rw [hstopped] at hsource
            cases hsource
          · rcases List.mem_cons.mp hd' with he | hd'
            · exact he
            · exact absurd hsource (rest d' hd')
        subst hsame
        refine ⟨rfl, same, h.lastError_of_mem hd', ?_⟩
        rcases hstands with hconcludes | ⟨-, hr, -⟩
        · obtain ⟨p, hp, -, -, hr⟩ := hconcludes.step
          exact Or.inr ⟨u, p, r, hj, hp, hr, htells⟩
        · exact Or.inl ⟨r, hr⟩
      · intro r' hr'
        refine ⟨d, by simp, ?_⟩
        rcases hstands with hconcludes | ⟨-, -, honly⟩
        · obtain ⟨v, hv, hdone⟩ := (h.steps invariant_initial).done_of_returned hr'
          obtain rfl := Option.some.inj (hj.symm.trans hv)
          rw [hdone] at hconcludes
          cases hconcludes
        · rw [honly r' hr']
          exact htells

/-- A call to start the server is let through as long as there was no change, and refused
afterwards. -/
theorem Chronicle.enter (h : Chronicle g {} cs es τ) {j : Nat} {u : Thread} {mode : LaunchMode}
    (hj : τ.threads[j]? = some u) (henter : u.task = .start mode .enter) :
    (cs = [] → ∃ p x, step g j u τ.state = some p ∧ p.task.announcing? = some x ∧
      x.move = (.stopped, .starting) ∧ p.effects = []) ∧
    (cs ≠ [] → step g j u τ.state = some { state := τ.state, task := .done,
                                           effects := [.returned j (some (.condition .supervisorUsed))] } ∧
      ∀ ds new υ, Chronicle g τ ds new υ →
        (∀ r, .returned j r ∈ new → r = some (.condition .supervisorUsed)) ∧ ∀ d ∈ ds, d.maker ≠ j) := by
  have hinv := h.invariant invariant_initial
  have hstage := h.stage
  refine ⟨?_, ?_⟩
  · intro hnone
    have hunused : τ.state.used = false := by
      rw [← Bool.not_eq_true, hstage.used_iff hinv]
      simp [hnone]
    exact step_enter_unused hinv.sound hunused henter
  · intro hsome
    have hused := (hstage.used_iff hinv).mpr hsome
    refine ⟨step_enter_used hused henter, ?_⟩
    intro ds new υ hlater
    exact (hlater.refused hinv hused ⟨u, hj, Or.inl henter⟩).2

/-- **Result, state and last error agree**, in every interleaving.

* The last error is that of the latest change to being failed, and there is one exactly if
  there was such a change.
* The call that makes the first change is the one that is let through. It alone makes a
  change from starting, which is the second one. What it has returned tells of that change,
  and once it has made the change it has returned, or does so with its next step. If it made
  the server fail, the error of the change is the last error.
* As long as there was no change, a call to start the server is let through. After that,
  every other call returns with its next step that the supervisor was used, leaving the
  state as it is, and never returns anything else or makes a change. -/
theorem start_results_agree (h : Chronicle g {} cs es τ) :
    (τ.state.lastError = latestFailure cs ∧
      (τ.state.lastError ≠ none ↔ ∃ c ∈ cs, c.target = .failed)) ∧
    (∀ c, cs.head? = some c → c.move = (.stopped, .starting) ∧
      (∀ d ∈ cs, d.source = .starting → cs[1]? = some d ∧ d.maker = c.maker ∧
        (d.target = .failed → τ.state.lastError = d.error) ∧
        ((∃ r, .returned c.maker r ∈ es) ∨
          ∃ u p r, τ.threads[c.maker]? = some u ∧ step g c.maker u τ.state = some p ∧
            .returned c.maker r ∈ p.effects ∧ Settles g d r)) ∧
      ∀ r, .returned c.maker r ∈ es → ∃ d ∈ cs, Settles g d r) ∧
    ∀ j u mode, τ.threads[j]? = some u → u.task = .start mode .enter →
      (cs = [] → ∃ p x, step g j u τ.state = some p ∧ p.task.announcing? = some x ∧
        x.move = (.stopped, .starting) ∧ p.effects = []) ∧
      (cs ≠ [] → step g j u τ.state = some { state := τ.state, task := .done,
                                             effects := [.returned j (some (.condition .supervisorUsed))] } ∧
        ∀ ds new υ, Chronicle g τ ds new υ →
          (∀ r, .returned j r ∈ new → r = some (.condition .supervisorUsed)) ∧
            ∀ d ∈ ds, d.maker ≠ j) := by
  exact ⟨h.lastError, fun _ hc => h.let_through hc, fun _ _ _ hj henter => h.enter hj henter⟩

/-- The start that fails returns why, and that is the last error. -/
theorem absent_start_agrees :
    ∃ cs es τ, Chronicle absentServer {} cs es τ ∧ .returned 0 (some absentBinary) ∈ es ∧
      (∃ d ∈ cs, Settles absentServer d (some absentBinary)) ∧ τ.state.lastError = some absentBinary ∧
      StartFailure absentServer absentBinary := by
  obtain ⟨τ, h, -⟩ := absent_chronicle
  obtain ⟨⟨hlast, -⟩, hfirst, -⟩ := start_results_agree h
  obtain ⟨-, -, hreturned⟩ := hfirst _ rfl
  obtain ⟨d, hd, htells⟩ := hreturned (some absentBinary) (by simp)
  obtain ⟨-, e, he, -, hfailure⟩ := htells.failed (by simp) (by simp [absentBinary])
  cases he
  exact ⟨_, _, τ, h, by simp, ⟨d, hd, htells⟩, hlast, hfailure⟩

end Agreement

end LanguageClient.Supervisor
