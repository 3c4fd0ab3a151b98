import LanguageClient.Proofs.Supervisor.Turn

/-! # Every step of a thread is a proper turn.

`step_proper` goes through the points of all tasks. Most steps are calm: they
talk to the server, and change nothing that others decide by. What is left are
the changes of state, the flags that threads set for each other, and the lock
that calls to stop the server take one after the other. -/

namespace LanguageClient.Supervisor

/-- Whether a task may still ask for a process. -/
def Task.isLaunching : Task → Bool
  | .start _ (.announceStarting _) | .start _ .checkBinary | .start _ .spawn => true
  | _ => false

/-- What a step of thread `i` at task `t` comes to, with respect to the others
and to what can be seen. -/
structure Progress.Proper (g : Settings) (i : Nat) (t : Task) (s : State) (p : Progress) : Prop where
  turn : Turn t.isStarter (some i) s p.state
  fits : p.task.Fits p.state i
  starter : p.task.isStarter = true → t.isStarter = true ∨ s.used = false
  launching : p.task.isLaunching = true → t.isLaunching = true ∨ s.used = false
  started : ∀ u ∈ p.started, u = .watch .awaitExit
  /-- The effects are plain, except where a process is asked for. -/
  effects : (∀ e ∈ p.effects, e.Plain) ∨
    (∃ mode, t = .start mode .spawn) ∧ p.task.isLaunching = false ∧
      (g.spawnError = none → p.state.running? ≠ none) ∧
      ∃ line launch, line.Plain ∧ p.effects = [line, .spawned launch]

section Proper

variable {g : Settings} {i : Nat} {t t' : Task} {s s' : State} {es : List Effect} {started : List Task}

/-- A turn is proper if the task it leads to fits and asks for no process. -/
theorem Turn.proper {b : Bool} (h : Turn b (some i) s s') (hb : t.isStarter = b)
    (hfit : t'.Fits s' i) (hstart : t'.isStarter = true → t.isStarter = true)
    (hlaunch : t'.isLaunching = false) (hplain : ∀ e ∈ es, e.Plain)
    (hwatch : ∀ u ∈ started, u = .watch .awaitExit) :
    Progress.Proper g i t s { state := s', task := t', effects := es, started } where
  turn := hb ▸ h
  fits := hfit
  starter := fun hs => Or.inl (hstart hs)
  launching := by
    intro hl
    rw [hlaunch] at hl
    cases hl
  started := hwatch
  effects := Or.inl hplain

end Proper

/-! ### Changes of state and of flags -/

section Changes

variable {s : State} {me : Option Nat}

theorem State.transition_of_canStep {target : Lifecycle} {e : Option Error}
    (h : s.lifecycle.canStep target = true) :
    s.transition target e = ({ s with lifecycle := target, lastError := e.or s.lastError }, [],
      some { source := s.lifecycle, target, error := e, observers := s.observers }) := by
  simp only [transition, h, if_true]

/-- The first call to start the server is let through. -/
theorem Turn.begin (hs : Sound s) (hu : s.used = false) (e : Option Error) :
    Turn false me s { s with used := true, lifecycle := .starting, lastError := e } := by
  have hl := (hs.unused hu).1
  have hr : State.running? { s with used := true, lifecycle := .starting, lastError := e } =
    s.running? := rfl
  constructor <;> simp_all [Fades, Lifecycle.canStep]

/-- There is a process now. -/
theorem Turn.spawn (hl : s.lifecycle = .starting) (hr : s.running? = none) (c : Rpc.Connection) :
    Turn true me s { s with process := some {}, connection := some c } := by
  have hr' : State.running? { s with process := some {}, connection := some c } = some true := rfl
  constructor <;> simp_all

/-- Starting fails or is stopped, once the process is gone. -/
theorem Turn.leave_starting {target : Lifecycle} (hl : s.lifecycle = .starting)
    (hr : s.running? ≠ some true) (ht : target = .failed ∨ target = .stopped) (e : Option Error) :
    Turn true me s { s with lifecycle := target, lastError := e } := by
  have hr' : State.running? { s with lifecycle := target, lastError := e } = s.running? := rfl
  rcases ht with rfl | rfl <;> constructor <;> simp_all [Fades, Lifecycle.canStep]

/-- The server runs, since nobody has asked to stop it. -/
theorem Turn.run (hl : s.lifecycle = .starting) (hq : s.stopRequested = false)
    (info : Option ProgramInfo) (e : Option Error) :
    Turn true me s
      { s with attached := true, serverInfo := info, lifecycle := .running, lastError := e } := by
  have hr : State.running?
      { s with attached := true, serverInfo := info, lifecycle := .running, lastError := e } =
    s.running? := rfl
  constructor <;> simp_all [Fades, Lifecycle.canStep]

/-- The server is to be shut down before it was ever said to run. -/
theorem Turn.refrain (info : Option ProgramInfo) :
    Turn true me s { s with attached := true, serverInfo := info, stopping := true } := by
  have hr : State.running? { s with attached := true, serverInfo := info, stopping := true } =
    s.running? := rfl
  constructor <;> simp_all [Fades]

/-- The call to start the server is about to return. -/
theorem Turn.finish (hu : s.used = true) (hl : s.lifecycle ≠ .starting) :
    Turn true me s { s with startDone := true } := by
  have hr : State.running? { s with startDone := true } = s.running? := rfl
  constructor <;> simp_all [Fades]

/-- The thread that is stopping the server says that it is stopped. -/
theorem Turn.stop (hl : s.lifecycle = .running ∨ s.lifecycle = .failed) (hs : s.stopper = me)
    (hr : s.running? ≠ some true) (e : Option Error) :
    Turn false me s { s with lifecycle := .stopped, lastError := e } := by
  have hr' : State.running? { s with lifecycle := .stopped, lastError := e } = s.running? := rfl
  rcases hl with hl | hl <;> constructor <;> simp_all [Fades, Lifecycle.canStep]

/-- The process of a running server has ended, and nobody is stopping it. -/
theorem Turn.crash (hl : s.lifecycle = .running) (hs : s.stopping = false)
    (hr : s.running? = some false) (e : Option Error) :
    Turn false me s { s with lifecycle := .failed, lastError := e } := by
  have hr' : State.running? { s with lifecycle := .failed, lastError := e } = s.running? := rfl
  constructor <;> simp_all [Fades, Lifecycle.canStep]

theorem Turn.request : Turn false me s { s with stopRequested := true } := by
  have hr : State.running? { s with stopRequested := true } = s.running? := rfl
  constructor <;> simp_all [Fades]

theorem Turn.halt : Turn false me s { s with stopping := true } := by
  have hr : State.running? { s with stopping := true } = s.running? := rfl
  constructor <;> simp_all [Fades]

theorem Turn.acquire {i : Nat} (hs : s.stopper = none) :
    Turn false (some i) s { s with stopper := some i } := by
  have hr : State.running? { s with stopper := some i } = s.running? := rfl
  constructor <;> simp_all [Fades]

theorem Turn.letGo {i : Nat} (hs : s.stopper = some i) :
    Turn false (some i) s { s with stopper := none } := by
  have hr : State.running? { s with stopper := none } = s.running? := rfl
  constructor <;> simp_all [Fades]

end Changes

/-! ### What fits where a step comes to -/

section Fits

variable {g : Settings} {i : Nat} {t : Thread} {s s' : State} {τ τ' : Task} {said : List String}

/-- What holds where a thread stands, while nothing but calm steps are taken. -/
theorem Task.Fits.quiet (h : τ.Fits s i) (hq : Quiet s s') : τ.Fits s' i :=
  h.turn (hq.turn false none) (fun _ => rfl) (by simp)

/-- A shutdown goes on, to closing the connection only when the process has ended. -/
theorem fits_shutting {starter : Option LaunchMode} {q next : ShutdownPoint}
    (h : (Task.shutting starter (some q)).Fits s i) (hclose : next = .close → s.running? = some false) :
    (Task.shutting starter (some next)).Fits s i := by
  cases starter with
  | some mode =>
      obtain ⟨hu, hl, hd, hr, -⟩ := h
      exact ⟨hu, hl, hd, hr, hclose⟩
  | none =>
      intro _
      obtain ⟨hmine, hl, hst, -⟩ := h (by simp)
      exact ⟨hmine, hl, hst, hclose⟩

/-- A shutdown is over when the connection is closed. -/
theorem fits_shutting_over {starter : Option LaunchMode}
    (h : (Task.shutting starter (some .close)).Fits s i) : (Task.shutting starter none).Fits s i := by
  cases starter with
  | some mode =>
      obtain ⟨hu, hl, hd, -, hr⟩ := h
      exact ⟨hu, hl, hd, hr rfl⟩
  | none =>
      intro _
      obtain ⟨hmine, hl, hst, hr⟩ := h (by simp)
      exact ⟨hmine, hl, hst, hr rfl⟩

/-- Where a thread goes by what it finds, that is what it knows afterwards. -/
theorem Passes.fits (row : Passes g t s τ τ' said) (h : τ.Fits s i) : τ'.Fits s i := by
  -- An exit code is set exactly if the process has ended.
  have hend : s.exitCode?.isSome = true → s.running? = some false := State.exitCode?_isSome_iff.mp
  cases row with
  | unusable =>
      obtain ⟨hu, hl, hd, hr⟩ := h
      have hr : s.running? = none := hr
      exact ⟨hu, hl, hd, by simp [StartPoint.FitsProcess, hr]⟩
  | usable | greeted | rebuffed => exact h
  | reaped exited =>
      obtain ⟨hu, hl, hd, -⟩ := h
      exact ⟨hu, hl, hd, hend exited⟩
  | unconnected | granted | denied => exact fits_shutting h (by simp)
  | exited exited | killed exited => exact fits_shutting h fun _ => hend exited
  | idle | startOver =>
      obtain ⟨hmine, -⟩ := h (by simp)
      exact fun _ => ⟨hmine, trivial⟩
  | unharmed | reapedFailed | unattached =>
      obtain ⟨hmine, hl⟩ := h (by simp)
      exact fun _ => ⟨hmine, hl⟩
  | ready | expected => trivial

/-- What is said over the connection leaves what the thread knows as it is. -/
theorem Talks.fits {c : Rpc.Connection} {r : Rpc.Connection × List Rpc.Effect} (row : Talks g t c τ τ' r said)
    (h : τ.Fits s i) : τ'.Fits s i := by
  cases row with
  | greet | greetFailed | acknowledge | acknowledgeFailed => exact h
  | shutdown | shutdownFailed | farewell => exact fits_shutting h (by simp)

theorem Kills.fits (row : Kills g t s τ τ' said) (h : τ.Fits s' i) : τ'.Fits s' i := by
  cases row with
  | abort => exact h
  | late => exact fits_shutting h (by simp)
  | failed =>
      obtain ⟨hmine, hl⟩ := h (by simp)
      exact fun _ => ⟨hmine, hl⟩

theorem Closes.fits (row : Closes t s τ τ' said) (h : τ.Fits s' i) : τ'.Fits s' i := by
  cases row with
  | cancelled => exact h
  | aborted =>
      obtain ⟨hu, hl, hd, hr⟩ := h
      have hr : s'.running? = some false := hr
      exact ⟨hu, hl, hd, by simp [StartPoint.FitsProcess, hr]⟩
  | finished => exact fits_shutting_over h
  | failed =>
      obtain ⟨hmine, hl⟩ := h (by simp)
      exact fun _ => ⟨hmine, hl⟩
  | crashed => trivial

end Fits

/-! ### Who starts the server -/

section Starters

variable {g : Settings} {i : Nat} {t : Thread} {s s' : State} {τ τ' : Task} {said : List String}

/-- A calm step keeps a call that starts the server at that, and leads to asking for a process
only from there. -/
structure Follows (τ τ' : Task) : Prop where
  starter : τ'.isStarter = τ.isStarter
  launching : τ'.isLaunching = true → τ.isLaunching = true

theorem follows_shutting (starter : Option LaunchMode) (q q' : Option ShutdownPoint) :
    Follows (.shutting starter q) (.shutting starter q') := by
  cases starter <;> cases q <;> cases q' <;> exact ⟨rfl, id⟩

theorem Passes.follows (row : Passes g t s τ τ' said) : Follows τ τ' := by
  cases row with
  | unconnected | granted | denied | exited | killed => exact follows_shutting _ _ _
  | _ => exact ⟨rfl, by simp [Task.isLaunching]⟩

theorem Talks.follows {c : Rpc.Connection} {r : Rpc.Connection × List Rpc.Effect}
    (row : Talks g t c τ τ' r said) : Follows τ τ' := by
  cases row with
  | shutdown | shutdownFailed | farewell => exact follows_shutting _ _ _
  | _ => exact ⟨rfl, id⟩

theorem Kills.follows (row : Kills g t s τ τ' said) : Follows τ τ' := by
  cases row with
  | late => exact follows_shutting _ _ _
  | abort | failed => exact ⟨rfl, id⟩

theorem Closes.follows (row : Closes t s τ τ' said) : Follows τ τ' := by
  cases row with
  | finished => exact follows_shutting _ _ _
  | _ => exact ⟨rfl, id⟩

end Starters

/-! ### Every kind of step -/

section Kinds

variable {g : Settings} {i : Nat} {t : Thread} {s s' : State} {τ τ' : Task} {es : List Effect}
  {said : List String}

/-- A calm step is proper if it leads to nowhere new and the task there fits. -/
theorem Calm.proper (h : Calm s (s', es)) (hfit : τ'.Fits s' i) (hfollows : Follows τ τ') :
    Progress.Proper g i τ s { state := s', task := τ', effects := es } where
  turn := h.quiet.turn _ _
  fits := hfit
  starter := fun hs => Or.inl (hfollows.starter.symm.trans hs)
  launching := fun hl => Or.inl (hfollows.launching hl)
  started := by simp
  effects := Or.inl h.plain

/-- A thread sets a flag. -/
theorem Marks.proper (row : Marks i s τ s' τ' said) (hs : Sound s) (h : τ.Fits s i) :
    Progress.Proper g i τ s { state := s', task := τ', effects := said.map logged } := by
  have hplain := plain_said row.ordinary
  cases row with
  | refrain =>
      obtain ⟨hu, hl, hd, hr⟩ := h
      exact (Turn.refrain _).proper rfl ⟨hu, hl, hd, hr, by simp⟩ (fun _ => rfl) rfl hplain (by simp)
  | acquire free =>
      exact (Turn.acquire free).proper rfl (fun _ => ⟨rfl, trivial⟩) (by simp [Task.isStarter]) rfl hplain
        (by simp)
  | request starting =>
      obtain ⟨hmine, -⟩ := h (by simp)
      have hu : s.used = true := hs.used_of_ne (by rw [starting]; simp)
      exact Turn.request.proper rfl (fun _ => ⟨hmine, hu, rfl⟩) (by simp [Task.isStarter]) rfl hplain (by simp)
  | halt running =>
      obtain ⟨hmine, -⟩ := h (by simp)
      exact Turn.halt.proper rfl (fun _ => ⟨hmine, running, rfl, by simp⟩) (by simp [Task.isStarter]) rfl hplain
        (by simp)
  | mopUp failed =>
      obtain ⟨hmine, -⟩ := h (by simp)
      exact Turn.halt.proper rfl (fun _ => ⟨hmine, failed⟩) (by simp [Task.isStarter]) rfl hplain (by simp)

/-- A thread changes the state of the server. The change is legal by what holds where the
thread stands, and whoever leaves a state for good has seen the process end. -/
theorem Shifts.proper {s₁ : State} {target : Lifecycle} {e : Option Error} {next : Option Transition → Task}
    (row : Shifts s τ s₁ target e next) (hs : Sound s) (h : τ.Fits s i) :
    Progress.Proper g i τ s
      { state := (s₁.transition target e).1, task := next (s₁.transition target e).2.2
        effects := (s₁.transition target e).2.1 } := by
  cases row with
  | begin hu =>
      -- nobody has used the supervisor, so the server is stopped and has no process
      obtain ⟨hl, hr, hd⟩ := hs.unused hu
      have hc : State.lifecycle { s with used := true } = .stopped := hl
      rw [State.transition_of_canStep (by rw [hc]; rfl)]
      exact {
        turn := Turn.begin hs hu _
        fits := ⟨rfl, rfl, hd, hr⟩
        starter := fun _ => Or.inr hu
        launching := fun _ => Or.inr hu
        started := by simp
        effects := by simp }
  | run unasked =>
      obtain ⟨hu, hl, hd, hr⟩ := h
      rw [State.transition_of_canStep (s := { s with attached := true, serverInfo := _ }) (by simp [hl, Lifecycle.canStep])]
      exact (Turn.run hl unasked _ _).proper rfl ⟨hu, by simp, hd⟩ (fun _ => rfl) rfl (by simp) (by simp)
  | @refrain mode q here =>
      have hf : s.used = true ∧ s.lifecycle = .starting ∧ s.startDone = false ∧ s.running? = some false := by
        rcases here with rfl | rfl <;> exact h
      obtain ⟨hu, hl, hd, hr⟩ := hf
      have hstarter : (Task.start mode q).isStarter = true := by
        rcases here with rfl | rfl <;> rfl
      rw [State.transition_of_canStep (by rw [hl]; rfl)]
      exact (Turn.leave_starting hl (by rw [hr]; simp) (Or.inr rfl) _).proper hstarter ⟨hu, by simp, hd⟩
        (fun _ => hstarter) rfl (by simp) (by simp)
  | fail =>
      obtain ⟨hu, hl, hd, hr⟩ := h
      rw [State.transition_of_canStep (by rw [hl]; rfl)]
      exact (Turn.leave_starting hl hr (Or.inl rfl) _).proper rfl ⟨hu, by simp, hd⟩ (fun _ => rfl) rfl
        (by simp) (by simp)
  | stop =>
      obtain ⟨hmine, hl, -, hr⟩ := h (by simp)
      have hu : s.used = true := hs.used_of_ne (by rw [hl]; simp)
      rw [State.transition_of_canStep (by rw [hl]; rfl)]
      exact (Turn.stop (Or.inl hl) hmine (by rw [hr]; simp) _).proper rfl (fun _ => ⟨hmine, rfl, hu⟩)
        (by simp [Task.isStarter]) rfl (by simp) (by simp)
  | stopFailed =>
      obtain ⟨hmine, hl⟩ := h (by simp)
      have hl : s.lifecycle = .failed := hl
      have hu : s.used = true := hs.used_of_ne (by rw [hl]; simp)
      rw [State.transition_of_canStep (by rw [hl]; rfl)]
      -- nothing was waited for here: a failed server had no process already
      exact (Turn.stop (Or.inr hl) hmine (hs.reaped (Or.inr hl)) _).proper rfl (fun _ => ⟨hmine, rfl, hu⟩)
        (by simp [Task.isStarter]) rfl (by simp) (by simp)
  | crash exited unasked running =>
      have hr : s.running? = some false := State.exitCode?_isSome_iff.mp (by rw [exited]; rfl)
      rw [State.transition_of_canStep (by rw [running]; rfl)]
      exact (Turn.crash running unasked hr _).proper rfl trivial (by simp [Task.isStarter]) rfl (by simp) (by simp)

/-- A thread tells the observers, and a call that starts the server returns. -/
theorem Informs.proper {moved : Option Transition} {results : List (Option Error)} {started : List Task}
    (row : Informs g s moved τ s' τ' said results started) (h : τ.Fits s i) :
    Progress.Proper g i τ s
      { state := s', task := τ', started
        effects := State.announce moved ++ (said.map logged ++ results.map (.returned i)) } := by
  have hplain : ∀ e ∈ State.announce moved ++ (said.map logged ++ results.map (Effect.returned i)), e.Plain := by
    intro e he
    rcases List.mem_append.mp he with he | he
    · exact plain_announce he
    · rcases List.mem_append.mp he with he | he
      · exact plain_said row.ordinary e he
      · obtain ⟨r, -, rfl⟩ := List.mem_map.mp he
        trivial
  have hquiet : Turn τ.isStarter (some i) s s := (Quiet.refl s).turn _ _
  cases row with
  | starting =>
      exact { turn := hquiet, fits := h, starter := fun _ => Or.inl rfl, launching := fun _ => Or.inl rfl
              started := by simp, effects := Or.inl hplain }
  | running | finish =>
      obtain ⟨hu, hl, -⟩ := h
      exact (Turn.finish hu hl).proper rfl trivial (fun _ => rfl) rfl hplain (by simp)
  | stopped | failedStopped =>
      obtain ⟨hmine, -⟩ := h (by simp)
      exact hquiet.proper rfl (fun _ => ⟨hmine, trivial⟩) (by simp [Task.isStarter]) rfl hplain (by simp)
  | crashed => exact hquiet.proper rfl trivial (by simp [Task.isStarter]) rfl hplain (by simp)

/-- A thread returns. -/
theorem Returns.proper {r : Option Error} (row : Returns s τ s' r) (h : τ.Fits s i) :
    Progress.Proper g i τ s { state := s', task := .done, effects := [.returned i r] } := by
  have hplain : ∀ e ∈ [Effect.returned i r], e.Plain := List.forall_mem_singleton.mpr trivial
  have hquiet : Turn τ.isStarter (some i) s s := (Quiet.refl s).turn _ _
  cases row with
  | release =>
      obtain ⟨hmine, -⟩ := h (by simp)
      exact (Turn.letGo hmine).proper rfl trivial (by simp [Task.isStarter]) rfl hplain (by simp)
  | _ => exact hquiet.proper rfl trivial (by simp [Task.isStarter]) rfl hplain (by simp)

end Kinds

/-- **Every kind of step is proper**, given what holds where the thread stands. -/
theorem Does.proper {g : Settings} {i : Nat} {t : Thread} {s : State} {τ : Task} {p : Progress}
    (h : Does g i t s τ p) (hs : Sound s) (hf : τ.Fits s i) : p.Proper g i τ s := by
  have hconnection (c : Rpc.Connection) (es : List Rpc.Effect) := State.withConnection_calm c es s
  have hreturn (r : Option Error) : ∀ e ∈ [Effect.returned i r], e.Plain :=
    List.forall_mem_singleton.mpr trivial
  cases h with
  | passes row => exact Calm.proper ⟨Quiet.refl s, plain_said row.ordinary⟩ (row.fits hf) row.follows
  | marks row => exact row.proper hs hf
  | shifts row => exact row.proper hs hf
  | informs row => exact row.proper hf
  | @spawns mode s' q launch _ result =>
      obtain ⟨hu, hl, hd, hr⟩ := hf
      have hr : s.running? = none := hr
      have hline := plain_line (ordinary_spawning launch mode).unrefused
      -- A spawn that fails leaves the state as it was.
      rcases result with ⟨e, he, rfl, rfl⟩ | ⟨-, rfl, rfl⟩
      · exact {
          turn := (Quiet.refl s').turn _ _
          fits := ⟨hu, hl, hd, by simp [StartPoint.FitsProcess, hr]⟩
          starter := fun _ => Or.inl rfl
          launching := by simp [Task.isLaunching]
          started := by simp
          effects := Or.inr ⟨⟨mode, rfl⟩, rfl, by simp [he], _, _, hline, rfl⟩ }
      · exact {
          turn := Turn.spawn hl hr _
          fits := ⟨hu, hl, hd, by simp [StartPoint.FitsProcess, State.running?]⟩
          starter := fun _ => Or.inl rfl
          launching := by simp [Task.isLaunching]
          started := by simp
          effects := Or.inr ⟨⟨mode, rfl⟩, rfl, by simp [State.running?], _, _, hline, rfl⟩ }
  | @talks _ _ _ r _ _ row =>
      have hcalm := (hconnection r.1 r.2).append (plain_said row.ordinary)
      exact hcalm.proper ((row.fits hf).quiet hcalm.quiet) row.follows
  | sends => exact ((hconnection _ _).append (hreturn _)).proper trivial ⟨rfl, by simp [Task.isLaunching]⟩
  | kills row =>
      have hkill := State.kill_calm g s
      refine Calm.proper ⟨hkill.quiet, ?_⟩ (row.fits (hf.quiet hkill.quiet)) row.follows
      exact List.forall_mem_append.mpr ⟨plain_said row.ordinary, hkill.plain⟩
  | closes row =>
      have hclose := State.closeConnection_calm s
      exact (hclose.append (plain_said row.ordinary)).proper (row.fits (hf.quiet hclose.quiet)) row.follows
  | returns row => exact row.proper hf
  | tells =>
      refine Calm.proper ⟨Quiet.refl s, ?_⟩ trivial ⟨rfl, by simp [Task.isLaunching]⟩
      exact List.forall_mem_cons.mpr ⟨plain_line (by simp), List.forall_mem_singleton.mpr (by simp [Effect.Plain])⟩

/-- Every step is proper where what is relied on holds. -/
theorem step_proper {g : Settings} {i : Nat} {t : Thread} {s : State} {p : Progress} (hs : Sound s)
    (hf : t.task.Fits s i) (h : step g i t s = some p) : p.Proper g i t.task s :=
  (does_of_step h).proper hs hf

/-! ### Where threads come to -/

section Places

variable {g : Settings} {i : Nat} {t : Thread} {s : State} {τ : Task} {p : Progress}

/-- A call to stop the server returns only after it has just found the server stopped, or has
itself stopped it. -/
theorem Does.stop_cases {q : StopPoint} (h : Does g i t s τ p) (hτ : τ = .stop q) (hf : q.Fits s i) :
    (∃ q', q' ≠ .release ∧ p.task = .stop q') ∨
      (p.task = .stop .release ∧ p.state = s ∧ s.lifecycle = .stopped) ∨
      q = .release ∧ p.task = .done := by
  have hshutting {starter : Option LaunchMode} {next next' : Option ShutdownPoint}
      (hτ : Task.shutting starter next = .stop q) :
      ∃ q', q' ≠ .release ∧ Task.shutting starter next' = .stop q' := by
    obtain ⟨rfl, -⟩ := Task.shutting_eq_stop hτ
    exact ⟨_, by cases next' <;> simp, rfl⟩
  cases h with
  | passes row =>
      cases row with
      | idle stopped => exact Or.inr (Or.inl ⟨rfl, rfl, stopped⟩)
      | unconnected | granted | denied | exited | killed => exact Or.inl (hshutting hτ)
      | startOver | unharmed | reapedFailed | unattached => exact Or.inl ⟨_, by simp, rfl⟩
      | _ => cases hτ
  | marks row => cases row <;> first | exact Or.inl ⟨_, by simp, rfl⟩ | cases hτ
  | shifts row => cases row <;> first | exact Or.inl ⟨_, by simp, rfl⟩ | cases hτ
  -- Nothing else of a stop lets go of the lock, so this state is the final one.
  | informs row =>
      cases row with
      | stopped | failedStopped =>
          cases hτ
          obtain ⟨-, hl, -⟩ := hf (by simp)
          exact Or.inr (Or.inl ⟨rfl, rfl, hl⟩)
      | _ => cases hτ
  | talks _ row =>
      cases row with
      | shutdown | shutdownFailed | farewell => exact Or.inl (hshutting hτ)
      | _ => cases hτ
  | kills row =>
      cases row with
      | late => exact Or.inl (hshutting hτ)
      | failed => exact Or.inl ⟨_, by simp, rfl⟩
      | abort => cases hτ
  | closes row =>
      cases row with
      | finished => exact Or.inl (hshutting hτ)
      | failed => exact Or.inl ⟨_, by simp, rfl⟩
      | _ => cases hτ
  | returns row =>
      cases row with
      | release =>
          cases hτ
          exact Or.inr (Or.inr ⟨rfl, rfl⟩)
      | _ => cases hτ
  | spawns | sends | tells => cases hτ

/-- A stop goes on, lets go of a stopped server, or is done. -/
theorem stop_cases {q : StopPoint} (h : step g i t s = some p) (ht : t.task = .stop q) (hf : q.Fits s i) :
    (∃ q', q' ≠ .release ∧ p.task = .stop q') ∨
      (p.task = .stop .release ∧ p.state = s ∧ s.lifecycle = .stopped) ∨
      q = .release ∧ p.task = .done :=
  (does_of_step h).stop_cases ht hf

end Places

end LanguageClient.Supervisor
