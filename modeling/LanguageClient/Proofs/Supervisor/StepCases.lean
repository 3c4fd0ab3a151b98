import LanguageClient.Supervisor.Step

/-! # What one step of a thread can do.

`step` has a branch for every point at which a thread can stand and for all that it can find
there. What the branches do is much the same: `Does` lists the kinds of step by what they do
to the shared state and what they show, and for each kind a table says where a thread takes
such a step, what it goes by, and where it comes to.

`does_of_step` is the one place at which the steps are opened. Whatever holds of every step is
proved from `Does`, kind by kind, and looks into a table only where the points matter. -/

namespace LanguageClient.Supervisor

/-- A shutdown, within the call that has started the server or within one that stops it.
Without a point it is over. -/
def Task.shutting (starter : Option LaunchMode) (q : Option ShutdownPoint) : Task :=
  match starter with
  | some mode => .start mode (q.elim .stopped .shutdown)
  | none => .stop (q.elim .stopped .shutdown)

theorem Task.shutting_eq_start {starter : Option LaunchMode} {q : Option ShutdownPoint} {mode : LaunchMode}
    {p : StartPoint} (h : Task.shutting starter q = .start mode p) :
    starter = some mode ∧ p = q.elim .stopped .shutdown := by
  cases starter <;> cases h
  exact ⟨rfl, rfl⟩

theorem Task.shutting_eq_stop {starter : Option LaunchMode} {q : Option ShutdownPoint} {p : StopPoint}
    (h : Task.shutting starter q = .stop p) : starter = none ∧ p = q.elim .stopped .shutdown := by
  cases starter <;> cases h
  exact ⟨rfl, rfl⟩

theorem Task.shutting_ne_watch {starter : Option LaunchMode} {q : Option ShutdownPoint} {p : WatchPoint} :
    Task.shutting starter q ≠ .watch p := by
  cases starter <;> exact nofun

/-! ### The tables -/

/-- A thread goes by what it finds, and says at most a line about it. -/
inductive Passes (g : Settings) (t : Thread) (s : State) : Task → Task → List String → Prop where
  | unusable {mode : LaunchMode} {e : Error} (found : checkExecutable g.files g.binary = .error e) :
      Passes g t s (.start mode .checkBinary) (.start mode (.fail e)) []
  | usable {mode : LaunchMode} (found : checkExecutable g.files g.binary = .ok ()) :
      Passes g t s (.start mode .checkBinary) (.start mode .spawn) []
  | greeted {mode : LaunchMode} {id : Nat} {o : Rpc.Outcome} {r : Greeting} (answer : s.answer? id = some o)
      (read : o.read Greeting.decoder {} "initialize" = .ok r) :
      Passes g t s (.start mode (.awaitGreeting id)) (.start mode (.acknowledge r.serverInfo)) []
  | rebuffed {mode : LaunchMode} {id : Nat} {o : Rpc.Outcome} {e : Error} (answer : s.answer? id = some o)
      (read : o.read Greeting.decoder {} "initialize" = .error e) :
      Passes g t s (.start mode (.awaitGreeting id)) (.start mode (.abort (.context "initialize request" e))) []
  | reaped {mode : LaunchMode} {e : Error} (exited : s.exitCode?.isSome = true) :
      Passes g t s (.start mode (.awaitKilled e)) (.start mode (.closeAborted e)) []
  | unconnected {starter : Option LaunchMode} {q : ShutdownPoint} (point : q = .request ∨ q = .exit)
      (connection : s.connection = none) :
      Passes g t s (.shutting starter (some q)) (.shutting starter (some .awaitExit)) []
  | granted {starter : Option LaunchMode} {id : Nat} {o : Rpc.Outcome} (answer : s.answer? id = some o)
      (read : o.done = .ok ()) :
      Passes g t s (.shutting starter (some (.awaitResponse id))) (.shutting starter (some .exit)) []
  | denied {starter : Option LaunchMode} {id : Nat} {o : Rpc.Outcome} {e : Error}
      (answer : s.answer? id = some o) (read : o.done = .error e) :
      Passes g t s (.shutting starter (some (.awaitResponse id))) (.shutting starter (some .awaitExit))
        ["Shutdown request failed: " ++ e.message]
  | exited {starter : Option LaunchMode} (exited : s.exitCode?.isSome = true)
      (patient : (t.expired && t.hasty) = false) :
      Passes g t s (.shutting starter (some .awaitExit)) (.shutting starter (some .close)) []
  | killed {starter : Option LaunchMode} (exited : s.exitCode?.isSome = true) :
      Passes g t s (.shutting starter (some .awaitKilled)) (.shutting starter (some .close)) []
  | idle (stopped : s.lifecycle = .stopped) : Passes g t s (.stop .look) (.stop .release) []
  | startOver (startDone : s.startDone = true) : Passes g t s (.stop .awaitStart) (.stop .look) []
  | unharmed (gone : s.attached = true → s.running? ≠ some true) :
      Passes g t s (.stop .killFailed) (.stop .closeFailed) []
  | reapedFailed (exited : s.exitCode?.isSome = true) :
      Passes g t s (.stop .awaitKilled) (.stop .closeFailed) []
  | unattached (attached : s.attached = false) : Passes g t s (.stop .closeFailed) (.stop .failedStopped) []
  | ready {method : String} {params : Rpc.Params} (running : s.lifecycle = .running)
      (stopping : s.stopping = false) (attached : s.attached = true) :
      Passes g t s (.notify method params .check) (.notify method params .send) []
  | expected {code : Int} (exited : s.exitCode? = some code)
      (expected : s.stopping = true ∨ s.lifecycle ≠ .running) :
      Passes g t s (.watch .awaitExit) .done []

/-- A thread sets a flag that others decide by. -/
inductive Marks (i : Nat) (s : State) : Task → State → Task → List String → Prop where
  | refrain {mode : LaunchMode} {info : Option ProgramInfo} (asked : s.stopRequested = true) :
      Marks i s (.start mode (.publish info))
        { s with attached := true, serverInfo := info, stopping := true } (.start mode (.shutdown .request))
        ["Stop requested during startup; shutting down language server"]
  | acquire (free : s.stopper = none) : Marks i s (.stop .acquire) { s with stopper := some i } (.stop .look) []
  | request (starting : s.lifecycle = .starting) :
      Marks i s (.stop .look) { s with stopRequested := true } (.stop .awaitStart) []
  | halt (running : s.lifecycle = .running) :
      Marks i s (.stop .look) { s with stopping := true } (.stop (.shutdown .request)) []
  | mopUp (failed : s.lifecycle = .failed) :
      Marks i s (.stop .look) { s with stopping := true } (.stop .killFailed) []

/-- A thread changes the state of the server, if that is legal, and is to tell of it next. Two
of these steps set a flag before. -/
inductive Shifts (s : State) : Task → State → Lifecycle → Option Error → (Option Transition → Task) → Prop where
  | begin {mode : LaunchMode} (unused : s.used = false) :
      Shifts s (.start mode .enter) { s with used := true } .starting none
        fun moved => .start mode (.announceStarting moved)
  | run {mode : LaunchMode} {info : Option ProgramInfo} (unasked : s.stopRequested = false) :
      Shifts s (.start mode (.publish info)) { s with attached := true, serverInfo := info } .running none
        fun moved => .start mode (.announceRunning moved info)
  | refrain {mode : LaunchMode} {q : StartPoint} (here : q = .cancelled ∨ q = .stopped) :
      Shifts s (.start mode q) s .stopped none
        fun moved => .start mode (.finish moved (some (.condition .stopRequested)))
  | fail {mode : LaunchMode} {e : Error} :
      Shifts s (.start mode (.fail e)) s .failed (some e) fun moved => .start mode (.finish moved (some e))
  | stop : Shifts s (.stop .stopped) s .stopped none fun moved => .stop (.announceStopped moved)
  | stopFailed :
      Shifts s (.stop .failedStopped) s .stopped none fun moved => .stop (.announceFailedStopped moved)
  | crash {code : Int} (exited : s.exitCode? = some code) (unasked : s.stopping = false)
      (running : s.lifecycle = .running) :
      Shifts s (.watch .awaitExit) s .failed (some (exitedError code)) fun moved => .watch (.announce moved code)

/-- What is set before a change of state is none of what others decide by while it is made. -/
theorem Shifts.same {s s₁ : State} {τ : Task} {target : Lifecycle} {e : Option Error}
    {next : Option Transition → Task} (row : Shifts s τ s₁ target e next) :
    s₁ = { s with used := s₁.used, attached := s₁.attached, serverInfo := s₁.serverInfo } := by
  cases row <;> rfl

/-- A thread tells the observers of a change. A call that has started the server returns with
that, and lets somebody watch the process if the server runs. -/
inductive Informs (g : Settings) (s : State) :
    Option Transition → Task → State → Task → List String → List (Option Error) → List Task → Prop where
  | starting {moved : Option Transition} {mode : LaunchMode} :
      Informs g s moved (.start mode (.announceStarting moved)) s (.start mode .checkBinary) [] [] []
  | running {moved : Option Transition} {mode : LaunchMode} {info : Option ProgramInfo} :
      Informs g s moved (.start mode (.announceRunning moved info)) { s with startDone := true } .done
        [runningLine g info] [none] [.watch .awaitExit]
  | finish {moved : Option Transition} {mode : LaunchMode} {r : Option Error} :
      Informs g s moved (.start mode (.finish moved r)) { s with startDone := true } .done [] [r] []
  | stopped {moved : Option Transition} :
      Informs g s moved (.stop (.announceStopped moved)) s (.stop .release) ["Language server stopped"] [] []
  | failedStopped {moved : Option Transition} :
      Informs g s moved (.stop (.announceFailedStopped moved)) s (.stop .release) [] [] []
  | crashed {moved : Option Transition} {code : Int} :
      Informs g s moved (.watch (.announce moved code)) s (.watch (.close code)) [] [] []

/-- A thread speaks over the connection `c`: the handshake and the shutdown take a call and a
notification each, and where it comes to depends on whether that works. -/
inductive Talks (g : Settings) (t : Thread) (c : Rpc.Connection) :
    Task → Task → Rpc.Connection × List Rpc.Effect → List String → Prop where
  | greet {mode : LaunchMode} {r : Rpc.Connection × List Rpc.Effect × Except Error Nat} {id : Nat}
      (call : c.call "initialize" (.json (greetingParams g.processId g.client g.rootUri mode)) t.abandoned = r)
      (result : r.2.2 = .ok id) :
      Talks g t c (.start mode .greet) (.start mode (.awaitGreeting id)) (r.1, r.2.1) []
  | greetFailed {mode : LaunchMode} {r : Rpc.Connection × List Rpc.Effect × Except Error Nat} {e : Error}
      (call : c.call "initialize" (.json (greetingParams g.processId g.client g.rootUri mode)) t.abandoned = r)
      (result : r.2.2 = .error e) :
      Talks g t c (.start mode .greet) (.start mode (.abort (.context "initialize request" e))) (r.1, r.2.1) []
  | acknowledge {mode : LaunchMode} {info : Option ProgramInfo}
      {r : Rpc.Connection × List Rpc.Effect × Option Error}
      (note : c.notify "initialized" (.json (Json.object [])) t.abandoned = r) (result : r.2.2 = none) :
      Talks g t c (.start mode (.acknowledge info)) (.start mode (.publish info)) (r.1, r.2.1) []
  | acknowledgeFailed {mode : LaunchMode} {info : Option ProgramInfo}
      {r : Rpc.Connection × List Rpc.Effect × Option Error} {e : Error}
      (note : c.notify "initialized" (.json (Json.object [])) t.abandoned = r) (result : r.2.2 = some e) :
      Talks g t c (.start mode (.acknowledge info)) (.start mode (.abort (.context "initialized notification" e)))
        (r.1, r.2.1) []
  | shutdown {starter : Option LaunchMode} {r : Rpc.Connection × List Rpc.Effect × Except Error Nat} {id : Nat}
      (call : c.call "shutdown" .absent t.expiry = r) (result : r.2.2 = .ok id) :
      Talks g t c (.shutting starter (some .request)) (.shutting starter (some (.awaitResponse id)))
        (r.1, r.2.1) []
  | shutdownFailed {starter : Option LaunchMode} {r : Rpc.Connection × List Rpc.Effect × Except Error Nat}
      {e : Error} (call : c.call "shutdown" .absent t.expiry = r) (result : r.2.2 = .error e) :
      Talks g t c (.shutting starter (some .request)) (.shutting starter (some .awaitExit)) (r.1, r.2.1)
        ["Shutdown request failed: " ++ e.message]
  | farewell {starter : Option LaunchMode} {r : Rpc.Connection × List Rpc.Effect × Option Error}
      (note : c.notify "exit" .absent t.expiry = r) :
      Talks g t c (.shutting starter (some .exit)) (.shutting starter (some .awaitExit)) (r.1, r.2.1)
        (r.2.2.toList.map fun e => "Exit notification failed: " ++ e.message)

/-- A thread kills the process, perhaps with a line before. -/
inductive Kills (g : Settings) (t : Thread) (s : State) : Task → Task → List String → Prop where
  | abort {mode : LaunchMode} {e : Error} :
      Kills g t s (.start mode (.abort e)) (.start mode (.awaitKilled e)) []
  | late {starter : Option LaunchMode} (expired : t.expired = true) (waits : s.exitCode?.isSome = true → t.hasty = true) :
      Kills g t s (.shutting starter (some .awaitExit)) (.shutting starter (some .awaitKilled))
        ["Language server did not exit within " ++ g.stopTimeout.text ++ "; killing pid " ++ Number.intText g.pid]
  | failed (attached : s.attached = true) (running : s.running? = some true) :
      Kills g t s (.stop .killFailed) (.stop .awaitKilled) []

/-- A thread closes the connection, perhaps with a line behind. -/
inductive Closes (t : Thread) (s : State) : Task → Task → List String → Prop where
  | cancelled {mode : LaunchMode} {e : Error} (cancelled : t.cancelled = true) :
      Closes t s (.start mode (.closeAborted e)) (.start mode .cancelled)
        ["Startup cancelled; language server stopped"]
  | aborted {mode : LaunchMode} {e : Error} (uncancelled : t.cancelled = false) :
      Closes t s (.start mode (.closeAborted e)) (.start mode (.fail (.protocolStart (some e)))) []
  | finished {starter : Option LaunchMode} :
      Closes t s (.shutting starter (some .close)) (.shutting starter none) []
  | failed (attached : s.attached = true) : Closes t s (.stop .closeFailed) (.stop .failedStopped) []
  | crashed {code : Int} : Closes t s (.watch (.close code)) (.watch (.tell code)) []

/-- A thread returns, and there is nothing to be told. -/
inductive Returns (s : State) : Task → State → Option Error → Prop where
  | used {mode : LaunchMode} (used : s.used = true) :
      Returns s (.start mode .enter) s (some (.condition .supervisorUsed))
  | release : Returns s (.stop .release) { s with stopper := none } none
  | unready {method : String} {params : Rpc.Params}
      (unready : s.lifecycle = .running → s.stopping = false → s.attached = false) :
      Returns s (.notify method params .check) s (some (.condition .notRunning))
  | unconnected {method : String} {params : Rpc.Params} (connection : s.connection = none) :
      Returns s (.notify method params .send) s (some (.condition .notRunning))

/-! ### What is said -/

/-- A line as threads say it. It begins neither like a line of the server's error output, nor
like the lines about a change of state that is refused and about a crash. -/
structure Ordinary (text : String) : Prop where
  unmarked : text.toList.take 2 ≠ ['[', 's']
  unrefused : text.toList.take 10 ≠ "Ignoring i".toList
  uneventful : text.toList.take 17 ≠ "Language server e".toList

section Lines

variable {g : Settings} {t : Thread} {s s' : State} {τ τ' : Task} {said : List String}

theorem ordinary_spawning (launch : Launch) (mode : LaunchMode) :
    Ordinary ("Spawning " ++ launch.text ++ " (" ++ mode.name ++ " mode)") :=
  ⟨by simp, by simp, by simp⟩

theorem Passes.ordinary (row : Passes g t s τ τ' said) : ∀ text ∈ said, Ordinary text := by
  cases row with
  | denied => exact List.forall_mem_singleton.mpr ⟨by simp, by simp, by simp⟩
  | _ => exact List.forall_mem_nil _

theorem Marks.ordinary {i : Nat} (row : Marks i s τ s' τ' said) : ∀ text ∈ said, Ordinary text := by
  cases row with
  | refrain => exact List.forall_mem_singleton.mpr ⟨by simp, by simp, by simp⟩
  | _ => exact List.forall_mem_nil _

theorem Informs.ordinary {moved : Option Transition} {results : List (Option Error)} {started : List Task}
    (row : Informs g s moved τ s' τ' said results started) : ∀ text ∈ said, Ordinary text := by
  cases row with
  | running =>
      unfold runningLine
      exact List.forall_mem_singleton.mpr ⟨by simp, by simp, by simp⟩
  | stopped => exact List.forall_mem_singleton.mpr ⟨by simp, by simp, by simp⟩
  | _ => exact List.forall_mem_nil _

theorem Talks.ordinary {c : Rpc.Connection} {r : Rpc.Connection × List Rpc.Effect}
    (row : Talks g t c τ τ' r said) : ∀ text ∈ said, Ordinary text := by
  cases row with
  | shutdownFailed => exact List.forall_mem_singleton.mpr ⟨by simp, by simp, by simp⟩
  | farewell =>
      intro text htext
      obtain ⟨e, -, rfl⟩ := List.mem_map.mp htext
      exact ⟨by simp, by simp, by simp⟩
  | _ => exact List.forall_mem_nil _

theorem Kills.ordinary (row : Kills g t s τ τ' said) : ∀ text ∈ said, Ordinary text := by
  cases row with
  | late => exact List.forall_mem_singleton.mpr ⟨by simp, by simp, by simp⟩
  | _ => exact List.forall_mem_nil _

theorem Closes.ordinary (row : Closes t s τ τ' said) : ∀ text ∈ said, Ordinary text := by
  cases row with
  | cancelled => exact List.forall_mem_singleton.mpr ⟨by simp, by simp, by simp⟩
  | _ => exact List.forall_mem_nil _

end Lines

/-! ### Every step is in a table -/

/-- How a notification ends for its caller: a connection that is closed belongs to a server
that does not run. -/
def sendResult (r : Option Error) : Option Error :=
  r.map fun e => if e.isA .connectionClosed then .condition .notRunning else e

/-- **What a step of thread `i` does** where the thread stands. -/
inductive Does (g : Settings) (i : Nat) (t : Thread) (s : State) : Task → Progress → Prop where
  | passes {τ τ' : Task} {said : List String} (row : Passes g t s τ τ' said) :
      Does g i t s τ { state := s, task := τ', effects := said.map logged }
  | marks {τ τ' : Task} {s' : State} {said : List String} (row : Marks i s τ s' τ' said) :
      Does g i t s τ { state := s', task := τ', effects := said.map logged }
  | shifts {τ : Task} {s₁ : State} {target : Lifecycle} {e : Option Error} {next : Option Transition → Task}
      (row : Shifts s τ s₁ target e next) :
      Does g i t s τ
        { state := (s₁.transition target e).1, task := next (s₁.transition target e).2.2
          effects := (s₁.transition target e).2.1 }
  | informs {moved : Option Transition} {τ τ' : Task} {s' : State} {said : List String}
      {results : List (Option Error)} {started : List Task}
      (row : Informs g s moved τ s' τ' said results started) :
      Does g i t s τ
        { state := s', task := τ', started
          effects := State.announce moved ++ (said.map logged ++ results.map (.returned i)) }
  /-- A process is asked for, and there is one only if that works. -/
  | spawns {mode : LaunchMode} {s' : State} {q : StartPoint} (launch : Launch)
      (launched : launch = Launch.ofMode mode g.binary.path)
      (result : (∃ e, g.spawnError = some e ∧ s' = s ∧ q = .fail (.spawn g.binary.path (some e))) ∨
        g.spawnError = none ∧ s' = { s with process := some {}, connection := some connect } ∧ q = .greet) :
      Does g i t s (.start mode .spawn)
        { state := s', task := .start mode q
          effects := [logged ("Spawning " ++ launch.text ++ " (" ++ mode.name ++ " mode)"), .spawned launch] }
  | talks {τ τ' : Task} {c : Rpc.Connection} {r : Rpc.Connection × List Rpc.Effect} {said : List String}
      (connection : s.connection = some c) (row : Talks g t c τ τ' r said) :
      Does g i t s τ
        { state := (s.withConnection r.1 r.2).1, task := τ'
          effects := (s.withConnection r.1 r.2).2 ++ said.map logged }
  | sends {method : String} {params : Rpc.Params} {c : Rpc.Connection} (connection : s.connection = some c) :
      Does g i t s (.notify method params .send)
        { state := (s.withConnection (c.notify method params t.abandoned).1
            (c.notify method params t.abandoned).2.1).1
          task := .done
          effects := (s.withConnection (c.notify method params t.abandoned).1
            (c.notify method params t.abandoned).2.1).2 ++
            [.returned i (sendResult (c.notify method params t.abandoned).2.2)] }
  | kills {τ τ' : Task} {said : List String} (row : Kills g t s τ τ' said) :
      Does g i t s τ { state := (s.kill g).1, task := τ', effects := said.map logged ++ (s.kill g).2 }
  | closes {τ τ' : Task} {said : List String} (row : Closes t s τ τ' said) :
      Does g i t s τ
        { state := s.closeConnection.1, task := τ', effects := s.closeConnection.2 ++ said.map logged }
  | returns {τ : Task} {s' : State} {r : Option Error} (row : Returns s τ s' r) :
      Does g i t s τ { state := s', task := .done, effects := [.returned i r] }
  /-- The crash of the server is reported, to the log and to the user. -/
  | tells {code : Int} :
      Does g i t s (.watch (.tell code))
        { state := s, task := .done
          effects := [logged ("Language server exited unexpectedly with code " ++ Number.intText code),
            .report (.error ("GBNF LSP server exited unexpectedly (code " ++ Number.intText code ++ ")"))] }

section Steps

variable {g : Settings} {i : Nat} {t : Thread} {s : State} {p : Progress}

/-- A step that says no line behind what it does. -/
theorem Does.silent {τ τ' : Task} {s' : State} {es : List Effect} {started : List Task}
    (h : Does g i t s τ { state := s', task := τ', effects := es ++ [], started }) :
    Does g i t s τ { state := s', task := τ', effects := es, started } := by
  rwa [List.append_nil] at h

/-- A step of a shutdown, whoever takes it. -/
theorem does_of_shutdownStep (starter : Option LaunchMode) {q : ShutdownPoint} {next : Option ShutdownPoint}
    {s' : State} {es : List Effect} (h : shutdownStep g t s q = some (s', next, es)) :
    Does g i t s (.shutting starter (some q)) { state := s', task := .shutting starter next, effects := es } := by
  cases q with
  | request =>
      simp only [shutdownStep] at h
      cases hc : s.connection with
      | none =>
          rw [hc] at h
          cases h
          exact .passes (.unconnected (Or.inl rfl) hc)
      | some c =>
          rw [hc] at h
          simp only at h
          split at h <;> cases h
          · next id hr => exact Does.silent (.talks hc (.shutdown rfl hr))
          · next e hr => exact .talks hc (.shutdownFailed rfl hr)
  | awaitResponse id =>
      simp only [shutdownStep] at h
      split at h
      · cases h
      · next o ho =>
          split at h <;> cases h
          · next hr => exact .passes (.granted ho hr)
          · next e hr => exact .passes (.denied ho hr)
  | exit =>
      simp only [shutdownStep] at h
      cases hc : s.connection with
      | none =>
          rw [hc] at h
          cases h
          exact .passes (.unconnected (Or.inr rfl) hc)
      | some c =>
          rw [hc] at h
          cases h
          have hrow : Talks g t c (.shutting starter (some .exit)) (.shutting starter (some .awaitExit)) _ _ :=
            .farewell rfl
          have hdoes := Does.talks (i := i) hc hrow
          cases hr : (c.notify "exit" .absent t.expiry).2.2 with
          | none => rwa [hr] at hdoes
          | some e => rwa [hr] at hdoes
  | awaitExit =>
      simp only [shutdownStep] at h
      split at h
      · next hexit =>
          cases h
          rw [Bool.and_eq_true, Bool.not_eq_true'] at hexit
          exact .passes (.exited hexit.1 hexit.2)
      · next hexit =>
          split at h <;> cases h
          next hexpired =>
            -- The time is over and the process still runs.
            refine .kills (.late hexpired ?_)
            intro hcode
            simpa [hcode, hexpired] using hexit
  | awaitKilled =>
      simp only [shutdownStep] at h
      split at h <;> cases h
      next hexit => exact .passes (.killed hexit)
  | close =>
      cases h
      exact Does.silent (.closes .finished)

/-- What a start does at each of its points. -/
theorem does_of_startStep {mode : LaunchMode} {q : StartPoint} (h : startStep g i t mode s q = some p) :
    Does g i t s (.start mode q) p := by
  cases q with
  | enter =>
      simp only [startStep] at h
      split at h <;> cases h
      · next hu => exact .returns (.used hu)
      · next hu => exact .shifts (.begin (by simpa using hu))
  | announceStarting moved =>
      cases h
      exact Does.silent (.informs .starting)
  | checkBinary =>
      simp only [startStep] at h
      split at h <;> cases h
      · next he => exact .passes (.unusable he)
      · next he => exact .passes (.usable he)
  | spawn =>
      simp only [startStep] at h
      split at h <;> cases h
      · next e he => exact .spawns _ rfl (Or.inl ⟨e, he, rfl, rfl⟩)
      · next he => exact .spawns _ rfl (Or.inr ⟨he, rfl, rfl⟩)
  | greet =>
      simp only [startStep] at h
      split at h
      · cases h
      · next c hc =>
          split at h <;> cases h
          · next id hr => exact Does.silent (.talks hc (.greet rfl hr))
          · next e hr => exact Does.silent (.talks hc (.greetFailed rfl hr))
  | awaitGreeting id =>
      simp only [startStep] at h
      split at h
      · cases h
      · next o ho =>
          split at h <;> cases h
          · next r hr => exact .passes (.greeted ho hr)
          · next e hr => exact .passes (.rebuffed ho hr)
  | acknowledge info =>
      simp only [startStep] at h
      split at h
      · cases h
      · next c hc =>
          split at h <;> cases h
          · next hr => exact Does.silent (.talks hc (.acknowledge rfl hr))
          · next e hr => exact Does.silent (.talks hc (.acknowledgeFailed rfl hr))
  | abort e =>
      cases h
      exact .kills .abort
  | awaitKilled e =>
      simp only [startStep] at h
      split at h <;> cases h
      next hexit => exact .passes (.reaped hexit)
  | closeAborted e =>
      simp only [startStep] at h
      split at h <;> cases h
      · next hcancelled => exact .closes (.cancelled hcancelled)
      · next hcancelled => exact Does.silent (.closes (.aborted (by simpa using hcancelled)))
  | cancelled =>
      cases h
      exact .shifts (.refrain (Or.inl rfl))
  | fail e =>
      cases h
      exact .shifts .fail
  | publish info =>
      simp only [startStep] at h
      split at h <;> cases h
      · next hasked => exact .marks (.refrain hasked)
      · next hasked => exact .shifts (.run (by simpa using hasked))
  | announceRunning moved info =>
      cases h
      exact .informs .running
  | shutdown q =>
      simp only [startStep] at h
      split at h
      · cases h
      · next hq =>
          cases h
          exact does_of_shutdownStep (some mode) hq
      · next hq =>
          cases h
          exact does_of_shutdownStep (some mode) hq
  | stopped =>
      cases h
      exact .shifts (.refrain (Or.inr rfl))
  | finish moved result =>
      cases h
      exact .informs .finish

/-- What a stop does at each of its points. -/
theorem does_of_stopStep {q : StopPoint} (h : stopStep g i t s q = some p) : Does g i t s (.stop q) p := by
  cases q with
  | acquire =>
      simp only [stopStep] at h
      split at h <;> cases h
      next hfree => exact .marks (.acquire hfree)
  | look =>
      simp only [stopStep] at h
      split at h <;> cases h
      · next hl => exact .passes (.idle hl)
      · next hl => exact .marks (.request hl)
      · next hl => exact .marks (.halt hl)
      · next hl => exact .marks (.mopUp hl)
  | awaitStart =>
      simp only [stopStep] at h
      split at h <;> cases h
      next hdone => exact .passes (.startOver hdone)
  | shutdown q =>
      simp only [stopStep] at h
      split at h
      · cases h
      · next hq =>
          cases h
          exact does_of_shutdownStep none hq
      · next hq =>
          cases h
          exact does_of_shutdownStep none hq
  | stopped =>
      cases h
      exact .shifts .stop
  | announceStopped moved =>
      cases h
      exact .informs .stopped
  | killFailed =>
      simp only [stopStep] at h
      split at h <;> cases h
      · next hruns =>
          rw [Bool.and_eq_true, decide_eq_true_eq] at hruns
          exact .kills (.failed hruns.1 hruns.2)
      · next hruns => exact .passes (.unharmed (by simpa using hruns))
  | awaitKilled =>
      simp only [stopStep] at h
      split at h <;> cases h
      next hexit => exact .passes (.reapedFailed hexit)
  | closeFailed =>
      simp only [stopStep] at h
      cases hattached : s.attached with
      | true =>
          rw [hattached] at h
          cases h
          exact Does.silent (.closes (.failed hattached))
      | false =>
          rw [hattached] at h
          cases h
          exact .passes (.unattached hattached)
  | failedStopped =>
      cases h
      exact .shifts .stopFailed
  | announceFailedStopped moved =>
      cases h
      exact Does.silent (.informs .failedStopped)
  | release =>
      cases h
      exact .returns .release

/-- What a notification does at each of its points. -/
theorem does_of_notifyStep {method : String} {params : Rpc.Params} {q : NotifyPoint}
    (h : notifyStep i t method params s q = some p) : Does g i t s (.notify method params q) p := by
  cases q with
  | check =>
      simp only [notifyStep] at h
      split at h <;> cases h
      · next hready =>
          simp only [Bool.and_eq_true, decide_eq_true_eq, Bool.not_eq_true'] at hready
          exact .passes (.ready hready.1.1 hready.1.2 hready.2)
      · next hready => exact .returns (.unready (by simpa using hready))
  | send =>
      simp only [notifyStep] at h
      split at h <;> cases h
      · next hc => exact .returns (.unconnected hc)
      · next c hc => exact .sends hc

/-- What a watch does at each of its points. -/
theorem does_of_watchStep {q : WatchPoint} (h : watchStep s q = some p) : Does g i t s (.watch q) p := by
  cases q with
  | awaitExit =>
      simp only [watchStep] at h
      split at h
      · cases h
      · next code hcode =>
          split at h <;> cases h
          · next hcond => exact .passes (.expected hcode (by simpa using hcond))
          · next hcond =>
              simp only [Bool.or_eq_true, decide_eq_true_eq, not_or, Bool.not_eq_true, Decidable.not_not] at hcond
              exact .shifts (.crash hcode hcond.1 hcond.2)
  | announce moved code =>
      cases h
      exact Does.silent (.informs .crashed)
  | close code =>
      cases h
      exact Does.silent (.closes .crashed)
  | tell code =>
      cases h
      exact .tells

/-- **Every step of a thread is one of these.** -/
theorem does_of_step (h : step g i t s = some p) : Does g i t s t.task p := by
  unfold step at h
  cases htask : t.task with
  | start mode q =>
      rw [htask] at h
      exact does_of_startStep h
  | stop q =>
      rw [htask] at h
      exact does_of_stopStep h
  | notify method params q =>
      rw [htask] at h
      exact does_of_notifyStep h
  | watch q =>
      rw [htask] at h
      exact does_of_watchStep h
  | done =>
      rw [htask] at h
      cases h

end Steps

end LanguageClient.Supervisor
