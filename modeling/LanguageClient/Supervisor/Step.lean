import LanguageClient.Supervisor.State

/-! # The steps of a supervisor.

Starting, stopping, sending a notification and watching the process are
threads. A thread stands at a point; `step` takes it to the next one, in one
move on the shared state, and gives `none` where the thread has to wait for
something. What is done under the supervisor's lock is one step, and what is
done outside it is steps of its own. -/

namespace LanguageClient.Supervisor

inductive ShutdownPoint where
  | request
  | awaitResponse (id : Nat)
  | exit
  | awaitExit
  | awaitKilled
  | close

inductive StartPoint where
  | enter
  | announceStarting (t : Option Transition)
  | checkBinary
  | spawn
  | greet
  | awaitGreeting (id : Nat)
  | acknowledge (info : Option ProgramInfo)
  /-- The handshake failed: the server is killed. -/
  | abort (e : Error)
  | awaitKilled (e : Error)
  | closeAborted (e : Error)
  | cancelled
  | fail (e : Error)
  | publish (info : Option ProgramInfo)
  | announceRunning (t : Option Transition) (info : Option ProgramInfo)
  | shutdown (p : ShutdownPoint)
  | stopped
  /-- The observers are told, and the call returns. -/
  | finish (t : Option Transition) (result : Option Error)

inductive StopPoint where
  | acquire
  | look
  | awaitStart
  | shutdown (p : ShutdownPoint)
  | stopped
  | announceStopped (t : Option Transition)
  | killFailed
  | awaitKilled
  | closeFailed
  | failedStopped
  | announceFailedStopped (t : Option Transition)
  | release

inductive NotifyPoint where
  | check
  | send

inductive WatchPoint where
  | awaitExit
  | announce (t : Option Transition) (code : Int)
  | close (code : Int)
  | tell (code : Int)

/-- What a thread does. -/
inductive Task where
  | start (mode : LaunchMode) (p : StartPoint)
  | stop (p : StopPoint)
  | notify (method : String) (params : Rpc.Params) (p : NotifyPoint)
  | watch (p : WatchPoint)
  | done

/-- A thread: what it does, whether its caller has given up, and whether its
time is over. -/
structure Thread where
  task : Task
  cancelled : Bool := false
  expired : Bool := false
  /-- Whether a shutdown that sees both that the process has ended and that its
  time is over goes by the time. -/
  hasty : Bool := false

def Thread.ofTask (task : Task) : Thread := { task }

/-- What a step leads to: the shared state, the thread's next task, what was
shown, and threads that were started. -/
structure Progress where
  state : State
  task : Task
  effects : List Effect := []
  started : List Task := []

/-- Why a thread's caller no longer waits for the server, if it does not. -/
def Thread.abandoned (t : Thread) : Option Condition :=
  if t.cancelled then some .cancelled else if t.expired then some .deadlineExceeded else none

/-- Why a shutdown no longer waits: its caller cannot give up, but its time
can be over. -/
def Thread.expiry (t : Thread) : Option Condition :=
  if t.expired then some .deadlineExceeded else none

variable (g : Settings)

/-! ### Shutdown -/

/-- One step of a shutdown. The next point is `none` when it is over. -/
def shutdownStep (t : Thread) (s : State) : ShutdownPoint → Option (State × Option ShutdownPoint × List Effect)
  | .request =>
    match s.connection with
    | none => some (s, some .awaitExit, [])
    | some c =>
      let (c, effects, r) := c.call "shutdown" .absent t.expiry
      let (s, shown) := s.withConnection c effects
      match r with
      | .ok id => some (s, some (.awaitResponse id), shown)
      | .error e => some (s, some .awaitExit, shown ++ [logged ("Shutdown request failed: " ++ e.message)])
  | .awaitResponse id =>
    match s.answer? id with
    | none => none
    | some o =>
      match o.done with
      | .ok _ => some (s, some .exit, [])
      | .error e => some (s, some .awaitExit, [logged ("Shutdown request failed: " ++ e.message)])
  | .exit =>
    match s.connection with
    | none => some (s, some .awaitExit, [])
    | some c =>
      let (c, effects, r) := c.notify "exit" .absent t.expiry
      let (s, shown) := s.withConnection c effects
      some (s, some .awaitExit, shown ++ (match r with
        | some e => [logged ("Exit notification failed: " ++ e.message)]
        | none => []))
  | .awaitExit =>
    if s.exitCode?.isSome && !(t.expired && t.hasty) then some (s, some .close, [])
    else if t.expired then
      let late := logged ("Language server did not exit within " ++ g.stopTimeout.text ++
        "; killing pid " ++ Number.intText g.pid)
      let (s, effects) := s.kill g
      some (s, some .awaitKilled, late :: effects)
    else none
  | .awaitKilled => if s.exitCode?.isSome then some (s, some .close, []) else none
  | .close =>
    let (s, effects) := s.closeConnection
    some (s, none, effects)

/-! ### Starting -/

def runningLine (info : Option ProgramInfo) : String :=
  "Language server running (pid " ++ Number.intText g.pid ++ ")" ++
    (match info with
      | some i => ": " ++ i.name ++ " " ++ i.version
      | none => "")

def connect : Rpc.Connection :=
  handledMethods.foldl (fun c m => c.handle m (some m)) {}

def startStep (me : Nat) (t : Thread) (mode : LaunchMode) (s : State) : StartPoint → Option Progress
  | .enter =>
    if s.used then
      some { state := s, task := .done,
             effects := [.returned me (some (.condition .supervisorUsed))] }
    else
      let (s, shown, moved) := { s with used := true }.transition .starting none
      some { state := s, task := .start mode (.announceStarting moved), effects := shown }
  | .announceStarting moved =>
    some { state := s, task := .start mode .checkBinary, effects := State.announce moved }
  | .checkBinary =>
    match checkExecutable g.files g.binary with
    | .error e => some { state := s, task := .start mode (.fail e) }
    | .ok _ => some { state := s, task := .start mode .spawn }
  | .spawn =>
    let launch := Launch.ofMode mode g.binary.path
    let line := logged ("Spawning " ++ launch.text ++ " (" ++ mode.name ++ " mode)")
    match g.spawnError with
    | some e =>
      some { state := s, task := .start mode (.fail (.spawn g.binary.path (some e)))
             effects := [line, .spawned launch] }
    | none =>
      some { state := { s with process := some {}, connection := some connect }
             task := .start mode .greet, effects := [line, .spawned launch] }
  | .greet =>
    match s.connection with
    | none => none
    | some c =>
      let params := greetingParams g.processId g.client g.rootUri mode
      let (c, effects, r) := c.call "initialize" (.json params) t.abandoned
      let (s, shown) := s.withConnection c effects
      match r with
      | .ok id => some { state := s, task := .start mode (.awaitGreeting id), effects := shown }
      | .error e =>
        some { state := s, task := .start mode (.abort (.context "initialize request" e)),
               effects := shown }
  | .awaitGreeting id =>
    match s.answer? id with
    | none => none
    | some o =>
      match o.read Greeting.decoder {} "initialize" with
      | .ok r => some { state := s, task := .start mode (.acknowledge r.serverInfo) }
      | .error e => some { state := s, task := .start mode (.abort (.context "initialize request" e)) }
  | .acknowledge info =>
    match s.connection with
    | none => none
    | some c =>
      let (c, effects, r) := c.notify "initialized" (.json (Json.object [])) t.abandoned
      let (s, shown) := s.withConnection c effects
      match r with
      | none => some { state := s, task := .start mode (.publish info), effects := shown }
      | some e =>
        some { state := s, task := .start mode (.abort (.context "initialized notification" e)),
               effects := shown }
  | .abort e =>
    let (s, effects) := s.kill g
    some { state := s, task := .start mode (.awaitKilled e), effects }
  | .awaitKilled e =>
    if s.exitCode?.isSome then some { state := s, task := .start mode (.closeAborted e) } else none
  | .closeAborted e =>
    let (s, effects) := s.closeConnection
    if t.cancelled then
      some { state := s, task := .start mode .cancelled,
             effects := effects ++ [logged "Startup cancelled; language server stopped"] }
    else some { state := s, task := .start mode (.fail (.protocolStart (some e))), effects }
  | .cancelled =>
    let (s, shown, moved) := s.transition .stopped none
    some { state := s, task := .start mode (.finish moved (some (.condition .stopRequested))),
           effects := shown }
  | .fail e =>
    let (s, shown, moved) := s.transition .failed (some e)
    some { state := s, task := .start mode (.finish moved (some e)), effects := shown }
  | .publish info =>
    let s := { s with attached := true, serverInfo := info }
    if s.stopRequested then
      some { state := { s with stopping := true }, task := .start mode (.shutdown .request)
             effects := [logged "Stop requested during startup; shutting down language server"] }
    else
      let (s, shown, moved) := s.transition .running none
      some { state := s, task := .start mode (.announceRunning moved info), effects := shown }
  | .announceRunning moved info =>
    some { state := { s with startDone := true }, task := .done
           effects := State.announce moved ++ [logged (runningLine g info), .returned me none]
           started := [.watch .awaitExit] }
  | .shutdown p =>
    match shutdownStep g t s p with
    | none => none
    | some (s, some p, effects) => some { state := s, task := .start mode (.shutdown p), effects }
    | some (s, none, effects) => some { state := s, task := .start mode .stopped, effects }
  | .stopped =>
    let (s, shown, moved) := s.transition .stopped none
    some { state := s, task := .start mode (.finish moved (some (.condition .stopRequested))),
           effects := shown }
  | .finish moved result =>
    some { state := { s with startDone := true }, task := .done
           effects := State.announce moved ++ [.returned me result] }

/-! ### Stopping -/

def stopStep (me : Nat) (t : Thread) (s : State) : StopPoint → Option Progress
  | .acquire =>
    match s.stopper with
    | none => some { state := { s with stopper := some me }, task := .stop .look }
    | some _ => none
  | .look =>
    match s.lifecycle with
    | .stopped => some { state := s, task := .stop .release }
    | .starting => some { state := { s with stopRequested := true }, task := .stop .awaitStart }
    | .running => some { state := { s with stopping := true }, task := .stop (.shutdown .request) }
    | .failed => some { state := { s with stopping := true }, task := .stop .killFailed }
  | .awaitStart => if s.startDone then some { state := s, task := .stop .look } else none
  | .shutdown p =>
    match shutdownStep g t s p with
    | none => none
    | some (s, some p, effects) => some { state := s, task := .stop (.shutdown p), effects }
    | some (s, none, effects) => some { state := s, task := .stop .stopped, effects }
  | .stopped =>
    let (s, shown, moved) := s.transition .stopped none
    some { state := s, task := .stop (.announceStopped moved), effects := shown }
  | .announceStopped moved =>
    some { state := s, task := .stop .release
           effects := State.announce moved ++ [logged "Language server stopped"] }
  | .killFailed =>
    if s.attached && s.running? = some true then
      let (s, effects) := s.kill g
      some { state := s, task := .stop .awaitKilled, effects }
    else some { state := s, task := .stop .closeFailed }
  | .awaitKilled => if s.exitCode?.isSome then some { state := s, task := .stop .closeFailed } else none
  | .closeFailed =>
    let (s, effects) := if s.attached then s.closeConnection else (s, [])
    some { state := s, task := .stop .failedStopped, effects }
  | .failedStopped =>
    let (s, shown, moved) := s.transition .stopped none
    some { state := s, task := .stop (.announceFailedStopped moved), effects := shown }
  | .announceFailedStopped moved =>
    some { state := s, task := .stop .release, effects := State.announce moved }
  | .release =>
    some { state := { s with stopper := none }, task := .done, effects := [.returned me none] }

/-! ### Sending and watching -/

/-- One step of sending a notification. That the server runs is checked before
the message is written. -/
def notifyStep (me : Nat) (t : Thread) (method : String) (params : Rpc.Params) (s : State) :
    NotifyPoint → Option Progress
  | .check =>
    if s.lifecycle = .running && !s.stopping && s.attached then
      some { state := s, task := .notify method params .send }
    else some { state := s, task := .done, effects := [.returned me (some (.condition .notRunning))] }
  | .send =>
    match s.connection with
    | none => some { state := s, task := .done, effects := [.returned me (some (.condition .notRunning))] }
    | some c =>
      let (c, effects, r) := c.notify method params t.abandoned
      let (s, shown) := s.withConnection c effects
      let r := r.map fun e => if e.isA .connectionClosed then .condition .notRunning else e
      some { state := s, task := .done, effects := shown ++ [.returned me r] }

/-- The error for a server that has exited on its own. -/
def exitedError (code : Int) : Error :=
  .wrapped "" (some (.condition .serverExited)) (" (exit code " ++ Number.intText code ++ ")")

def watchStep (s : State) : WatchPoint → Option Progress
  | .awaitExit =>
    match s.exitCode? with
    | none => none
    | some code =>
      if s.stopping || s.lifecycle ≠ .running then some { state := s, task := .done }
      else
        let (s, shown, moved) := s.transition .failed (some (exitedError code))
        some { state := s, task := .watch (.announce moved code), effects := shown }
  | .announce moved code =>
    some { state := s, task := .watch (.close code), effects := State.announce moved }
  | .close code =>
    let (s, effects) := s.closeConnection
    some { state := s, task := .watch (.tell code), effects }
  | .tell code =>
    let number := Number.intText code
    some { state := s, task := .done
           effects := [logged ("Language server exited unexpectedly with code " ++ number),
             .report (.error ("GBNF LSP server exited unexpectedly (code " ++ number ++ ")"))] }

/-- One step of a thread; `none` if it has to wait or has returned. -/
def step (me : Nat) (t : Thread) (s : State) : Option Progress :=
  match t.task with
  | .start mode p => startStep g me t mode s p
  | .stop p => stopStep g me t s p
  | .notify method params p => notifyStep me t method params s p
  | .watch p => watchStep s p
  | .done => none

/-! ### Time limits -/

/-- Whether a shutdown has a time limit at this point. -/
def ShutdownPoint.isTimed : ShutdownPoint → Bool
  | .awaitResponse _ | .exit | .awaitExit => true
  | _ => false

/-- Whether the time of a thread can run out where it stands. -/
def Task.isTimed : Task → Bool
  | .start _ (.awaitGreeting _) | .start _ (.acknowledge _) => true
  | .start _ (.shutdown p) | .stop (.shutdown p) => p.isTimed
  | _ => false

/-- The call a thread waits for. -/
def Task.awaited? : Task → Option Nat
  | .start _ (.awaitGreeting id) => some id
  | .start _ (.shutdown (.awaitResponse id)) | .stop (.shutdown (.awaitResponse id)) => some id
  | _ => none

/-- Whether a task minds that its caller gives up. -/
def Task.isCancellable : Task → Bool
  | .start _ (.shutdown _) => false
  | .start _ _ | .notify _ _ _ => true
  | _ => false

/-- A task need not wait any longer: the call it waits for, if there is one,
is given up. -/
def State.release (task : Task) (why : Condition) (s : State) : State × List Effect :=
  match task.awaited? with
  | none => (s, [])
  | some id => s.onConnection (Rpc.Connection.abandon id why)

end LanguageClient.Supervisor
