import LanguageClient.FileSystem
import LanguageClient.Shell.Command
import LanguageClient.Supervisor.Protocol

/-! # The state of a supervisor.

A supervisor owns one server process from spawn to exit, and is started at
most once. Calls to start it, to stop it and to send notifications run at the
same time, each as a thread of its own; they share the state of this module
and take turns at the points of `Supervisor.Step`. -/

namespace LanguageClient.Supervisor

/-- What a supervisor is made with, and how its surroundings answer it. -/
structure Settings where
  binary : Binary
  client : ProgramInfo := {}
  rootUri : String := ""
  startTimeout : Duration := .ofSeconds 10
  stopTimeout : Duration := .ofSeconds 2
  /-- The client's own process. -/
  processId : Int := 0
  /-- The process the server gets. -/
  pid : Int := 0
  files : FileSystem := {}
  /-- Why a spawn fails, if it does. -/
  spawnError : Option Error := none
  /-- What a kill returns, though the process always ends. -/
  killError : Option Error := none
  /-- The exit code with which a kill ends the process at once; without one, a
  killed process ends some time later. -/
  killCode : Option Int := some 137

/-- A time limit, or the usual one if it is not positive. -/
def orDefault (d usual : Duration) : Duration := if d.nanoseconds ≤ 0 then usual else d

structure Process where
  exitCode : Option Int := none
  kills : Nat := 0
  errorOutput : ErrorOutput := {}

def Process.isRunning (p : Process) : Bool := p.exitCode.isNone

/-- The server reads no more than so many further writes, or all of them. -/
def limitWrites (left : Option Nat) (c : Rpc.Connection) : Rpc.Connection :=
  { c with writer := { c.writer with left } }

/-- A change of state, and how many observers are to be told. -/
structure Transition where
  source : Lifecycle
  target : Lifecycle
  error : Option Error
  observers : Nat

/-- What threads share. -/
structure State where
  lifecycle : Lifecycle := .stopped
  used : Bool := false
  stopRequested : Bool := false
  stopping : Bool := false
  lastError : Option Error := none
  /-- Whether the call that started the server has returned. -/
  startDone : Bool := false
  process : Option Process := none
  connection : Option Rpc.Connection := none
  /-- Whether process and connection are known to those who stop and notify. -/
  attached : Bool := false
  serverInfo : Option ProgramInfo := none
  observers : Nat := 0
  /-- Which thread is stopping the server; only one can at a time. -/
  stopper : Option Nat := none
  /-- How the calls on the connection ended that somebody still waits for. -/
  answers : List (Nat × Rpc.Outcome) := []

/-- What can be seen from outside. -/
inductive Effect where
  | report (r : Report)
  | observed (observer : Nat) (source target : Lifecycle) (e : Option Error)
  /-- A process was asked for, whether or not there is one now. -/
  | spawned (launch : Launch)
  | killed
  /-- Octets of one frame written to the server. -/
  | wrote (frame : Bytes)
  /-- A thread has returned. -/
  | returned (thread : Nat) (e : Option Error)

def logged (text : String) : Effect := .report (.line text)

/-- The line about a change of state that is not legal. -/
def ignoredLine (source target : Lifecycle) : String :=
  "Ignoring invalid lifecycle transition " ++ source.name ++ " -> " ++ target.name

namespace State

/-! ### Transitions -/

/-- Moves to another state, if that is legal; otherwise a line says so. -/
def transition (target : Lifecycle) (e : Option Error) (s : State) :
    State × List Effect × Option Transition :=
  if s.lifecycle.canStep target then
    ({ s with lifecycle := target, lastError := e.or s.lastError }, [],
      some { source := s.lifecycle, target, error := e, observers := s.observers })
  else
    (s, [logged (ignoredLine s.lifecycle target)], none)

def announce (t : Option Transition) : List Effect :=
  match t with
  | some t => (List.range t.observers).map fun i => .observed i t.source t.target t.error
  | none => []

/-! ### Connection and process -/

/-- The connection after an operation on it, with what that led to: answers
are kept for those who wait, and notifications of the server become reports. -/
def withConnection (c : Rpc.Connection) (effects : List Rpc.Effect) (s : State) : State × List Effect :=
  let answers := effects.filterMap fun
    | .returned id o => some (id, o)
    | _ => none
  let shown := effects.flatMap fun
    | .wrote frame => [.wrote frame]
    | .notified label method params => (reportsOf label method params).map .report
    | .returned _ _ => []
  ({ s with connection := some c, answers := s.answers ++ answers }, shown)

/-- Does something to the connection, if there is one. -/
def onConnection (f : Rpc.Connection → Rpc.Connection × List Rpc.Effect) (s : State) :
    State × List Effect :=
  match s.connection with
  | none => (s, [])
  | some c =>
    let (c, effects) := f c
    s.withConnection c effects

/-- The process ends: what is left of its error output is logged, and nothing
more comes from it. -/
def exit (code : Int) (s : State) : State × List Effect :=
  match s.process with
  | none => (s, [])
  | some p =>
    if p.isRunning then
      let (output, reports) := p.errorOutput.finish
      let s := { s with process := some { p with exitCode := some code, errorOutput := output } }
      let (s, effects) := s.onConnection Rpc.Connection.hangup
      (s, reports.map .report ++ effects)
    else (s, [])

def kill (settings : Settings) (s : State) : State × List Effect :=
  match s.process with
  | none => (s, [])
  | some p =>
    let s := { s with process := some { p with kills := p.kills + 1 } }
    let (s, effects) := match settings.killCode with
      | some code => s.exit code
      | none => (s, [])
    (s, .killed :: effects ++ (match settings.killError with
      | some e => [logged ("Failed to kill language server: " ++ e.message)]
      | none => []))

def receiveErrors (bytes : Bytes) (s : State) : State × List Effect :=
  match s.process with
  | none => (s, [])
  | some p =>
    let (output, reports) := p.errorOutput.receive bytes
    ({ s with process := some { p with errorOutput := output } }, reports.map .report)

/-- Whether the process runs, `none` before there is one. -/
def running? (s : State) : Option Bool := s.process.map (·.isRunning)

def exitCode? (s : State) : Option Int := s.process.bind (·.exitCode)

def closeConnection (s : State) : State × List Effect := s.onConnection Rpc.Connection.close

def answer? (id : Nat) (s : State) : Option Rpc.Outcome := s.answers.lookup id

end State

/-- Refuses a binary that cannot be executed. -/
def checkExecutable (fs : FileSystem) (b : Binary) : Except Error Unit :=
  match fs.stat b.path with
  | .error e => .error (.missingBinary b.path (some e))
  | .ok (.file _ mode) =>
    if !b.platform.isWindows && mode &&& 0o111 = 0 then
      .error (.missingBinary b.path (some (.plain "binary is not executable")))
    else .ok ()
  | .ok _ => .error (.missingBinary b.path (some (.plain "path is a directory")))

end LanguageClient.Supervisor
