import LanguageClient.Rehearsal.Script
import LanguageClient.Supervisor.Step

/-! # Scenes.

A scene is a supervisor together with a scripted server. It is played by
letting one of them move at a time. The server reads a message as soon as it
is written; then the threads of the supervisor move as long as one can; then
the server acts on what it has read. Time passes only when nothing else can
happen. What can be seen is kept in order. -/

namespace LanguageClient.Rehearsal

open Supervisor

/-- What can be seen of a scene. -/
inductive Sight where
  | effect (e : Supervisor.Effect)
  /-- The server has read a message. -/
  | received (body : Bytes)

/-- A supervisor, its threads, and the server. -/
structure Scene where
  settings : Settings
  script : Script := {}
  state : State := {}
  threads : List Thread := []
  /-- What was written to the server and not read by it. -/
  input : Bytes := []
  /-- What the server is about to do. -/
  agenda : List Action := []
  /-- What was seen, the last first. -/
  seen : List Sight := []

namespace Scene

def serverRuns (sc : Scene) : Bool := sc.state.running? = some true

/-- The scene after effects of the supervisor. -/
def record (effects : List Supervisor.Effect) (sc : Scene) : Scene :=
  { sc with
    input := sc.input ++ effects.flatMap fun
      | .wrote frame => frame
      | _ => []
    seen := (effects.map .effect).reverse ++ sc.seen }

def act (f : State → State × List Supervisor.Effect) (sc : Scene) : Scene :=
  let (state, effects) := f sc.state
  { sc with state }.record effects

/-! ### The supervisor -/

def fork (t : Thread) (sc : Scene) : Scene := { sc with threads := sc.threads ++ [t] }

/-- One step of a thread, if it can take one. -/
def stepThread? (sc : Scene) (i : Nat) (t : Thread) : Option Scene :=
  (step sc.settings i t sc.state).map fun p =>
    { sc with
      state := p.state
      threads := sc.threads.set i { t with task := p.task } ++ p.started.map Thread.ofTask }.record
      p.effects

def stepThreads? (sc : Scene) : Option Scene :=
  sc.threads.zipIdx.findSome? fun (t, i) => sc.stepThread? i t

/-- Tells a thread that it need not wait any longer. -/
def release (i : Nat) (t : Thread) (why : Condition) (sc : Scene) : Scene :=
  { sc with threads := sc.threads.set i t }.act (State.release t.task why)

/-- The time of the first thread with a time limit runs out. -/
def passTime? (sc : Scene) : Option Scene :=
  sc.threads.zipIdx.findSome? fun (t, i) =>
    if t.task.isTimed && !t.expired then
      some (sc.release i { t with expired := true } .deadlineExceeded)
    else none

/-- The callers of all threads that mind give up. -/
def cancelAll (sc : Scene) : Scene :=
  sc.threads.zipIdx.foldl
    (fun sc (t, i) =>
      if t.task.isCancellable then sc.release i { t with cancelled := true } .cancelled else sc)
    sc

/-! ### The server -/

def serverSends (bytes : Bytes) (sc : Scene) : Scene :=
  sc.act fun s => s.onConnection (Rpc.Connection.receive bytes)

/-- Nothing can be written to the server any longer. -/
def deafen (sc : Scene) : Scene :=
  sc.act fun s => s.onConnection fun c => (limitWrites (some 0) c, [])

def errorOutput (bytes : Bytes) (sc : Scene) : Scene := sc.act (State.receiveErrors bytes)

def perform (a : Action) (sc : Scene) : Scene :=
  match a with
  | .send message => sc.serverSends (Frame.encode message)
  | .exit code => sc.act (State.exit code)
  | .hangup => sc.act fun s => s.onConnection Rpc.Connection.hangup
  | .deafen => sc.deafen
  | .interrupt .stop => sc.fork { task := .stop .acquire }
  | .interrupt .cancel => sc.cancelAll

/-- The server reads a message, if it runs and there is one. -/
def readMessage? (sc : Scene) : Option Scene :=
  let r := Frame.read sc.input
  match sc.serverRuns, r.outcome with
  | true, .ok body =>
    let actions := match Rpc.parse body with
      | .ok m => sc.script.actions m.method (m.id.getD [])
      | .error _ => []
    some { sc with input := r.rest, agenda := sc.agenda ++ actions, seen := .received body :: sc.seen }
  | _, _ => none

/-- The server does what is next on its agenda, if it runs. -/
def stepServer? (sc : Scene) : Option Scene :=
  match sc.serverRuns, sc.agenda with
  | true, a :: agenda => some ({ sc with agenda }.perform a)
  | _, _ => none

/-! ### Playing -/

/-- One move that needs no time; `none` when there is none. -/
def moveNow? (sc : Scene) : Option Scene :=
  sc.readMessage?.or (sc.stepThreads?.or sc.stepServer?)

/-- One move; `none` when nothing can move any longer. -/
def move? (sc : Scene) : Option Scene := sc.moveNow?.or sc.passTime?

/-- Plays a scene until nothing can move, for at most so many moves. -/
def play (sc : Scene) : Nat → Scene
  | 0 => sc
  | fuel + 1 =>
    match sc.move? with
    | none => sc
    | some sc => play sc fuel

/-- More moves than any script of reasonable size leads to. -/
def enough : Nat := 100000

/-- Plays a scene until nothing can move. -/
def settle (sc : Scene) : Scene := sc.play enough

/-- A thread is started, and the scene is played. The number of the thread is
returned with it. -/
def call (t : Thread) (sc : Scene) : Scene × Nat := ((sc.fork t).settle, sc.threads.length)

def result? (i : Nat) (sc : Scene) : Option (Option Error) :=
  sc.seen.findSome? fun
    | .effect (.returned j e) => if i = j then some e else none
    | _ => none

/-! ### What was seen -/

/-- What was seen since an earlier state of the scene, in order. -/
def seenSince (sc before : Scene) : List Sight :=
  (sc.seen.take (sc.seen.length - before.seen.length)).reverse

def kills (sc : Scene) : Nat := (sc.state.process.map (·.kills)).getD 0

end Scene

def effects (seen : List Sight) : List Supervisor.Effect :=
  seen.filterMap fun
    | .effect e => some e
    | .received _ => none

def reports (seen : List Sight) : List Report :=
  (effects seen).filterMap fun
    | .report r => some r
    | _ => none

/-- The messages the server has read. -/
def received (seen : List Sight) : List Bytes :=
  seen.filterMap fun
    | .received body => some body
    | .effect _ => none

end LanguageClient.Rehearsal
