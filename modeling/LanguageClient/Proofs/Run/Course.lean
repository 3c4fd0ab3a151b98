import LanguageClient.CommandLine.Execute
import LanguageClient.Proofs.Run.Ledger
import LanguageClient.Proofs.Supervisor.Conversation

/-! # The course of a run.

What a run waits for, it does not decide: threads of the supervisor take their steps
in any order, the server answers, writes, or exits when it likes, files change, and the
run may be interrupted at any time. A `Course` is a state of all that together with
what is to happen from now on, as a list of incidents. Whenever the run waits, incidents
happen, up to one that lets it go on; a course whose list ends before that is lost, for
then the run waits forever.

`world` gives a command such a course to work in. What is proved of every list of
incidents is proved of every run, and of every order in which things can happen
during it. -/

namespace LanguageClient

namespace Supervisor

/-- The server is taken to run, and nobody is stopping it: notifications are let through. -/
def State.isReady (s : State) : Bool := s.lifecycle = .running && !s.stopping && s.attached

/-- The process runs, and whatever is written to it arrives. -/
def State.isUp (s : State) : Bool :=
  s.running? = some true && s.connection.any fun c => !c.closed && c.writer.left.isNone

def Task.isNotification : Task → Bool
  | .notify .. => true
  | _ => false

/-- What the thread that moves in an event returns. -/
def Event.returned (es : List Effect) : Event → List (Nat × Option Error)
  | .advance i => es.filterMap fun
    | .returned _ e => some (i, e)
    | _ => none
  | _ => []

end Supervisor

namespace Run

open Supervisor (Settings Effect Event Line System Thread written)

/-! ### Servers -/

/-- A supervisor at work, and all that was seen of it. -/
structure Supervision where
  settings : Settings
  system : System
  effects : List Effect := []
  lines : List Line := []
  /-- What threads have returned. -/
  returns : List (Nat × Option Error) := []
  /-- Whether the server was up all the time that it was ready. -/
  steady : Bool := true

namespace Supervision

def happen (e : Event) (v : Supervision) : Supervision :=
  match (Supervisor.Run.begin v.system).happen? v.settings e with
  | none => v
  | some r =>
    { v with
      system := r.system
      effects := v.effects ++ r.effects
      lines := v.lines ++ (e.heard v.system ++ written (e.purpose? v.system) r.effects)
      returns := v.returns ++ e.returned r.effects
      steady := v.steady && (!r.system.state.isReady || r.system.state.isUp) }

/-- Why the server has failed after it ran, if it has. -/
def failure? (v : Supervision) : Option Error :=
  v.effects.findSome? fun
    | .observed _ .running .failed e => e
    | _ => none

def result? (thread : Nat) (v : Supervision) : Option (Option Error) :=
  match v.system.threads[thread]? with
  | some { task := .done, .. } => some (v.returns.lookup thread).join
  | _ => none

def fork (t : Thread) (v : Supervision) : Supervision :=
  { v with system := { v.system with threads := v.system.threads ++ [t] } }

end Supervision

/-! ### Incidents -/

/-- What can happen while a run waits. -/
inductive Incident where
  /-- Something happens to the supervisor. -/
  | event (e : Event)
  | interrupt
  /-- Files change. -/
  | save (place : FileSystem → FileSystem)
  /-- Whoever follows edits sees that a file was written. -/
  | edited (path : String)
  /-- The run sees that the server has had time to answer. -/
  | settle
  /-- The run sees that the server has failed. -/
  | fail
  /-- The run sees that it is interrupted, that a call has returned, or that nobody
  follows edits any longer. -/
  | proceed

/-- What a run works with. -/
structure Circumstances where
  files : FileSystem := {}
  interrupted : Bool := false
  /-- Whether calls go on although the run is interrupted. -/
  shielded : Bool := false
  server : Option Supervision := none
  sent : List Sent := []

namespace Circumstances

/-- Events that nobody but the run decides on are no incidents. A caller gives up
only when the run is interrupted, and only calls with a time limit run out of time. -/
def admits (w : Circumstances) (v : Supervision) : Event → Bool
  | .call .. | .observe => false
  | .cancel _ => w.interrupted && !w.shielded
  | .expire i => v.system.threads[i]?.all fun t => !t.task.isNotification
  | .advance _ | .deed _ => true

def undergo (w : Circumstances) : Incident → Circumstances
  | .event e =>
    match w.server with
    | none => w
    | some v => if w.admits v e then { w with server := some (v.happen e) } else w
  | .interrupt => { w with interrupted := true }
  | .save place => { w with files := place w.files }
  | .edited _ | .settle | .fail | .proceed => w

/-- What a call has returned, if that lets the run go on. -/
def result? (thread : Nat) (w : Circumstances) : Incident → Option (Option Error)
  | .proceed => w.server.bind (·.result? thread)
  | _ => none

/-- What a run that waits sees. -/
def happening? (once : Bool) (w : Circumstances) : Incident → Option Happening
  | .edited path => some (.edited path)
  | .settle => if once then some .settled else none
  | .fail => w.server.bind fun v => v.failure?.map .failed
  | .proceed => if w.interrupted then some .interrupted else none
  | _ => none

/-- What is seen by one who is about to stop following edits. -/
def late? (_ : Circumstances) : Incident → Option (Option String)
  | .edited path => some (some path)
  | .proceed => some none
  | _ => none

/-- The run goes on in any case. -/
def anyway? (_ : Circumstances) : Incident → Option Unit
  | .proceed => some ()
  | _ => none

end Circumstances

/-! ### Courses -/

/-- What a run works with, and what is going to happen. -/
structure Course where
  now : Circumstances
  ahead : List Incident
  /-- Whether the run waits forever. -/
  lost : Bool := false

/-- Lets incidents happen up to the first one that lets the run go on. -/
def await (ready : Circumstances → Incident → Option α) :
    List Incident → Circumstances → Circumstances × List Incident × Option α
  | [], w => (w, [], none)
  | i :: ahead, w =>
    match ready w i with
    | some a => (w, ahead, some a)
    | none => await ready ahead (w.undergo i)

namespace Course

def await (ready : Circumstances → Incident → Option α) (p : Course) : Course × Option α :=
  match Run.await ready p.ahead p.now with
  | (now, ahead, some a) => ({ p with now, ahead }, some a)
  | (now, ahead, none) => ({ now, ahead, lost := true }, none)

/-- The run calls the supervisor, and waits until the call has returned. -/
def call (t : Thread) (p : Course) : Course × Option Error :=
  match p.now.server with
  | none => (p, none)
  | some v =>
    let (p, r) := { p with now.server := some (v.fork t) }.await
      (Circumstances.result? v.system.threads.length)
    (p, r.join)

def notify (method : String) (params : Bytes) (p : Course) : Course × Option Error :=
  let (q, failure) := p.call
    { task := .notify method (.json params) .check
      cancelled := p.now.interrupted && !p.now.shielded }
  ({ q with now.sent := q.now.sent ++ [⟨method, params, p.now.shielded, failure⟩] }, failure)

end Course

/-! ### The world of a course -/

/-- What a run has no part in. -/
structure Conditions where
  session : SessionId
  /-- What comes of making a binary available, depending on whether the run is
  interrupted by then. -/
  provision : Client → Binary → Bool → FileSystem → FileSystem × Except Error Binary
  decode : Config.Decoder := fun _ => none
  /-- What supervisors are made with besides what the client asks for. -/
  spawnError : Option Error := none
  killError : Option Error := none
  killCode : Option Int := some 137
  processId : Int := 0
  pid : Int := 0
  /-- Whether a shutdown that sees both that the process has ended and that its
  time is over goes by the time. -/
  hasty : Bool := false
  /-- How many edits are followed at most. -/
  patience : Nat := 1000

variable (k : Conditions)

def Conditions.settings (c : Client) (fs : FileSystem) (b : Binary) : Settings :=
  { c.settings fs b with
    spawnError := k.spawnError, killError := k.killError, killCode := k.killCode
    processId := k.processId, pid := k.pid }

/-- Supervisors of a course. One observer is told of transitions. -/
def servers (c : Client) : Servers Course Unit where
  supervise b p :=
    ({ p with now.server := some {
        settings := k.settings c p.now.files b, system := { state := { observers := 1 } } } }, ())
  start _ mode p :=
    p.call { task := .start mode .enter, cancelled := p.now.interrupted, hasty := k.hasty }
  stop _ p := (p.call { task := .stop .acquire, hasty := k.hasty }).1
  notify _ := Course.notify
  state _ p := (p.now.server.map (·.system.state.lifecycle)).getD .stopped

def provide (c : Client) (b : Binary) (p : Course) : Course × Except Error Binary :=
  let (p, _) := p.await Circumstances.anyway?
  let (files, r) := k.provision c b p.now.interrupted p.now.files
  ({ p with now.files := files }, r)

/-- The world that commands work in. Nothing depends on what they say. -/
def world : CommandLine.World Course Unit where
  print _ p := p
  files p := p.now.files
  decode := k.decode
  openChannel _ _ p := p
  say _ p := p
  debug _ p := p
  provision := provide k
  servers := servers k
  interrupted p := p.now.interrupted
  shield p := { p with now.shielded := true }
  next once p :=
    let (p, h) := p.await (Circumstances.happening? once)
    (p, h.getD .interrupted)
  late p :=
    let (p, path) := p.await Circumstances.late?
    (p, path.join)
  sessionId _ := k.session
  patience := k.patience

/-- What a client needs to run in such a world. -/
def means (c : Client) : Means Course Unit := CommandLine.meansOf (world k) c

end Run

end LanguageClient
