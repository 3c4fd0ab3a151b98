import LanguageClient.Number.Decimal
import LanguageClient.Provision.Step

/-! # Callers that take turns.

Any number of calls for one binary, in any number of processes, share the files
and the lock. A `Move` is what one of them does in one go, or the end of a whole
process, and `World.play?` makes moves in any order. Calls through one
provisioner of a process share what the first of them does. A body is written
piece by piece, and a process may end between any two moves. -/

namespace LanguageClient.Provision

inductive Stage where
  /-- It has not looked for the binary yet. -/
  | check
  /-- It has found the binary missing. -/
  | join
  /-- It waits for the result of the call that does the work. -/
  | waiting (leader : Nat)
  | working (point : Point)
  | returned (result : Option Error)
  /-- Its process has ended. -/
  | dead

structure Caller where
  process : Nat
  /-- The provisioner of its process that it goes through. -/
  group : Nat
  provisioner : Provisioner
  stage : Stage := .check

structure World where
  shared : Shared
  callers : List Caller := []

/-- What is noted while callers take turns, in the order in which it happens. -/
inductive Note where
  /-- A caller has come to its request. -/
  | fetched (caller : Nat)
  /-- A request was made, and this came of it. -/
  | answered (outcome : Outcome)
  /-- A caller has moved its file into place. -/
  | renamed (caller : Nat)

/-- What can happen in one go. -/
inductive Move where
  | call (process group : Nat) (p : Provisioner)
  /-- A caller looks whether the binary is there. -/
  | check (caller : Nat) (refusals : Refusals)
  /-- A caller that has found it missing starts to work, or waits for another one. -/
  | join (caller : Nat)
  /-- A caller that works makes a step. The number tells its temporary file from
  others. -/
  | advance (caller : Nat) (cancelled : Bool) (outcome : Outcome) (number : Nat)
      (refusals : Refusals)
  /-- A caller writes only so many octets of the body. -/
  | writeSome (caller count : Nat)
  /-- A caller returns with its own result, or with that of the one it waits for. -/
  | leave (caller : Nat)
  /-- A process ends, and its locks are released. -/
  | die (process : Nat)

def Point.holds : Point → Bool
  | .version | .directory _ | .lock _ | .finished _ => false
  | _ => true

/-- Whether this point lies between the request and the move into place. -/
def Point.downloads : Point → Bool
  | .fetch _ | .create _ _ _ | .write _ _ _ _ | .close _ _ | .permit _ _ | .move _ _ => true
  | _ => false

namespace Stage

def isWorking : Stage → Bool
  | .working _ => true
  | _ => false

def holds : Stage → Bool
  | .working point => point.holds
  | _ => false

def downloads : Stage → Bool
  | .working point => point.downloads
  | _ => false

def result? : Stage → Option (Option Error)
  | .working (.finished result) | .returned result => some result
  | _ => none

end Stage

/-- What is noted of a step. -/
def noted (caller : Nat) (outcome : Outcome) (point : Point) (r : Shared × Point × List Effect) :
    List Note :=
  match point, r.2.1 with
  | .fetch _, _ => .fetched caller :: (requests r.2.2).map fun _ => .answered outcome
  | .move _ _, .announce _ => [.renamed caller]
  | _, _ => []

/-- What tells a temporary file from others. -/
def suffixOf (number : Nat) : String := String.ofList (Number.natText number)

namespace World

def become (i : Nat) (stage : Stage) (w : World) : World :=
  { w with callers := w.callers.modify i fun c => { c with stage } }

def withFiles (files : FileSystem) (w : World) : World :=
  { w with shared := { w.shared with files } }

/-- The call that works for the provisioner of another call. -/
def leader? (w : World) (c : Caller) : Option Nat :=
  w.callers.findIdx? fun d => d.process == c.process && d.group == c.group && d.stage.isWorking

/-- A process has ended, and does not hold the lock. -/
def die (b : Binary) (process : Nat) (w : World) : World where
  shared :=
    let holds := w.callers.any fun c => c.process == process && c.stage.holds
    { w.shared with
      locked := if holds then w.shared.locked.erase (lockPath b) else w.shared.locked }
  callers := w.callers.map fun c => if c.process = process then { c with stage := .dead } else c

/-- What a move leads to and what is noted of it; `none` if it cannot be made. -/
def step? (b : Binary) (w : World) : Move → Option (World × List Note)
  | .call process group p =>
    some ({ w with callers := w.callers ++ [{ process, group, provisioner := p }] }, [])
  | .check i refusals =>
    w.callers[i]?.bind fun c =>
      match c.stage with
      | .check =>
        match present refusals w.shared.files b with
        | .error e => some (w.become i (.returned (some e)), [])
        | .ok (there, files) =>
          some ((w.withFiles files).become i (if there then .returned none else .join), [])
      | _ => none
  | .join i =>
    w.callers[i]?.bind fun c =>
      match c.stage with
      | .join =>
        match w.leader? c with
        | some j => some (w.become i (.waiting j), [])
        | none => some (w.become i (.working .version), [])
      | _ => none
  | .advance i cancelled outcome number refusals =>
    w.callers[i]?.bind fun c =>
      match c.stage with
      | .working point =>
        let r := step c.provisioner b ⟨cancelled, { outcome }, suffixOf number, refusals⟩ w.shared point
        some ({ w with shared := r.1 }.become i (.working r.2.1), noted i outcome point r)
      | _ => none
  | .writeSome i count =>
    w.callers[i]?.bind fun c =>
      match c.stage with
      | .working (.write v temporary body failure) =>
        some ((w.withFiles (w.shared.files.append temporary (body.take count))).become i
          (.working (.write v temporary (body.drop count) failure)), [])
      | _ => none
  | .leave i =>
    w.callers[i]?.bind fun c =>
      match c.stage with
      | .working _ => c.stage.result?.map fun result => (w.become i (.returned result), [])
      | .waiting j =>
        (w.callers[j]?.bind (·.stage.result?)).map fun result => (w.become i (.returned result), [])
      | _ => none
  | .die process => some (w.die b process, [])

def play? (b : Binary) : List Move → World → Option (World × List Note)
  | [], w => some (w, [])
  | m :: ms, w =>
    (w.step? b m).bind fun (w, notes) => (play? b ms w).map fun (w, more) => (w, notes ++ more)

/-- Nobody has called yet. -/
def quiet (fs : FileSystem) : World := { shared := { files := fs } }

theorem callers_become (w : World) (i j : Nat) (stage : Stage) :
    (w.become i stage).callers[j]? =
      w.callers[j]?.map fun c => if i = j then { c with stage } else c := by
  rw [become, List.getElem?_modify]
  rfl

end World

end LanguageClient.Provision
