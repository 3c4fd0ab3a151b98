import LanguageClient.Shell.Command
import LanguageClient.Shell.Machine

/-! # Processes started through the shell.

A process is known by its three streams, by whether it runs, and by how it has
ended. It runs as far as it can whenever something is done to it. -/

namespace LanguageClient.Shell

/-- A process and what is known of it. -/
structure Child where
  machine : Machine
  /-- Whether its input can still be written to. -/
  inputOpen : Bool := true

inductive Stream where
  | output
  | errors
  deriving DecidableEq, Repr

def signalName (n : Nat) : String :=
  match n with
  | 1 => "hangup"
  | 2 => "interrupt"
  | 3 => "quit"
  | 9 => "killed"
  | 15 => "terminated"
  | n => "signal " ++ toString n

/-- The error for an ending, unless it was a good one. -/
def Ending.error? : Ending → Option Error
  | .exited 0 => none
  | .exited code => some (.exitStatus ("exit status " ++ toString code))
  | .signalled n => some (.exitStatus ("signal: " ++ signalName n))

/-- The exit code of an ending; a signal leaves none. -/
def Ending.code : Ending → Int
  | .exited code => code
  | .signalled _ => -1

namespace Child

def closedError (operation : String) : Error := .plain (operation ++ " |1: file already closed")

/-- More steps than the wrapper of a server takes. -/
def enough : Nat := 100000

/-- The process after its machine has changed: it runs as far as it can, and
its input is closed when it has ended. -/
def withMachine (m : Machine) (p : Child) : Child :=
  let machine := m.run enough
  { machine, inputOpen := p.inputOpen && machine.ending.isNone }

/-- Starts a program through the shell. No word of the command may hold a zero
octet. -/
def spawn (files : FileSystem) (environment : List (String × String)) (executable : String)
    (args : List String) : Except Error Child :=
  if executable = "" then .error (.plain "executable cannot be empty")
  else if (executable :: args).any (·.toList.contains '\x00') then
    .error (.context "failed to start process" (.file "fork/exec" shellPath .invalidArgument))
  else
    let (shell, shellArgs) := Shell.command "linux" executable args
    let m : Machine := { name := shell, files }
    let m := { m with environment := ("PWD", m.here) :: environment }
    let jobs := match parse? ((shellArgs.getLastD "").toList) with
      | some c => [.command c]
      | none => []
    .ok (({ machine := m } : Child).withMachine { m with jobs })

def isRunning (p : Child) : Bool := p.machine.ending.isNone

/-- The exit code, zero as long as there is none. -/
def exitCode (p : Child) : Int := (p.machine.ending.map Ending.code).getD 0

def write (bs : Bytes) (p : Child) : Child × Option Error :=
  if p.inputOpen then (p.withMachine { p.machine with input := p.machine.input ++ bs }, none)
  else (p, some (closedError "write"))

def closeInput (p : Child) : Child × Option Error :=
  if p.inputOpen then
    ({ p with inputOpen := false }.withMachine { p.machine with inputEnded := true }, none)
  else (p, some (closedError "close"))

/-- A signal is sent. One that comes too late does nothing. -/
def signal (n : Nat) (p : Child) : Child := p.withMachine (p.machine.signal n)

def terminate (p : Child) : Child := p.signal 15

/-- Closes the input and kills the process. -/
def kill (p : Child) : Child := (p.closeInput.1).signal 9

/-- Waits as long as the process sleeps, at most so often. -/
def wait (p : Child) : Nat → Child
  | 0 => p
  | fuel + 1 =>
    match p.machine.wake? with
    | none => p
    | some m => wait (p.withMachine m) fuel

def finish (p : Child) : Child := p.wait enough

/-- What was written to a stream and not read. -/
def unread (p : Child) : Stream → Bytes
  | .output => p.machine.output
  | .errors => p.machine.errors

/-- Forgets what was read. -/
def drop (n : Nat) (p : Child) : Stream → Child
  | .output => { p with machine := { p.machine with output := p.machine.output.drop n } }
  | .errors => { p with machine := { p.machine with errors := p.machine.errors.drop n } }

/-- Reads a line with its end; an error says that the stream has ended before. -/
def readLine (s : Stream) (p : Child) : Child × Bytes × Option Error :=
  let p := if (p.unread s).contains 0x0A then p else p.finish
  let text := p.unread s
  let line := text.takeWhile (· != 0x0A)
  if line.length < text.length then (p.drop (line.length + 1) s, line ++ [0x0A], none)
  else (p.drop text.length s, text, some (.condition .endOfStream))

def readAll (s : Stream) (p : Child) : Child × Bytes :=
  let p := p.finish
  let text := p.unread s
  (p.drop text.length s, text)

end Child

end LanguageClient.Shell
