import LanguageClient.FileSystem
import LanguageClient.Shell.Program

/-! # Running shell programs.

A machine runs a program one step at a time and stops where it has to wait:
for input, or for time to pass. It knows the commands that the wrappers of
servers are made of; any other command is not found. -/

namespace LanguageClient.Shell

inductive Ending where
  | exited (code : Nat)
  | signalled (signal : Nat)
  deriving DecidableEq, Repr

inductive Job where
  | command (c : Command)
  /-- Does something if what was before ended well, or if it did not. -/
  | after (well : Bool) (c : Command)
  | invert
  | again (whileWell : Bool) (condition body : Command)
  | choose (yes no : Command)
  /-- Runs a body for the values that are left. -/
  | each (name : String) (values : List String) (body : Command)
  /-- Copies the input. -/
  | copy (dest : Destination)
  /-- Reads a line into variables. -/
  | readLine (names : List String)
  | sleep

structure Machine where
  name : String
  args : List String := []
  bindings : List (String × String) := []
  /-- What the process was started with; variables that are set hide it. -/
  environment : List (String × String) := []
  jobs : List Job := []
  status : Nat := 0
  input : Bytes := []
  inputEnded : Bool := false
  output : Bytes := []
  errors : Bytes := []
  ending : Option Ending := none
  /-- What it does when it is asked to terminate, unless it just ends. -/
  onTerminate : Option Command := none
  files : FileSystem := {}

namespace Machine

/-! ### Expansion -/

def parameter (m : Machine) (name : String) : String :=
  if name = "?" then toString m.status
  else if name = "#" then toString m.args.length
  else if name = "$" then "$"
  else if name = "0" then m.name
  else if name = "@" || name = "*" then String.intercalate " " m.args
  else
    match name.toNat? with
    | some n => (m.args[n - 1]?).getD ""
    | none => ((m.bindings.lookup name).or (m.environment.lookup name)).getD ""

/-- The words between blanks. -/
def fields (s : String) : List String :=
  ((s.toList.splitBy fun a b => a.isWhitespace == b.isWhitespace).filter fun
    | c :: _ => !c.isWhitespace
    | [] => false).map String.ofList

/-- What a word expands to: finished fields, and the one that goes on. A
machine runs no commands inside words: they leave nothing. -/
def expandPieces (m : Machine) : Option String → Word → List String
  | current, [] => current.toList
  | current, .quotes :: ps => expandPieces m (some (current.getD "")) ps
  | current, .char c _ :: ps => expandPieces m (some (current.getD "" ++ String.singleton c)) ps
  | current, .substitution _ _ :: ps => expandPieces m current ps
  | current, .parameter name true :: ps =>
    expandPieces m (some (current.getD "" ++ m.parameter name)) ps
  | current, .parameter name false :: ps =>
    match (fields (m.parameter name)).reverse with
    | [] => expandPieces m current ps
    | [one] => expandPieces m (some (current.getD "" ++ one)) ps
    | last :: before =>
      let before := before.reverse
      ((current.getD "" ++ before.headD "") :: before.tail) ++ expandPieces m (some last) ps

/-- The fields of a word. All arguments together stay apart. -/
def expand (m : Machine) (w : Word) : List String :=
  if w = [.quotes, .parameter "@" true] then m.args else m.expandPieces none w

/-- The one text a word expands to. -/
def expandOne (m : Machine) (w : Word) : String := String.intercalate " " (m.expand w)

/-! ### Output -/

/-- Where output and errors of a command go. -/
structure Streams where
  output : Destination := .output
  errors : Destination := .errors

def redirect (m : Machine) (s : Streams) : Redirection → Streams
  | .take _ => s
  | .send stream dest duplicate =>
    let dest := m.expandOne dest
    let target : Destination :=
      if !duplicate then .nowhere
      else if dest = "2" then s.errors
      else if dest = "1" then s.output
      else .nowhere
    if stream = 2 then { s with errors := target } else { s with output := target }

def write (dest : Destination) (bs : Bytes) (m : Machine) : Machine :=
  match dest with
  | .output => { m with output := m.output ++ bs }
  | .errors => { m with errors := m.errors ++ bs }
  | .nowhere => m

/-- Writes a text and ends well. -/
def print (dest : Destination) (s : String) (m : Machine) : Machine :=
  { m.write dest (utf8 s) with status := 0 }

/-- Complains and ends with a status. -/
def complain (dest : Destination) (line : Nat) (text : String) (status : Nat) (m : Machine) : Machine :=
  { m.write dest (utf8 (m.name ++ ": " ++ toString line ++ ": " ++ text ++ "\n")) with status }

def escaped (c : Char) : List Char :=
  match c with
  | 'n' => ['\n']
  | 't' => ['\t']
  | 'r' => ['\r']
  | '\\' => ['\\']
  | c => ['\\', c]

def unescape : List Char → List Char
  | '\\' :: c :: cs => escaped c ++ unescape cs
  | c :: cs => c :: unescape cs
  | [] => []

/-- A format filled once: the text, and the arguments that are left. -/
def fill : List Char → List String → List Char × List String
  | '%' :: '%' :: cs, args =>
    let (text, left) := fill cs args
    ('%' :: text, left)
  | '%' :: 's' :: cs, args =>
    let (text, left) := fill cs args.tail
    ((args.headD "").toList ++ text, left)
  | '%' :: 'd' :: cs, args =>
    let (text, left) := fill cs args.tail
    ((args.headD "0").toList ++ text, left)
  | '\\' :: c :: cs, args =>
    let (text, left) := fill cs args
    (escaped c ++ text, left)
  | c :: cs, args =>
    let (text, left) := fill cs args
    (c :: text, left)
  | [], args => ([], args)

/-- A format filled as often as there are arguments for it. -/
def format (template : List Char) : Nat → List String → List Char
  | 0, _ => []
  | rounds + 1, args =>
    let (text, left) := fill template args
    if left.isEmpty || left.length = args.length then text else text ++ format template rounds left

/-! ### Commands -/

def signals : List (String × Nat) :=
  [("HUP", 1), ("INT", 2), ("QUIT", 3), ("KILL", 9), ("TERM", 15)]

def signal? (s : String) : Option Nat :=
  let name := if s.startsWith "-" then String.ofList (s.toList.drop 1) else s
  (name.toNat?).or (signals.lookup (if name.startsWith "SIG" then String.ofList (name.toList.drop 3) else name))

/-- Puts a command behind what the machine is busy with. -/
def interpose (c : Command) : List Job → List Job
  | .sleep :: jobs => .sleep :: .command c :: jobs
  | .copy dest :: jobs => .copy dest :: .command c :: jobs
  | jobs => .command c :: jobs

def signal (n : Nat) (m : Machine) : Machine :=
  if n = 0 || m.ending.isSome then m
  else
    match n, m.onTerminate with
    | 15, some c => { m with jobs := interpose c m.jobs }
    | _, _ => { m with ending := some (.signalled n) }

/-- A condition on texts and files. -/
def holds (m : Machine) : List String → Bool
  | ["-n", s] => s ≠ ""
  | ["-z", s] => s = ""
  | ["-e", p] => (m.files.stat p).toOption.isSome
  | ["-f", p] => match m.files.stat p with
    | .ok (.file _ _) => true
    | _ => false
  | [a, "=", b] => a = b
  | [a, "!=", b] => a ≠ b
  | [a, "-eq", b] => a.toInt? = b.toInt?
  | [a, "-ne", b] => a.toInt? ≠ b.toInt?
  | ["!", s] => s = ""
  | [s] => s ≠ ""
  | _ => false

/-- The line at the front of a script that names what reads it. -/
def interpreter? (script : List Char) : Option (List Char) :=
  match script with
  | '#' :: '!' :: cs => some ((cs.dropWhile (· == ' ')).takeWhile fun c => c != '\n' && c != ' ')
  | _ => none

/-- The programs that read scripts the way a machine does. -/
def shells : List String := ["/bin/sh", "/usr/bin/sh", "/bin/dash", "/usr/bin/dash"]

/-- What is said of a file that cannot be run, and the status it leaves. -/
def refusal : FileReason → String × Nat
  | .noEntry | .notDirectory => ("not found", 127)
  | .linkLoop => ("Too many levels of symbolic links", 127)
  | .nameTooLong => ("File name too long", 127)
  | _ => ("Permission denied", 126)

/-- The program in a file: the text of a script, or why it cannot be run. -/
def program (m : Machine) (path : String) : Except FileReason (List Char) :=
  match m.files.find true path with
  | .error r => .error r
  | .ok (_, .file content mode) =>
    let cs := Utf8.decode content
    if mode &&& 0o111 = 0 then .error .denied
    else
      match interpreter? cs with
      | none => .ok cs
      | some i => if shells.contains (String.ofList i) then .ok (cs.dropWhile (· != '\n')) else .error .noEntry
  | .ok _ => .error .denied

/-- Replaces what runs by a script. -/
def become (name : String) (args : List String) (script : List Char) (m : Machine) : Machine :=
  match parse? script with
  | some c =>
    { m with name, args, bindings := [], jobs := [.command c], status := 0, onTerminate := none }
  | none =>
    { m.write .errors (utf8 (name ++ ": 1: Syntax error\n")) with ending := some (.exited 2) }

/-- Replaces what runs by the program in a file. -/
def execFile (dest : Destination) (line : Nat) (path : String) (args : List String) (m : Machine) :
    Machine :=
  match m.program path with
  | .ok script => m.become path args script
  | .error r =>
    let (text, status) := refusal r
    { m.complain dest line ("exec: " ++ path ++ ": " ++ text) status with
      ending := some (.exited status) }

/-- The name of a program of the system: where programs are looked for, or
without a directory. -/
def systemName (path : String) : String :=
  if (Path.dir path) ∈ ["/bin", "/usr/bin"] then Path.base path else path

def here (m : Machine) : String := FileSystem.pathOf m.files.workingDirectory

/-- The programs of the system; `none` for others. -/
def runTool (st : Streams) (name : String) (args : List String) (m : Machine) : Option Machine :=
  match name, args with
  | "true", _ => some { m with status := 0 }
  | "false", _ => some { m with status := 1 }
  | "echo", "-n" :: args => some (m.print st.output (String.intercalate " " args))
  | "echo", args => some (m.print st.output (String.intercalate " " args ++ "\n"))
  | "printf", template :: args =>
    some (m.print st.output (String.ofList (format template.toList (args.length + 1) args)))
  | "pwd", _ => some (m.print st.output (m.here ++ "\n"))
  | "cat", [] => some { m with jobs := .copy st.output :: m.jobs, status := 0 }
  | "cat", [path] =>
    some (match m.files.content path with
      | .ok bs => { m.write st.output bs with status := 0 }
      | .error _ =>
        { m.write st.errors (utf8 ("cat: " ++ path ++ ": No such file or directory\n")) with status := 1 })
  | "sleep", _ => some { m with jobs := .sleep :: m.jobs, status := 0 }
  | _, _ => none

/-- Commands that are part of the shell; `none` for others. -/
def runNamed (st : Streams) (line : Nat) (name : String) (args : List String) (m : Machine) :
    Option Machine :=
  match name, args with
  | ":", _ | "export", _ | "wait", _ | "set", _ | "umask", _ => some { m with status := 0 }
  | "exit", [] => some { m with ending := some (.exited m.status) }
  | "exit", code :: _ =>
    some (match code.toNat? with
      | some n => { m with ending := some (.exited (n % 256)) }
      | none =>
        { m.complain st.errors line ("exit: Illegal number: " ++ code) 2 with ending := some (.exited 2) })
  | "echo", "-n" :: args =>
    some (m.print st.output (String.ofList (unescape (String.intercalate " " args).toList)))
  | "echo", args =>
    some (m.print st.output (String.ofList (unescape (String.intercalate " " args).toList) ++ "\n"))
  | "read", args =>
    some { m with jobs := .readLine (args.filter fun a => !a.startsWith "-") :: m.jobs, status := 0 }
  | "kill", [_] => some (m.signal 15)
  | "kill", [s, _] => some (m.signal ((signal? s).getD 15))
  | "kill", ["-s", s, _] => some (m.signal ((signal? s).getD 15))
  | "trap", action :: names =>
    some (if names.any fun s => signal? s = some 15 then
        { m with
          onTerminate := if action = "-" then none else some ((parse? action.toList).getD .nothing)
          status := 0 }
      else { m with status := 0 })
  | "shift", _ => some { m with args := m.args.tail, status := 0 }
  | "test", args => some { m with status := if m.holds args then 0 else 1 }
  | "[", args => some { m with status := if m.holds args.dropLast then 0 else 1 }
  | name, args => m.runTool st name args

/-- Replaces what runs by a program: one of the system, or one in a file. A
name without a directory is only looked for in the system. -/
def exec (st : Streams) (line : Nat) (name : String) (args : List String) (m : Machine) : Machine :=
  let m := { m with jobs := [] }
  match m.runTool st (systemName name) args with
  | some m => m
  | none =>
    match systemName name, args with
    | "sh", "-c" :: script :: args => m.become (args.headD name) args.tail script.toList
    | _, _ =>
      if name.toList.contains '/' then m.execFile st.errors line name args
      else
        { m.complain st.errors line ("exec: " ++ name ++ ": not found") 127 with
          ending := some (.exited 127) }

def assignment? (s : String) : Option (String × String) :=
  let name := s.toList.takeWhile Reader.isNameChar
  match name, s.toList.drop name.length with
  | c :: cs, '=' :: value =>
    if Reader.isNameStart c then some (String.ofList (c :: cs), String.ofList value) else none
  | _, _ => none

def assign (name value : String) (m : Machine) : Machine :=
  { m with bindings := (name, value) :: m.bindings.filter (·.1 != name) }

def runSimple (line : Nat) (words : List Word) (redirections : List Redirection) (m : Machine) : Machine :=
  let st := redirections.foldl m.redirect {}
  let m := if redirections.any fun
      | .take _ => true
      | _ => false then { m with inputEnded := true } else m
  match words.flatMap m.expand with
  | [] => { m with status := 0 }
  | "exec" :: [] => m
  | "exec" :: name :: args => m.exec st line name args
  | name :: args =>
    match m.runNamed st line name args with
    | some m => m
    | none =>
      match assignment? name, args with
      | some (x, value), [] => { m.assign x value with status := 0 }
      | _, _ => m.complain st.errors line (name ++ ": not found") 127

/-- Sets variables to the fields of a line; the last one gets the rest. -/
def assignFields : List String → List String → Machine → Machine
  | [], _, m => m
  | [x], fs, m => m.assign x (String.intercalate " " fs)
  | x :: xs, fs, m => assignFields xs fs.tail (m.assign x (fs.headD ""))

/-! ### Steps -/

/-- One step; `none` if the machine has ended or has to wait. -/
def step (m : Machine) : Option Machine :=
  if m.ending.isSome then none
  else
    match m.jobs with
    | [] => some { m with ending := some (.exited m.status) }
    | job :: jobs =>
      let next := { m with jobs }
      match job with
      | .command .nothing => some next
      | .command (.simple line words rs) => some (next.runSimple line words rs)
      | .command (.sequence a b) => some { m with jobs := .command a :: .command b :: jobs }
      | .command (.both a b) => some { m with jobs := .command a :: .after true b :: jobs }
      | .command (.either a b) => some { m with jobs := .command a :: .after false b :: jobs }
      | .command (.negate c) => some { m with jobs := .command c :: .invert :: jobs }
      | .command (.loop well c b) => some { m with jobs := .command c :: .again well c b :: jobs }
      | .command (.branch c yes no) => some { m with jobs := .command c :: .choose yes no :: jobs }
      | .command (.each x words b) =>
        let values := (words.map fun ws => ws.flatMap m.expand).getD m.args
        some { m with jobs := .each x values b :: jobs, status := 0 }
      | .after well c =>
        if (m.status == 0) == well then some { m with jobs := .command c :: jobs } else some next
      | .invert => some { next with status := if m.status = 0 then 1 else 0 }
      | .again well c b =>
        if (m.status == 0) == well then
          some { m with jobs := .command b :: .command (.loop well c b) :: jobs }
        else some { next with status := 0 }
      | .choose yes no =>
        if m.status = 0 then some { m with jobs := .command yes :: jobs }
        else some { m with jobs := .command no :: jobs, status := 0 }
      | .each _ [] _ => some next
      | .each x (v :: vs) b => some { m.assign x v with jobs := .command b :: .each x vs b :: jobs }
      | .copy dest =>
        if !m.input.isEmpty then some { m.write dest m.input with input := [] }
        else if m.inputEnded then some next
        else none
      | .readLine names =>
        let line := m.input.takeWhile (· != 0x0A)
        match m.input.drop line.length with
        | _ :: rest =>
          some { assignFields names (fields (textOf line)) next with input := rest, status := 0 }
        | [] =>
          if m.inputEnded then
            some { assignFields names (fields (textOf line)) next with input := [], status := 1 }
          else none
      | .sleep => none

/-- Runs until the machine has to wait or so many steps are done. -/
def run (m : Machine) : Nat → Machine
  | 0 => m
  | fuel + 1 =>
    match m.step with
    | none => m
    | some m => run m fuel

/-- Time passes: a machine that sleeps goes on. -/
def wake? (m : Machine) : Option Machine :=
  match m.ending, m.jobs with
  | none, .sleep :: jobs => some { m with jobs }
  | _, _ => none

end Machine

end LanguageClient.Shell
