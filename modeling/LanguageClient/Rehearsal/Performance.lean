import LanguageClient.CommandLine.Execute
import LanguageClient.Config.Yaml
import LanguageClient.Rehearsal.Scene
import LanguageClient.Terminal.Notifier
import LanguageClient.Text.Replace

/-! # Performances.

A performance is a whole run of the program: its files, its log, what it
prints, the downloads it makes, and the server, which follows a script. Cues
say what happens from outside, and when: each waits until a text has appeared
on the console. -/

namespace LanguageClient.Rehearsal

open Supervisor

inductive CueAction where
  /-- A file is replaced. -/
  | save (path : String) (place : FileSystem → FileSystem)
  /-- The run is interrupted. -/
  | interrupt

/-- Something that happens from outside. -/
structure Cue where
  /-- The text that has to be seen first. -/
  seen : String := ""
  /-- How long it takes from then on, in milliseconds. -/
  delay : Int := 0
  action : CueAction

/-- What a request leads to when nothing is said about it. -/
def unscripted : Provision.Exchange := { outcome := .refused (.plain "no response scripted") }

structure Performance where
  files : FileSystem := {}
  printed : String := ""
  console : String := ""
  channel : Option Log.Channel := none
  /-- The log file, if there is one. -/
  logPath : String := ""
  /-- Whether the console is not shown. -/
  quiet : Bool := false
  /-- What downloads lead to, one after the other. -/
  exchanges : List Provision.Exchange := []
  requests : List Provision.Request := []
  /-- The executable of the scripted server. -/
  server : String := ""
  script : Script := {}
  /-- Why no server can be started, if that is so. -/
  spawnError : Option Error := none
  scene : Option Scene := none
  cues : List Cue := []
  /-- How long a run that is to run once waits, in milliseconds. -/
  settleTime : Int := 1000
  interrupted : Bool := false
  /-- Whether calls go on although the run is interrupted. -/
  shielded : Bool := false
  /-- Files that were replaced, and nobody has looked at yet. -/
  edits : List String := []
  /-- Why the server has failed. -/
  failure : Option Error := none
  session : SessionId
  now : Log.Time := ⟨0⟩

namespace Performance

/-! ### What is written -/

/-- Appends to the log file, which is made if there is none. -/
def appendLog (text : String) (p : Performance) : Performance :=
  match p.files.makeDirectory (Path.dir p.logPath) with
  | (fs, some _) => { p with files := fs }
  | (fs, none) =>
    match fs.openOrCreate p.logPath 0o600 with
    | .ok fs => { p with files := fs.append p.logPath (utf8 text) }
    | .error _ => { p with files := fs }

/-- Writes to the console, unless it is not shown. -/
def writeConsole (text : String) (p : Performance) : Performance :=
  { p with console := p.console ++ text }

/-- What the channel writes. -/
def emit (out : List Log.Output) (p : Performance) : Performance :=
  out.foldl
    (fun p o =>
      match o with
      | .console text => if p.quiet then p else p.writeConsole text
      | .file text => p.appendLog text) p

def log (text : String) (p : Performance) : Performance :=
  match p.channel with
  | none => p
  | some c =>
    let (c, out) := c.appendLine p.now text
    { p with channel := some c }.emit out

/-- Says something: a line goes to the channel, a message to the console. -/
def say (r : Report) (p : Performance) : Performance :=
  match r with
  | .line text => p.log text
  | .octets line => p.log (textOf line)
  | .info text => p.writeConsole ((Terminal.Notification.info text).written .plain)
  | .error text => p.writeConsole ((Terminal.Notification.error text).written .plain)

def debug (text : String) (p : Performance) : Performance :=
  match p.channel with
  | none => p
  | some c => p.emit (c.debugLine p.now text)

/-- A log file that is begun anew when it would get longer than so many megabytes, or 100 if
none are given. It refuses what is longer than that by itself. -/
def rotated (megabytes : Int) : Log.LogFile where
  takes text := text.utf8ByteSize ≤ (if megabytes = 0 then 100 else megabytes) * 1048576

def openChannel (c : Client) (quiet : Bool) (p : Performance) : Performance :=
  { p with
    channel := some (c.channel (rotated c.config.log.maxSizeMb)), logPath := c.config.log.file, quiet }

/-! ### Downloads -/

def provision (c : Client) (b : Binary) (p : Performance) : Performance × Except Error Binary :=
  let exchange := p.exchanges.headD unscripted
  let around : Provision.Surroundings := { cancelled := p.interrupted, exchange, suffix := "N" }
  let (shared, b, failure, effects) := Provision.ensure c.provisioner b around { files := p.files }
  let p := { p with files := shared.files }
  let p := effects.foldl
    (fun p e =>
      match e with
      | .report r => p.say r
      | .requested r => { p with requests := p.requests ++ [r], exchanges := p.exchanges.tail }) p
  (p, match failure with
    | some e => .error e
    | none => .ok b)

/-! ### The server -/

/-- What was seen in the scene is said and noted. -/
def absorb (seen : List Sight) (p : Performance) : Performance :=
  (effects seen).foldl
    (fun p e =>
      match e with
      | .report r => p.say r
      | .observed _ .running .failed e => { p with failure := p.failure.or e }
      | _ => p) p

def withScene (sc : Scene) (p : Performance) : Performance :=
  match p.scene with
  | none => { p with scene := some sc }
  | some before => { p with scene := some sc }.absorb (sc.seenSince before)

/-- The text that has to be seen for a cue has appeared. -/
def isDue (c : Cue) (p : Performance) : Bool :=
  Text.occurs c.seen.toList p.console.toList

/-- The next cue is carried out, if it is due. -/
def cue? (p : Performance) : Option Performance :=
  match p.cues with
  | [] => none
  | c :: cues =>
    if p.isDue c then
      let p := { p with cues }
      some (match c.action with
        | .save path place => { p with files := place p.files, edits := p.edits ++ [path] }
        | .interrupt =>
          let p := { p with interrupted := true }
          match p.shielded, p.scene with
          | false, some sc => p.withScene sc.cancelAll
          | _, _ => p)
    else none

/-- Plays the scene until a thread has returned, or, without a thread, until
nothing can move. Cues and time come when nothing else can move. -/
def play (thread : Option Nat) : Nat → Performance → Performance
  | 0, p => p
  | fuel + 1, p =>
    match p.scene with
    | none => p
    | some sc =>
      match sc.moveNow? with
      | some sc => play thread fuel (p.withScene sc)
      | none =>
        match thread with
        | none => p
        | some i =>
          if (sc.result? i).isSome then p
          else
            match p.cue? with
            | some p => play thread fuel p
            | none =>
              match sc.passTime? with
              | some sc => play thread fuel (p.withScene sc)
              | none => p

/-- Runs a thread of the supervisor. -/
def call (t : Thread) (p : Performance) : Performance × Option Error :=
  match p.scene with
  | none => (p, none)
  | some sc =>
    let i := sc.threads.length
    let p := play (some i) Scene.enough { p with scene := some (sc.fork t) }
    (p, (p.scene.bind (·.result? i)).join)

/-- The script for a binary: one that is not the scripted server ends at once. -/
def scriptFor (path : String) (p : Performance) : Script :=
  if p.server ≠ "" && Path.clean path = Path.clean p.server then p.script
  else { greeting := .exit 0 }

def servers (c : Client) : Servers Performance Unit where
  supervise b p :=
    ({ p with scene := some {
        settings := { c.settings p.files b with spawnError := p.spawnError }
        script := p.scriptFor b.path, state := { observers := 1 } } }, ())
  start _ mode p := p.call { task := .start mode .enter, cancelled := p.interrupted }
  stop _ p := (p.call { task := .stop .acquire }).1
  notify _ method params p :=
    p.call { task := .notify method (.json params) .check, cancelled := p.interrupted && !p.shielded }
  state _ p := (p.scene.map (·.state.lifecycle)).getD .stopped

/-! ### Waiting -/

def wait (once : Bool) : Nat → Performance → Performance × Run.Happening
  | 0, p => (p, .interrupted)
  | fuel + 1, p =>
    let p := p.play none Scene.enough
    match p.failure, p.interrupted, p.edits with
    | some e, _, _ => (p, .failed e)
    | none, true, _ => (p, .interrupted)
    | none, false, path :: edits => ({ p with edits }, .edited path)
    | none, false, [] =>
      if once && (p.cues.head?.map fun c => decide (p.settleTime ≤ c.delay)).getD true then (p, .settled)
      else
        match p.cue? with
        | some p => wait once fuel p
        | none => (p, if once then .settled else .interrupted)

def next (once : Bool) (p : Performance) : Performance × Run.Happening :=
  wait once (p.cues.length + 1) p

def world : CommandLine.World Performance Unit where
  print text p := { p with printed := p.printed ++ text }
  files := Performance.files
  decode := Config.FileContent.ofYaml?
  openChannel := openChannel
  say := say
  debug := debug
  provision := provision
  servers := servers
  interrupted := Performance.interrupted
  shield p := { p with shielded := true }
  next := next
  late p := (p, none)
  sessionId := Performance.session

/-- What the server got: its arguments and every message, if it was started. -/
def serverLog (p : Performance) : List Bytes :=
  match p.scene with
  | none => []
  | some sc =>
    let seen := sc.seen.reverse
    let launched := (effects seen).filterMap fun
      | .spawned l => some (utf8 ("args: " ++ String.intercalate " " l.args))
      | _ => none
    launched ++ received seen

end Performance

end LanguageClient.Rehearsal
