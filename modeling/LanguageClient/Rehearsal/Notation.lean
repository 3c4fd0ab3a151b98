import LanguageClient.Document
import LanguageClient.Json.Fragment
import LanguageClient.Json.Tree
import LanguageClient.Provision.Basic
import LanguageClient.Rehearsal.Performance

/-! # Rehearsals in writing.

The parts of a rehearsal are written in JSON: files, documents, what downloads
lead to, what a supervisor is made with, and what the server does. A reader
gives `none` where a part is not what it should be. -/

namespace LanguageClient.Rehearsal

open Json (Fragment Tree)

/-! ### Files -/

def octal? (s : String) : Option Nat :=
  if s.toList.all fun c => '0' ≤ c && c ≤ '7' then
    some (s.toList.foldl (fun n c => n * 8 + (c.toNat - '0'.toNat)) 0)
  else none

/-- The file system with one more entry: a directory, a link or a file. -/
def placeFile (v : Fragment) (fs : FileSystem) : Option FileSystem := do
  let path ← v.str "path"
  if ← v.bool "dir" then return fs.place path .directory
  match ← v.text? "symlink" with
  | some target => return fs.place path (.link target)
  | none => return fs.place path (.file (← v.octets "content") (← octal? (← v.strOr "mode" "644")))

/-- The file system at the start: a working directory and the files listed. -/
def readFiles (workingDirectory : String) (v : Fragment) : Option FileSystem := do
  let fs : FileSystem :=
    { entries := [([workingDirectory], .directory)], workingDirectory := [workingDirectory] }
  (← v.list "files").foldlM (fun fs f => placeFile f fs) fs

def placeBinary (condition path : String) (fs : FileSystem) : Option FileSystem :=
  let file (mode : Nat) : Option FileSystem := some (fs.place path (.file [] mode))
  match condition with
  | "" | "ok" => file 0o755
  | "missing" => some fs
  | "dir" => some (fs.place path .directory)
  | "noexec" => file 0o644
  | "someexec" => file 0o645
  | "blocked" => some (fs.place (FileSystem.parentPath path) (.file [] 0o644))
  | _ => none

/-! ### Documents -/

def readDocument (v : Fragment) : Option Document := do
  return {
    uri := ← v.str "uri", languageId := ← v.str "language_id", version := ← v.int "version"
    text := ← v.octets "text" }

def documentTree (d : Document) : Tree :=
  .obj [("uri", d.uri), ("language_id", d.languageId), ("version", d.version), ("text", .octets d.text)]

/-! ### Senders -/

/-- What was sent: methods and parameters. -/
abbrev Sent := List (String × Bytes)

/-- A sender that notes what it sends, and fails for some methods, or for all
under `*`. -/
def recorder (failures : List (String × Error)) : Sender Sent := fun method params sent =>
  match (failures.lookup method).or (failures.lookup "*") with
  | some e => (sent, some e)
  | none => (sent ++ [(method, params)], none)

/-! ### Downloads -/

def readExchange (v : Fragment) : Option Provision.Exchange := do
  let create (fs : FileSystem) : Option FileSystem := v.memberOr fs (placeFile · fs) "create"
  let _ ← create {}
  let removed ← v.str "remove"
  let meanwhile (fs : FileSystem) : FileSystem :=
    let fs := if removed = "" then fs else fs.removeAll removed
    (create fs).getD fs
  match ← v.text? "error" with
  | some e => return { meanwhile, outcome := .refused (.plain e) }
  | none =>
    let status ← v.int "status"
    let failure := (← v.text? "read_error").map Error.plain
    return {
      meanwhile
      outcome := .response (if status = 0 then 200 else status) (← v.octets "body") failure }

def readExchanges (v : Fragment) : Option (List Provision.Exchange) := do
  (← v.list "http").mapM readExchange

/-! ### Settings -/

def readVariables (v : Fragment) (name : String) : Option Environment := do
  (← v.obj name).mapM fun (k, x) => do return (k, ← x.str?)

/-- Variables on top of others; null takes one away. -/
def readChanges (v : Fragment) (name : String) (env : Environment) : Option Environment := do
  (← v.obj name).foldlM
    (fun env (k, x) => do
      let env := env.filter fun (l, _) => l ≠ k
      if x.isNull then return env else return env ++ [(k, ← x.str?)]) env

def readSetting (v : Fragment) : Option Config.Setting := do
  if let some x := v.sub? "string" then return .text (← x.str?)
  if let some x := v.sub? "int" then return .number (← x.int?)
  if let some x := v.sub? "bool" then return .boolean (← x.bool?)
  if let some x := v.sub? "duration" then return .duration (← (Duration.parse (← x.str?)).toOption)
  if let some _ := v.sub? "list" then return .texts (← v.strs "list")
  return .nothing

/-! ### Cues -/

def readCue (v : Fragment) : Option Cue := do
  let action ← match v.sub? "save" with
    | some f => do
      let _ ← placeFile f {}
      pure (CueAction.save (← f.str "path") fun fs => (placeFile f fs).getD fs)
    | none => pure .interrupt
  return { seen := ← v.str "seen", delay := ← v.int "delay_ms", action }

/-! ### Supervisors -/

def readMode (v : Fragment) : Option LaunchMode := do
  return if (← v.str "mode") = "debug" then .debug else .run

/-- The parameters of a notification, which may be ones that have no JSON form. -/
def readParams (v : Fragment) : Option Rpc.Params := do
  if ← v.bool "bad_params" then return .unencodable "json: unsupported type: chan int"
  return .ofTokens ((v.lookup "params").map (·.tokens))

def readProgram (v : Fragment) : Option Supervisor.ProgramInfo := do
  return { name := ← v.str "name", version := ← v.str "version" }

def readSettings (v : Fragment) (binary : Binary) (fs : FileSystem) : Option Supervisor.Settings := do
  let usual : Supervisor.Settings := { binary }
  let limit (name : String) (d : Duration) : Option Duration := do
    return Supervisor.orDefault (.ofMillis (← v.int name)) d
  return {
    binary
    client := ← v.memberOr {} readProgram "client"
    rootUri := ← v.str "root_uri"
    startTimeout := ← limit "start_timeout_ms" usual.startTimeout
    stopTimeout := ← limit "stop_timeout_ms" usual.stopTimeout
    processId := 0, pid := 4242, files := fs
    spawnError := (← v.text? "spawn_error").map .plain
    killError := (← v.text? "kill_error").map .plain }

/-! ### Servers -/

/-- How the server takes a request. -/
def readResponse (v : Fragment) (how reply : String) (usual : Bytes) (code : Int) : Option Response := do
  match ← v.str how with
  | "ignore" => return .ignore
  | "exit" => return .exit code
  | "hangup" => return .hangup
  | _ => return .reply (← v.memberOr usual Fragment.octets? reply)

def readScript (v : Fragment) : Option Script := do
  let code ← v.int "exit_code"
  let crash ← v.int "crash_code"
  let method (name : String) : Option (Option String) := do return (← v.text? name).filter (· ≠ "")
  return {
    early := ← (← v.list "before_init").mapM Fragment.octets?
    interruption := match ← v.str "during_init" with
      | "stop" => some .stop
      | "cancel" => some .cancel
      | _ => none
    greeting := ← readResponse v "init" "init_reply" usualGreeting (← v.int "init_exit")
    farewell := ← readResponse v "shutdown" "shutdown_reply" usualFarewell code
    exit := if (← v.str "exit") = "ignore" then none else some code
    deafAfter := ← method "fail_writes_after"
    messages := ← (← v.obj "on").mapM fun (k, l) => do
      return (k, ← (← l.list?).mapM Fragment.octets?)
    crash := (← method "crash_on").map (·, crash) }

def readServer (v : Fragment) : Option Script := v.memberOr {} readScript "server"

def readDeed (v : Fragment) : Option (Scene → Scene) := do
  match ← v.str "do" with
  | "send" =>
    match v.sub? "raw" with
    | some r =>
      let message ← r.octets?
      return fun sc => (sc.perform (.send message)).settle
    | none =>
      let bytes ← v.octets "data"
      return fun sc => (sc.serverSends bytes).settle
  | "stderr" =>
    let bytes ← v.octets "data"
    return fun sc => (sc.errorOutput bytes).settle
  | "hangup" => return fun sc => (sc.perform .hangup).settle
  | "broken" => return fun sc => (sc.perform .deafen).settle
  | "crash" =>
    let code ← v.int "code"
    return fun sc => (sc.perform (.exit code)).settle
  | "state" => return id
  | _ => none

end LanguageClient.Rehearsal
