import LanguageClient.Json.Writer
import LanguageClient.Lifecycle
import LanguageClient.Report
import LanguageClient.Rpc.Connection

/-! # What client and server tell each other about themselves.

The parameters of the first request, what of its answer is kept, and what the
client does with the notifications of a server: messages go to the log, and
those meant for the user are shown as well. -/

namespace LanguageClient.Supervisor

structure ProgramInfo where
  name : String := ""
  version : String := ""
  deriving DecidableEq, Repr

/-- A program as a member of a message; an empty version is left out. -/
def ProgramInfo.bytes (p : ProgramInfo) : Bytes :=
  Json.object ([("name", Json.quote p.name)] ++
    Json.optionalMember "version" (if p.version = "" then none else some (Json.quote p.version)))

def greetingParams (processId : Int) (client : ProgramInfo) (rootUri : String) (mode : LaunchMode) :
    Bytes :=
  Json.object
    [("processId", Json.integer processId), ("clientInfo", client.bytes),
      ("rootUri", if rootUri = "" then Json.null else Json.quote rootUri),
      ("capabilities", Json.object
        [("textDocument", Json.object
            [("synchronization", Json.object [("didSave", Json.boolean true)])]),
          ("window", Json.object [("showMessage", Json.object [])])]),
      ("trace", Json.quote (match mode with
        | .run => "off"
        | .debug => "verbose"))]

/-- What of the answer to the first request is read. -/
structure Greeting where
  capabilities : Option Bytes := none
  serverInfo : Option ProgramInfo := none

open Json in
def ProgramInfo.decoder : Decoder ProgramInfo :=
  Decoder.record
    [⟨"name", fun p ts => (Decoder.text p.name ts).map fun v => { p with name := v }⟩,
      ⟨"version", fun p ts => (Decoder.text p.version ts).map fun v => { p with version := v }⟩]

open Json in
def Greeting.decoder : Decoder Greeting :=
  Decoder.record
    [⟨"capabilities", fun r ts =>
        (Decoder.raw r.capabilities ts).map fun v => { r with capabilities := v }⟩,
      ⟨"serverInfo", fun r ts =>
        (Decoder.optional {} ProgramInfo.decoder r.serverInfo ts).map fun v =>
          { r with serverInfo := v }⟩]

/-! ### Notifications of the server -/

/-- A message of the server, for the log or for the user. -/
structure ServerMessage where
  type : Int := 0
  message : String := ""

open Json in
def ServerMessage.decoder : Decoder ServerMessage :=
  Decoder.record
    [⟨"type", fun m ts => (Decoder.integer m.type ts).map fun v => { m with type := v }⟩,
      ⟨"message", fun m ts => (Decoder.text m.message ts).map fun v => { m with message := v }⟩]

def messageWord (type : Int) : String :=
  if type = 1 then "error"
  else if type = 2 then "warn"
  else if type = 3 then "info"
  else if type = 4 then "log"
  else "message"

def ServerMessage.line (m : ServerMessage) : Report :=
  .line ("[" ++ messageWord m.type ++ "] " ++ m.message)

/-- A diagnostic, with the place where it starts counted from zero. -/
structure Diagnostic where
  line : Int := 0
  character : Int := 0
  severity : Int := 0
  message : String := ""

structure Diagnostics where
  uri : String := ""
  found : List Diagnostic := []

open Json in
def Diagnostic.positionDecoder : Decoder Diagnostic :=
  Decoder.record
    [⟨"line", fun d ts => (Decoder.integer d.line ts).map fun v => { d with line := v }⟩,
      ⟨"character", fun d ts =>
        (Decoder.integer d.character ts).map fun v => { d with character := v }⟩]

open Json in
def Diagnostic.decoder : Decoder Diagnostic :=
  Decoder.record
    [⟨"range", Decoder.record [⟨"start", Diagnostic.positionDecoder⟩]⟩,
      ⟨"severity", fun d ts => (Decoder.integer d.severity ts).map fun v => { d with severity := v }⟩,
      ⟨"message", fun d ts => (Decoder.text d.message ts).map fun v => { d with message := v }⟩]

open Json in
def Diagnostics.decoder : Decoder Diagnostics :=
  Decoder.record
    [⟨"uri", fun d ts => (Decoder.text d.uri ts).map fun v => { d with uri := v }⟩,
      ⟨"diagnostics", fun d ts =>
        (Decoder.list {} Diagnostic.decoder d.found ts).map fun v => { d with found := v }⟩]

/-- The word for a severity; a server may leave it out. -/
def severityWord (severity : Int) : String :=
  if severity = 2 then "warning"
  else if severity = 3 then "info"
  else if severity = 4 then "hint"
  else "error"

/-- The number after another one, in 64 bits. -/
def successor (n : Int) : Int := (n + 1).bmod (Nat.pow 2 64)

/-- The log lines of diagnostics, places counted from one. -/
def Diagnostics.reports (d : Diagnostics) : List Report :=
  .line ("Diagnostics for " ++ d.uri ++ ": " ++ Number.intText d.found.length) ::
    d.found.map fun x =>
      .line ("  " ++ Number.intText (successor x.line) ++ ":" ++ Number.intText (successor x.character) ++
        " [" ++ severityWord x.severity ++ "] " ++ x.message)

/-- The methods with a handler of their own. -/
def handledMethods : List String :=
  ["window/logMessage", "window/showMessage", "textDocument/publishDiagnostics", "*"]

/-- What a notification of the server leads to. One whose parameters cannot be
read leads to nothing. -/
def reportsOf (label method : String) (params : Option Bytes) : List Report :=
  let bytes := params.getD []
  if label = "window/logMessage" then
    match Json.Decoder.run ServerMessage.decoder {} bytes with
    | .ok m => [m.line]
    | .error _ => []
  else if label = "window/showMessage" then
    match Json.Decoder.run ServerMessage.decoder {} bytes with
    | .ok m => [m.line, if m.type = 1 then .error m.message else .info m.message]
    | .error _ => []
  else if label = "textDocument/publishDiagnostics" then
    match Json.Decoder.run Diagnostics.decoder {} bytes with
    | .ok d => d.reports
    | .error _ => []
  else [.line ("Ignoring server notification " ++ method)]

/-! ### Error output of the server -/

/-- The longest line of error output that is still read, with its end. -/
def maxErrorLine : Nat := 1048576

def withoutReturn (line : Bytes) : Bytes :=
  if line.getLast? == some 0x0D then line.dropLast else line

/-- How a line of error output is logged. -/
def errorLine (line : Bytes) : Report := .octets (utf8 "[server] " ++ withoutReturn line)

/-- What arrived on the server's error output and was not logged yet. -/
structure ErrorOutput where
  pending : Bytes := []
  /-- Whether it is read no longer: it has ended, or a line was too long. -/
  closed : Bool := false

/-- Logs the complete lines, at most `fuel` of them. -/
def ErrorOutput.complete : Nat → ErrorOutput → ErrorOutput × List Report
  | 0, o => (o, [])
  | fuel + 1, o =>
    let line := o.pending.takeWhile (· != 0x0A)
    if maxErrorLine ≤ line.length then ({ pending := [], closed := true }, [])
    else
      match o.pending.drop line.length with
      | [] => (o, [])
      | _ :: rest =>
        let (o, reports) := complete fuel { o with pending := rest }
        (o, errorLine line :: reports)

def ErrorOutput.receive (bs : Bytes) (o : ErrorOutput) : ErrorOutput × List Report :=
  if o.closed then (o, [])
  else complete (o.pending.length + bs.length + 1) { o with pending := o.pending ++ bs }

/-- The error output ends; what is left counts as a line. -/
def ErrorOutput.finish (o : ErrorOutput) : ErrorOutput × List Report :=
  ({ pending := [], closed := true },
    if o.closed || o.pending.isEmpty then [] else [errorLine o.pending])

end LanguageClient.Supervisor
