import LanguageClient.Duration
import LanguageClient.Json.Decode
import LanguageClient.Platform
import LanguageClient.Url
import LanguageClient.Uuid

/-! # Errors.

An error says what failed and, for most, carries the error behind it. The
chain of causes decides how an error is treated (`isA`), what is shown
(`message`) and what goes to the log (`trace`). -/

namespace LanguageClient

/-- Conditions that are named once and recognized wherever they occur in a
chain of causes. -/
inductive Condition where
  | supervisorUsed
  | stopRequested
  | notRunning
  | serverExited
  | alreadyAttached
  | noVersion
  | missingContentLength
  | connectionClosed
  | endOfStream
  | unexpectedEnd
  | cancelled
  | deadlineExceeded
  | notExist
  deriving DecidableEq, Repr

def Condition.message : Condition → String
  | .supervisorUsed => "supervisor already used; start a new session"
  | .stopRequested => "stop requested while starting"
  | .notRunning => "language server not running"
  | .serverExited => "language server exited unexpectedly"
  | .alreadyAttached => "session already has a language server attached"
  | .noVersion => "manifest has no version field"
  | .missingContentLength => "missing Content-Length header"
  | .connectionClosed => "jsonrpc connection closed"
  | .endOfStream => "EOF"
  | .unexpectedEnd => "unexpected EOF"
  | .cancelled => "context canceled"
  | .deadlineExceeded => "context deadline exceeded"
  | .notExist => "file does not exist"

/-- Why the system refuses an operation on a file. -/
inductive FileReason where
  | noEntry
  | notDirectory
  | isDirectory
  | alreadyExists
  | linkLoop
  | nameTooLong
  | invalidArgument
  | notEmpty
  | notPermitted
  | denied
  deriving DecidableEq, Repr

def FileReason.message : FileReason → String
  | .noEntry => "no such file or directory"
  | .notDirectory => "not a directory"
  | .isDirectory => "is a directory"
  | .alreadyExists => "file exists"
  | .linkLoop => "too many levels of symbolic links"
  | .nameTooLong => "file name too long"
  | .invalidArgument => "invalid argument"
  | .notEmpty => "directory not empty"
  | .notPermitted => "operation not permitted"
  | .denied => "permission denied"

/-- An error the server answers a request with. The data is `null` if there
is none. -/
structure RpcError where
  code : Int := 0
  message : String := ""
  data : Json.Value := .null

def RpcError.text (e : RpcError) : String :=
  let plain := "rpc error " ++ Number.intText e.code ++ ": " ++ e.message
  match e.data with
  | .null => plain
  | data => plain ++ " (data: " ++ data.display ++ ")"

/-- What went wrong, with its cause where there is one. -/
inductive Error where
  | condition (c : Condition)
  | plain (text : String)
  /-- A cause with text around it. -/
  | wrapped (before : String) (cause : Option Error) (after : String)
  | joined (errors : List Error)
  | unsupportedPlatform (p : Platform)
  | missingBinary (path : String) (cause : Option Error)
  /-- The status is zero if the failure lies before or behind the exchange. -/
  | download (url : String) (status : Int) (cause : Option Error)
  | spawn (path : String) (cause : Option Error)
  | protocolStart (cause : Option Error)
  | rpc (e : RpcError)
  | json (e : Json.DecodeError)
  | yaml
  | duration (e : Duration.ParseError)
  /-- A text that is no boolean. -/
  | notBoolean (text : String)
  | uuid (e : Uuid.ParseError)
  | urlPart (e : Url.ParseError)
  /-- An operation on a URL that failed. -/
  | url (operation : String) (text : Bytes) (cause : Option Error)
  | fileReason (r : FileReason)
  | file (operation path : String) (r : FileReason)
  | fileLink (operation old new : String) (r : FileReason)
  | exitStatus (text : String)

namespace Error

/-- A cause with a text and a colon in front of it. -/
def context (text : String) (cause : Error) : Error := .wrapped (text ++ ": ") (some cause) ""

def ofMalformedUrl (m : Url.Malformed) : Error := .url "parse" m.text (some (.urlPart m.cause))

/-! ### Causes -/

/-- The error directly behind another one. -/
def cause : Error → Option Error
  | .wrapped _ c _ => c
  | .missingBinary _ c => c
  | .download _ _ c => c
  | .spawn _ c => c
  | .protocolStart c => c
  | .url _ _ c => c
  | .file _ _ r => some (.fileReason r)
  | .fileLink _ _ _ r => some (.fileReason r)
  | .notBoolean _ => some (.plain "invalid syntax")
  | _ => none

/-! ### Messages -/

def orNil : Option String → String
  | some m => m
  | none => "<nil>"

mutual

/-- The message of an error, its causes included. -/
def message : Error → String
  | .condition c => c.message
  | .plain text => text
  | .wrapped before c after =>
    before ++ (match c with
      | some e => message e
      | none => "%!w(<nil>)") ++ after
  | .joined es => String.intercalate "\n" (messages es)
  | .unsupportedPlatform p =>
    if Platform.isSupportedSystem p.os then "Unsupported platform: " ++ p.os ++ " " ++ p.arch
    else "Unsupported platform: " ++ p.os
  | .missingBinary path c =>
    "language server binary not found at " ++ path ++
      (match c with
        | some e => ": " ++ message e
        | none => "")
  | .download address status c =>
    if status ≠ 0 ∧ status ≠ 200 then
      "download failed with status " ++ Number.intText status ++ ": " ++ address
    else
      "download failed: " ++ address ++
        (match c with
          | some e => ": " ++ message e
          | none => "")
  | .spawn path c =>
    "failed to start " ++ path ++ ": " ++ (match c with
      | some e => message e
      | none => "<nil>")
  | .protocolStart c =>
    "language server protocol failed to start: " ++ (match c with
      | some e => message e
      | none => "<nil>")
  | .rpc e => e.text
  | .json e => e.message
  | .yaml => "yaml: malformed document"
  | .duration e => e.message
  | .notBoolean text => "strconv.ParseBool: parsing " ++ Text.quote text ++ ": invalid syntax"
  | .uuid e => e.message
  | .urlPart e => e.message
  | .url operation text c =>
    operation ++ " " ++ Text.quoteSymbols (Utf8.symbols text) ++ ": " ++ (match c with
      | some e => message e
      | none => "<nil>")
  | .fileReason r => r.message
  | .file operation path r => operation ++ " " ++ path ++ ": " ++ r.message
  | .fileLink operation old new r =>
    operation ++ " " ++ old ++ " " ++ new ++ ": " ++ r.message
  | .exitStatus text => text

def messages : List Error → List String
  | [] => []
  | e :: es => message e :: messages es

end

/-! ### Conditions in a chain -/

mutual

/-- Whether a condition occurs in an error or behind it. -/
def isA (target : Condition) : Error → Bool
  | .condition c => c = target
  | .wrapped _ c _ | .missingBinary _ c | .download _ _ c | .spawn _ c | .protocolStart c
  | .url _ _ c =>
    match c with
    | some e => isA target e
    | none => false
  | .joined es => anyIsA target es
  | .fileReason r | .file _ _ r | .fileLink _ _ _ r => target = .notExist && r = .noEntry
  | _ => false

def anyIsA (target : Condition) : List Error → Bool
  | [] => false
  | e :: es => isA target e || anyIsA target es

end

/-- The errors a user is told about by name. -/
inductive Class where
  | unsupportedPlatform
  | missingBinary
  | download
  | spawn
  | protocolStart
  deriving DecidableEq, Repr

/-- The class an error itself belongs to. -/
def class? : Error → Option Class
  | .unsupportedPlatform _ => some .unsupportedPlatform
  | .missingBinary _ _ => some .missingBinary
  | .download _ _ _ => some .download
  | .spawn _ _ => some .spawn
  | .protocolStart _ => some .protocolStart
  | _ => none

mutual

/-- Whether an error or one behind it belongs to a class. -/
def hasClass (target : Class) : Error → Bool
  | .joined es => anyHasClass target es
  | .unsupportedPlatform _ => target = .unsupportedPlatform
  | .missingBinary _ c => target = .missingBinary || (match c with
      | some e => hasClass target e
      | none => false)
  | .download _ _ c => target = .download || (match c with
      | some e => hasClass target e
      | none => false)
  | .spawn _ c => target = .spawn || (match c with
      | some e => hasClass target e
      | none => false)
  | .protocolStart c => target = .protocolStart || (match c with
      | some e => hasClass target e
      | none => false)
  | .wrapped _ c _ | .url _ _ c =>
    match c with
    | some e => hasClass target e
    | none => false
  | _ => false

def anyHasClass (target : Class) : List Error → Bool
  | [] => false
  | e :: es => hasClass target e || anyHasClass target es

end

/-! ### The chain -/

/-- An error followed by the causes behind it. -/
def chain : Error → List Error
  | .wrapped before c after => .wrapped before c after :: (match c with
      | some e => chain e
      | none => [])
  | .missingBinary path c => .missingBinary path c :: (match c with
      | some e => chain e
      | none => [])
  | .download address status c => .download address status c :: (match c with
      | some e => chain e
      | none => [])
  | .spawn path c => .spawn path c :: (match c with
      | some e => chain e
      | none => [])
  | .protocolStart c => .protocolStart c :: (match c with
      | some e => chain e
      | none => [])
  | .url operation text c => .url operation text c :: (match c with
      | some e => chain e
      | none => [])
  | .file operation path r => [.file operation path r, .fileReason r]
  | .fileLink operation old new r => [.fileLink operation old new r, .fileReason r]
  | .notBoolean text => [.notBoolean text, .plain "invalid syntax"]
  | e => [e]

def label : Error → String
  | .condition .deadlineExceeded => "context.deadlineExceededError"
  | .condition _ | .plain _ | .duration _ => "*errors.errorString"
  | .wrapped _ _ _ => "*fmt.wrapError"
  | .joined _ => "*errors.joinError"
  | .unsupportedPlatform _ => "*domain.UnsupportedPlatformError"
  | .missingBinary _ _ => "*domain.MissingBinaryError"
  | .download _ _ _ => "*domain.DownloadError"
  | .spawn _ _ => "*domain.SpawnError"
  | .protocolStart _ => "*domain.ProtocolStartError"
  | .rpc _ => "*jsonrpc.ErrorInfo"
  | .json .malformed => "*json.SyntaxError"
  | .json .mismatch => "*json.UnmarshalTypeError"
  | .yaml => "*yaml.TypeError"
  | .notBoolean _ => "*strconv.NumError"
  | .uuid (.badLength _) => "uuid.invalidLengthError"
  | .uuid _ => "*errors.errorString"
  | .urlPart (.badEscape _) => "url.EscapeError"
  | .urlPart (.badHostCharacter _) => "url.InvalidHostError"
  | .urlPart _ => "*errors.errorString"
  | .url _ _ _ => "*url.Error"
  | .fileReason _ => "syscall.Errno"
  | .file _ _ _ => "*fs.PathError"
  | .fileLink _ _ _ _ => "*os.LinkError"
  | .exitStatus _ => "*exec.ExitError"

/-- An error and the causes behind it, one per line, outermost first. -/
def trace (e : Error) : String :=
  String.intercalate "\n  caused by " (e.chain.map fun e => e.label ++ ": " ++ e.message)

end Error

end LanguageClient
