import LanguageClient.Error
import LanguageClient.Json.Writer

/-! # JSON-RPC messages.

A received message is classified by its members: an error wins over
everything, then a method makes it a request or a notification, and an id
alone a response. Ids, parameters and results are kept as they were written.
Outgoing messages are written member by member. -/

namespace LanguageClient.Rpc

/-- The only protocol version spoken. -/
def version : String := "2.0"

inductive MessageKind where
  | request
  | response
  | notification
  | error
  deriving DecidableEq, Repr

def MessageKind.name : MessageKind → String
  | .request => "request"
  | .response => "response"
  | .notification => "notification"
  | .error => "error"

/-- A received message. -/
structure Message where
  kind : MessageKind
  method : String
  id : Option Bytes
  params : Option Bytes
  result : Option Bytes
  error : Option RpcError
  raw : Bytes

/-! ### Reading -/

structure Members where
  version : String := ""
  method : String := ""
  id : Option Bytes := none
  params : Option Bytes := none
  result : Option Bytes := none
  error : Option RpcError := none

open Json (Decoder) in
def errorDecoder : Decoder RpcError :=
  Decoder.record [
    ⟨"code", fun e ts => (Decoder.integer e.code ts).map ({ e with code := · })⟩,
    ⟨"message", fun e ts => (Decoder.text e.message ts).map ({ e with message := · })⟩,
    ⟨"data", fun e ts => (Decoder.any e.data ts).map ({ e with data := · })⟩]

open Json (Decoder) in
def memberReaders : List (Decoder.FieldReader Members) := [
  ⟨"jsonrpc", fun m ts => (Decoder.text m.version ts).map ({ m with version := · })⟩,
  ⟨"method", fun m ts => (Decoder.text m.method ts).map ({ m with method := · })⟩,
  ⟨"id", fun m ts => (Decoder.raw m.id ts).map ({ m with id := · })⟩,
  ⟨"params", fun m ts => (Decoder.raw m.params ts).map ({ m with params := · })⟩,
  ⟨"result", fun m ts => (Decoder.raw m.result ts).map ({ m with result := · })⟩,
  ⟨"error", fun m ts => (Decoder.optional {} errorDecoder m.error ts).map ({ m with error := · })⟩]

def membersDecoder : Json.Decoder Members := Json.Decoder.record memberReaders

/-- Why a body is no message. -/
inductive ParseError where
  | json (e : Json.DecodeError)
  | version (text : String)
  | unclassified
  deriving DecidableEq, Repr

def ParseError.toError : ParseError → Error
  | .json e => .context "invalid JSON-RPC message" (.json e)
  | .version text => .plain ("unsupported JSON-RPC version: " ++ Text.quote text)
  | .unclassified => .plain "cannot determine JSON-RPC message type"

/-- The id of a message; `null` counts as none. -/
def presentId (id : Option Bytes) : Option Bytes := id.filter (· != Json.null)

def classify (m : Members) : Option MessageKind :=
  if m.error.isSome then some .error
  else if m.method ≠ "" then
    if (presentId m.id).isSome then some .request else some .notification
  else if (presentId m.id).isSome then some .response
  else none

def parse (raw : Bytes) : Except ParseError Message :=
  match membersDecoder.run {} raw with
  | .error e => .error (.json e)
  | .ok m =>
    if m.version ≠ version then .error (.version m.version)
    else
      match classify m with
      | none => .error .unclassified
      | some kind =>
        .ok {
          kind, raw
          method := m.method
          id := presentId m.id
          params := m.params
          result := m.result
          error := m.error }

namespace Message

/-- The id as an integer, which every id this client issues is. -/
def intId (m : Message) : Option Int := m.id.bind fun id => Number.int64? (Utf8.decode id)

def isRequest (m : Message) : Bool := m.kind = .request

/-- Whether the message answers a request, with a result or an error. -/
def isResponse (m : Message) : Bool := m.kind = .response || m.kind = .error

def isNotification (m : Message) : Bool := m.kind = .notification

def text (m : Message) : String :=
  m.kind.name ++ " " ++ (if m.method ≠ "" then m.method else textOf (m.id.getD []))

end Message

/-! ### Writing -/

/-- The code of the error for a method nobody handles. -/
def methodNotFound : Int := -32601

def errorBytes (e : RpcError) : Bytes :=
  Json.object [("code", Json.integer e.code), ("message", Json.quote e.message)]

/-- A message to be written. -/
structure Outgoing where
  id : Option Bytes := none
  method : String := ""
  params : Option Bytes := none
  error : Option RpcError := none

namespace Outgoing

def request (id : Nat) (method : String) (params : Option Bytes) : Outgoing :=
  { id := some (Json.integer id), method, params }

def notification (method : String) (params : Option Bytes) : Outgoing := { method, params }

/-- The id of a request as it is sent back. -/
def echo (id : Bytes) : Bytes :=
  match Json.tokens? id with
  | some ts => Json.compact ts
  | none => id

/-- The answer to a request of the server. -/
def refusal (id : Bytes) (method : String) : Outgoing :=
  { id := some (echo id)
    error := some { code := methodNotFound, message := "method not found: " ++ method } }

def bytes (m : Outgoing) : Bytes :=
  Json.object <|
    [("jsonrpc", Json.quote version)] ++
    Json.optionalMember "id" m.id ++
    (if m.method = "" then [] else [("method", Json.quote m.method)]) ++
    Json.optionalMember "params" m.params ++
    Json.optionalMember "error" (m.error.map errorBytes)

end Outgoing

end LanguageClient.Rpc
