import LanguageClient.Supervisor.Protocol

/-! # Scripts.

A script says how a server behaves, so that a supervisor can be rehearsed
against it: which messages it sends and when, which requests it answers, and
at which message it ends. -/

namespace LanguageClient.Rehearsal

/-- How a server takes a request. -/
inductive Response where
  /-- It answers with this message, in which `$ID` stands for the request's id. -/
  | reply (message : Bytes)
  | ignore
  | exit (code : Int)
  /-- It ends its output and goes on running. -/
  | hangup
  deriving DecidableEq, Repr

/-- What the client's side does while the first request waits for its answer. -/
inductive Interruption where
  | stop
  | cancel
  deriving DecidableEq, Repr

/-- The answer to the first request, unless a script has another one. -/
def usualGreeting : Bytes :=
  "\x7b\"jsonrpc\":\"2.0\",\"id\":$ID,\"result\":\x7b\"capabilities\":\x7b\"textDocumentSync\":1\x7d,\"serverInfo\":\x7b\"name\":\"fake-gbnf\",\"version\":\"0.0.1\"\x7d\x7d\x7d".toUTF8.toList

/-- The answer to a request to shut down, unless a script has another one. -/
def usualFarewell : Bytes :=
  "\x7b\"jsonrpc\":\"2.0\",\"id\":$ID,\"result\":null\x7d".toUTF8.toList

/-- How a server behaves. -/
structure Script where
  /-- Messages sent before the first request is answered. -/
  early : List Bytes := []
  interruption : Option Interruption := none
  greeting : Response := .reply usualGreeting
  farewell : Response := .reply usualFarewell
  /-- The exit code when it is told to exit; none if it does not obey. -/
  exit : Option Int := some 0
  /-- The method after which nothing can be written to it. -/
  deafAfter : Option String := none
  /-- What it sends when a method arrives. -/
  messages : List (String × List Bytes) := []
  /-- The method at which it exits, and the code. -/
  crash : Option (String × Int) := none

/-- What happens because a message has arrived. -/
inductive Action where
  | send (message : Bytes)
  | exit (code : Int)
  | hangup
  | deafen
  | interrupt (i : Interruption)
  deriving DecidableEq, Repr

/-- A message with the id of a request in it. -/
def fillId (id : Bytes) : Bytes → Bytes
  | 0x24 :: 0x49 :: 0x44 :: rest => id ++ fillId id rest
  | b :: rest => b :: fillId id rest
  | [] => []

def Response.actions (id : Bytes) : Response → List Action
  | .reply message => [.send (fillId id message)]
  | .ignore => []
  | .exit code => [.exit code]
  | .hangup => [.hangup]

/-- What happens because a message with this method and id has arrived. -/
def Script.actions (s : Script) (method : String) (id : Bytes) : List Action :=
  (if s.deafAfter = some method then [.deafen] else []) ++
    ((s.messages.lookup method).getD []).map .send ++
    (match s.crash with
      | some (m, code) => if m = method then [.exit code] else []
      | none => []) ++
    (if method = "initialize" then
      s.early.map .send ++ s.interruption.toList.map .interrupt ++ s.greeting.actions id
    else if method = "shutdown" then s.farewell.actions id
    else if method = "exit" then s.exit.toList.map .exit
    else [])

end LanguageClient.Rehearsal
