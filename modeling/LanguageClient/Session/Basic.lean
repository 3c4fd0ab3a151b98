import LanguageClient.Lifecycle
import LanguageClient.Report
import LanguageClient.Session.Id

/-! # Sessions.

A session is one activation of the client. It is handed one server and one
bridge, never another one, and it is deactivated once. What happens to it is
kept as a list of events until somebody asks for them. -/

namespace LanguageClient

inductive Session.Phase where
  | created
  | active
  | deactivated
  deriving DecidableEq, Repr

def Session.Phase.name : Session.Phase → String
  | created => "created"
  | active => "active"
  | deactivated => "deactivated"

/-- What happens to a session. -/
inductive Session.Event where
  | serverAttached (binary : Binary)
  /-- The state is that of the server after it was stopped; `none` is a state
  without a name. -/
  | deactivated (final : Option Lifecycle)

/-- A session, whose server has a handle of type `η` and whose bridge is a `β`. -/
structure Session (η β : Type) where
  id : SessionId
  phase : Session.Phase := .created
  /-- Whether somebody listens to the log. -/
  audible : Bool := true
  binary : Option Binary := none
  server : Option η := none
  bridge : Option β := none
  /-- What nobody has asked for yet. -/
  events : List Session.Event := []

namespace Session

/-- Hands a session its server. -/
def attach (binary : Binary) (server : Option η) (bridge : Option β) (s : Session η β) :
    Except Error (Session η β) :=
  if s.phase = .deactivated then
    .error (.plain ("cannot attach to deactivated session " ++ s.id.text))
  else if s.server.isSome then .error (.condition .alreadyAttached)
  else
    .ok { s with
      binary := some binary, server, bridge, phase := .active
      events := s.events ++ [.serverAttached binary] }

/-- The state of the server; a session without one counts as stopped. -/
def serverState (state : η → Option Lifecycle) (s : Session η β) : Option Lifecycle :=
  match s.server with
  | some h => state h
  | none => some .stopped

/-- Begins a deactivation; `none` if that has been done before. -/
def beginDeactivation (s : Session η β) : Option (Session η β) :=
  if s.phase = .deactivated then none else some { s with phase := .deactivated }

/-- Ends a deactivation, once the server is stopped. -/
def endDeactivation (final : Option Lifecycle) (s : Session η β) : Session η β × List Report :=
  ({ s with events := s.events ++ [.deactivated final] },
    if s.audible then [.line ("Session " ++ s.id.text ++ " deactivated")] else [])

/-- Deactivates a session: its server is stopped, and its last state noted. -/
def deactivate (stop : η → σ → σ) (state : η → σ → Option Lifecycle) (s : Session η β) (w : σ) :
    Session η β × σ × List Report :=
  match s.beginDeactivation with
  | none => (s, w, [])
  | some s =>
    let w := match s.server with
      | some h => stop h w
      | none => w
    let (s, said) := s.endDeactivation (s.serverState fun h => state h w)
    (s, w, said)

/-- The events nobody has asked for, which are forgotten. -/
def drain (s : Session η β) : Session η β × List Event := ({ s with events := [] }, s.events)

end Session

end LanguageClient
