import LanguageClient.Bridge
import LanguageClient.Session.Basic

/-! # Activation.

To activate the client means to find the binary for the platform, make it
available, and start a supervisor for it in a new session. What goes wrong is
logged and shown; the session is returned in any case. -/

namespace LanguageClient

/-- How supervisors are made and used, each under a handle of type `η`. -/
structure Servers (σ η : Type) where
  /-- A new supervisor for a binary. -/
  supervise : Binary → σ → σ × η
  start : η → LaunchMode → σ → σ × Option Error
  stop : η → σ → σ
  notify : η → Sender σ
  state : η → σ → Lifecycle

/-- What an activation needs. -/
structure Activator (σ η : Type) where
  say : Report → σ → σ
  /-- The binary for the platform. -/
  resolved : Except Error Binary
  /-- Makes a binary available, where that is wanted. -/
  provision : Option (Binary → σ → σ × Except Error Binary)
  selector : Selector
  servers : Servers σ η

namespace Activator

variable (a : Activator σ η)

def sayAll (rs : List Report) (w : σ) : σ := rs.foldl (fun w r => a.say r w) w

/-- What is said of an error before the server is started. -/
def failureReports (e : Error) : List Report :=
  [.line ("Activation error: " ++ e.message), .line e.trace,
    .error ("GBNF LSP activation error: " ++ e.message)]

/-- What is said of the result of starting the server. -/
def startReports : Option Error → List Report
  | none => [.line "LSP client started successfully", .info "GBNF LSP connected successfully"]
  | some e =>
    if e.isA .stopRequested then [.line "LSP client start cancelled"]
    else
      [.line ("Error starting LSP client: " ++ e.message), .line e.trace,
        .error ("Failed to start GBNF LSP: " ++ e.message)]

/-- The binary, made available. -/
def prepare (w : σ) : σ × Except Error Binary :=
  match a.resolved, a.provision with
  | .error e, _ => (w, .error e)
  | .ok b, none => (w, .ok b)
  | .ok b, some provision => provision b w

def activate (id : SessionId) (mode : LaunchMode) (w : σ) :
    σ × Session η (Bridge σ) × Option Error :=
  let session : Session η (Bridge σ) := { id }
  let w := a.say (.line "Extension activating...") w
  match a.prepare w with
  | (w, .error e) => (a.sayAll (failureReports e) w, session, some e)
  | (w, .ok binary) =>
    let w := a.say (.line ("Found LSP server at: " ++ binary.path)) w
    let (w, server) := a.servers.supervise binary w
    let bridge : Bridge σ := { selector := a.selector, sender := some (a.servers.notify server) }
    match session.attach binary (some server) (some bridge) with
    | .error e => (a.sayAll (failureReports e) w, session, some e)
    | .ok session =>
      let w := a.say (.line "Starting LSP client...") w
      let (w, failure) := a.servers.start server mode w
      (a.sayAll (startReports failure) w, session, failure)

def deactivate (s : Session η (Bridge σ)) (w : σ) : σ × Session η (Bridge σ) :=
  let (s, w, said) := s.deactivate a.servers.stop (fun h w => some (a.servers.state h w)) w
  (a.sayAll said w, s)

end Activator

end LanguageClient
