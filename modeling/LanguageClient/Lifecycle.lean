/-! # The life of a supervised server.

A server is stopped, starting, running or failed. `canStep` lists the legal
moves; whoever holds a state checks it before every move. -/

namespace LanguageClient

/-- The state of a supervised language server. -/
inductive Lifecycle where
  /-- The first state, and the one after an explicit stop. -/
  | stopped
  /-- Spawning and agreeing on the protocol. -/
  | starting
  /-- The process is up and the protocol is agreed on. -/
  | running
  /-- Starting failed, or the running process exited on its own. -/
  | failed
  deriving DecidableEq, Repr, Inhabited

namespace Lifecycle

def name : Lifecycle → String
  | .stopped => "stopped"
  | .starting => "starting"
  | .running => "running"
  | .failed => "failed"

/-- Whether a server may go from one state to another in one step. -/
def canStep : Lifecycle → Lifecycle → Bool
  | .stopped, .starting => true
  | .starting, .running => true
  | .starting, .failed => true
  | .starting, .stopped => true
  | .running, .stopped => true
  | .running, .failed => true
  | .failed, .stopped => true
  | _, _ => false

/-- The state with a number, `none` for numbers without one. -/
def ofNumber? : Int → Option Lifecycle
  | 0 => some .stopped
  | 1 => some .starting
  | 2 => some .running
  | 3 => some .failed
  | _ => none

def nameOr : Option Lifecycle → String
  | some s => s.name
  | none => "unknown"

/-- Legal moves between states that may be unknown: there are none from or to
an unknown state. -/
def canStep? : Option Lifecycle → Option Lifecycle → Bool
  | some s, some t => s.canStep t
  | _, _ => false

end Lifecycle

/-- The two fixed ways of launching the server. -/
inductive LaunchMode where
  | run
  | debug
  deriving DecidableEq, Repr, Inhabited

def LaunchMode.name : LaunchMode → String
  | .run => "run"
  | .debug => "debug"

end LanguageClient
