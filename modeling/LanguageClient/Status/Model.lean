import LanguageClient.Error
import LanguageClient.Lifecycle
import LanguageClient.Log.Channel

/-! # What the status view knows.

The view learns of the window, of keys, of the passing of time and of what
happens to the server by messages. Its model is a fold over them. -/

namespace LanguageClient.Status

open Log (Line Time)

/-- What the view is told. -/
inductive Message where
  | resized (width height : Int)
  | key (name : String)
  /-- The busy sign moves on. -/
  | spin
  | tick (now : Time)
  /-- The server's state; `none` is one that is not known. -/
  | state (s : Option Lifecycle) (e : Option Error)
  | line (l : Line)
  | notice (text : String)
  | activated (sessionId : Bytes) (binaryPath : String) (e : Option Error)
  | other

/-- What the view asks for in return. -/
inductive Command where
  | tick
  | spin
  | quit
  deriving DecidableEq, Repr

structure Model where
  channelName : String
  state : Option Lifecycle := some .stopped
  lastError : Option Error := none
  activating : Bool := true
  sessionId : Bytes := []
  binaryPath : String := ""
  lines : List String := []
  notices : List String := []
  startedAt : Time
  now : Time
  width : Int := 0
  height : Int := 24
  /-- Which picture of the busy sign is shown. -/
  frame : Nat := 0

namespace Model

def maxLines : Nat := 500

def maxNotices : Nat := 5

/-- The pictures of the busy sign. -/
def frames : List String := ["∙∙∙", "●∙∙", "∙●∙", "∙∙●"]

def start (channelName : String) (now : Time) : Model := { channelName, startedAt := now, now }

def isQuitKey (name : String) : Bool := name = "q" || name = "ctrl+c"

def isClearKey (name : String) : Bool := name = "c"

def busy (m : Model) : Bool := m.activating || m.state = some .starting

/-- The model after a message, and what the view asks for. -/
def update (m : Model) : Message → Model × Option Command
  | .resized width height => ({ m with width, height }, none)
  | .key name =>
    if isQuitKey name then (m, some .quit)
    else if isClearKey name then ({ m with lines := [] }, none)
    else (m, none)
  | .spin => ({ m with frame := (m.frame + 1) % frames.length }, some .spin)
  | .tick now => ({ m with now }, some .tick)
  | .state s e => ({ m with state := s, lastError := e.or m.lastError }, none)
  | .line l => ({ m with lines := Log.Channel.lastN maxLines (m.lines ++ [l.display]) }, none)
  | .notice text => ({ m with notices := Log.Channel.lastN maxNotices (m.notices ++ [text]) }, none)
  | .activated sessionId binaryPath e =>
    ({ m with activating := false, sessionId, binaryPath, lastError := e.or m.lastError }, none)
  | .other => (m, none)

end Model

end LanguageClient.Status
