import LanguageClient.Log.Record

/-! # The output channel.

A channel keeps the last lines appended to it, passes each on to its
subscribers as far as they have room, and writes it to the log. To append is
three steps: to look at the clock, to record the line, and to write it; other
callers may come between them. A line is recorded while the channel is held: it
is remembered, and then passed on to one subscriber after the other. A
subscription ends in two steps, the second of which the channel is not held for.
A writer that fails never disturbs the caller, but what it was to write is lost,
in the log file too. The log file itself may refuse a text; how it does so is
nowhere settled, and it may change at any time. -/

namespace LanguageClient.Log

/-- How the console takes what is written to it. -/
inductive Console where
  | works
  | fails
  | panics
  deriving DecidableEq, Repr

/-- A log file: which texts it takes as a whole when they are written to it. -/
structure LogFile where
  takes : String → Bool

/-- Somebody who wants every line from now on. -/
structure Subscription where
  /-- How many lines wait at most; what comes then is dropped. -/
  capacity : Nat
  waiting : List Line := []
  /-- Whether the channel passes lines on to it. -/
  isListed : Bool := true
  /-- Whether lines can be sent to it at all. -/
  isOpen : Bool := true

structure Channel where
  name : String
  maxLines : Nat
  debug : Bool := false
  console : Console := .works
  /-- The log file besides the console, if there is one. -/
  file : Option LogFile := none
  lines : List Line := []
  subscriptions : List Subscription := []

/-- What a channel writes. -/
inductive Output where
  | console (text : String)
  | file (text : String)
  deriving DecidableEq, Repr

def consoleText (out : List Output) : String :=
  String.join (out.filterMap fun
    | .console text => some text
    | .file _ => none)

def fileText (out : List Output) : String :=
  String.join (out.filterMap fun
    | .file text => some text
    | .console _ => none)

namespace Subscription

/-- Whether no more lines can wait. -/
def isFull (s : Subscription) : Bool := s.capacity ≤ s.waiting.length

/-- Sends a line, which is dropped if there is no room for it. Nothing can be
sent to a subscription that is closed. -/
def send? (line : Line) (s : Subscription) : Option Subscription :=
  if !s.isOpen then none
  else if s.isFull then some s
  else some { s with waiting := s.waiting ++ [line] }

end Subscription

namespace Channel

/-- How many lines a channel keeps if nothing else is said. -/
def defaultMaxLines : Nat := 1000

/-- A channel; without a name it is called `output`. -/
def make (name : String) (maxLines : Int) (debug : Bool) (console : Console) (file : Option LogFile) :
    Channel :=
  { name := if name = "" then "output" else name
    maxLines := if maxLines ≤ 0 then defaultMaxLines else maxLines.toNat
    debug, console, file }

def lastN {α : Type} (n : Nat) (l : List α) : List α := l.drop (l.length - n)

def updateSubscription (f : Subscription → Subscription) (i : Nat) (c : Channel) : Channel :=
  { c with subscriptions := c.subscriptions.modify i f }

/-- A line becomes the last one. -/
def remember (line : Line) (c : Channel) : Channel :=
  { c with lines := lastN c.maxLines (c.lines ++ [line]) }

/-- Passes a line on to a subscription; `none` if that is closed, for then the
caller fails and the channel is held forever. -/
def pass? (line : Line) (i : Nat) (c : Channel) : Option Channel :=
  c.subscriptions[i]?.bind fun s => (s.send? line).map fun s => c.updateSubscription (fun _ => s) i

/-- The subscriptions that lines are passed on to. -/
def listed (c : Channel) : List Nat :=
  (List.range c.subscriptions.length).filter fun i => c.subscriptions[i]?.any (·.isListed)

/-- Records a line: remembers it, and passes it on. -/
def record? (line : Line) (c : Channel) : Option Channel :=
  c.listed.foldlM (fun c i => c.pass? line i) (c.remember line)

/-- Whether there is a log file, and it takes a text. -/
def fileTakes (c : Channel) (text : String) : Bool := c.file.any (·.takes text)

/-- What writing a record puts out. The log file comes behind the console and
gets nothing if that fails. -/
def output (c : Channel) (text : String) : List Output :=
  match c.console with
  | .works => .console text :: (if c.fileTakes text then [.file text] else [])
  | .fails | .panics => []

/-- A line as it is written to the log. -/
def entry (c : Channel) (line : Line) : String :=
  Record.written { time := line.time, level := .info, message := line.text, channel := some c.name }

/-- Writes a line that was recorded. -/
def write (c : Channel) (line : Line) : List Output := c.output (c.entry line)

/-- Appends a line at a point in time. Nothing more comes of it if it cannot be
passed on. -/
def appendLine (now : Time) (text : String) (c : Channel) : Channel × List Output :=
  let line : Line := ⟨now, text⟩
  match c.record? line with
  | some c => (c, c.write line)
  | none => (c, [])

/-- Writes to the log only, and only if debugging is on. -/
def debugLine (now : Time) (text : String) (c : Channel) : List Output :=
  if c.debug then
    c.output (Record.written { time := now, level := .debug, message := text, channel := some c.name })
  else []

/-- How many lines wait for a subscriber that does not say. -/
def defaultCapacity : Nat := 64

/-- A new subscription; its place in the list is its number. -/
def subscribe (capacity : Int) (c : Channel) : Channel :=
  let capacity := if capacity ≤ 0 then defaultCapacity else capacity.toNat
  { c with subscriptions := c.subscriptions ++ [{ capacity }] }

/-- Passes no more lines on to a subscription. -/
def unlist (i : Nat) (c : Channel) : Channel :=
  c.updateSubscription (fun s => { s with isListed := false }) i

/-- Closes a subscription. Lines that wait can still be taken. -/
def close (i : Nat) (c : Channel) : Channel :=
  c.updateSubscription (fun s => { s with isOpen := false }) i

def unsubscribe (i : Nat) (c : Channel) : Channel := (c.unlist i).close i

/-- Takes the line that has waited longest. -/
def receive? (i : Nat) (c : Channel) : Option (Channel × Line) :=
  c.subscriptions[i]?.bind fun s =>
    match s.waiting with
    | [] => none
    | line :: rest => some (c.updateSubscription (fun s => { s with waiting := rest }) i, line)

/-- Takes the lines that wait, and says whether more can come. -/
def drain (i : Nat) (c : Channel) : Channel × Option (List Line × Bool) :=
  match c.subscriptions[i]? with
  | none => (c, none)
  | some s => (c.updateSubscription (fun s => { s with waiting := [] }) i, some (s.waiting, s.isOpen))

end Channel

end LanguageClient.Log
