import LanguageClient.Log.Time
import LanguageClient.Text.Case

/-! # Lines of the log.

A line of a channel has the time of day in front of it. In the output of the
log an entry is written as a record: date and time, level, channel, message,
and further fields in the order of their names. -/

namespace LanguageClient.Log

structure Line where
  time : Time
  text : String
  deriving DecidableEq, Repr

def Line.display (l : Line) : String := "[" ++ l.time.preciseClock ++ "] " ++ l.text

inductive Level where
  | panic
  | fatal
  | error
  | warning
  | info
  | debug
  | trace
  deriving DecidableEq, Repr

def Level.name : Level → String
  | .panic => "panic"
  | .fatal => "fatal"
  | .error => "error"
  | .warning => "warn"
  | .info => "info"
  | .debug => "debug"
  | .trace => "trace"

def Level.ofName? (name : String) : Option Level :=
  let s := Text.lower name
  if s = "warning" then some .warning
  else [Level.panic, .fatal, .error, .warning, .info, .debug, .trace].find? (·.name = s)

/-- What is written to the log. -/
structure Record where
  time : Time
  level : Level
  message : String
  /-- The channel it belongs to, if it has a name. -/
  channel : Option String
  /-- Further fields, as shown. -/
  fields : List (String × String) := []

namespace Record

/-- A text with blanks behind it up to a number of characters. -/
def padRight (n : Nat) (s : String) : String :=
  s ++ String.ofList (List.replicate (n - s.length) ' ')

def withoutLineEnds (s : String) : String :=
  String.ofList (s.toList.reverse.dropWhile fun c => c = '\r' || c = '\n').reverse

/-- Fields as text, in the order of their names. -/
def fieldsText (fields : List (String × String)) : String :=
  if fields.isEmpty then ""
  else
    " |" ++ String.intercalate ","
      ((fields.mergeSort fun a b => a.1 ≤ b.1).map fun (k, v) => " " ++ k ++ "=" ++ v)

def written (r : Record) : String :=
  "[" ++ r.time.stamp ++ "] [" ++ padRight 5 r.level.name ++ "] [" ++ r.channel.getD "-" ++ "] " ++
    withoutLineEnds r.message ++ fieldsText r.fields ++ "\n"

end Record

end LanguageClient.Log
