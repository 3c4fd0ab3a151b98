import LanguageClient.Terminal.Block

/-! # Messages for the user.

A message is written as one line behind a coloured sign. Where the status view
has the terminal, what would be written goes to the view instead, line by
line. -/

namespace LanguageClient.Terminal

inductive Notification where
  | info (text : String)
  | error (text : String)
  deriving DecidableEq, Repr

namespace Notification

def infoStyle : Style := { colour := 46, bold := true }

def errorStyle : Style := { colour := 196, bold := true }

def written (p : Profile) : Notification → String
  | .info text => (infoStyle.render p (Block.ofString "✔")).text ++ " " ++ text ++ "\n"
  | .error text => (errorStyle.render p (Block.ofString "✖")).text ++ " " ++ text ++ "\n"

end Notification

/-- The notices that octets written for the user amount to: their lines,
without line ends at the end. -/
def noticesOf (bs : Bytes) : List String :=
  let kept := (bs.reverse.dropWhile (· == 0x0A)).reverse
  (lines (Utf8.symbols kept)).map Block.text

/-- Passes written octets on as notices, once somebody listens. -/
structure NoticeWriter where
  attached : Bool := false

/-- How many octets were taken, which is always all of them, and the notices sent. -/
def NoticeWriter.write (w : NoticeWriter) (bs : Bytes) : Nat × List String :=
  (bs.length, if w.attached then noticesOf bs else [])

end LanguageClient.Terminal
