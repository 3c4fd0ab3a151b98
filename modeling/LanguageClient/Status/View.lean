import LanguageClient.Status.Model
import LanguageClient.Terminal.Block
import LanguageClient.Terminal.Clip

/-! # How the status view looks.

A header with the state of the server, the last lines of the log as far as
there is room, notices, and a footer with the keys. -/

namespace LanguageClient.Status

open Terminal

/-- A length of time rounded to seconds, a half away from zero. -/
def wholeSeconds (ms : Int) : Duration :=
  let s := (ms.natAbs + 500) / 1000
  .ofSeconds (if ms < 0 then -(s : Int) else s)

def stateColour : Option Lifecycle → Nat
  | some .running => 46
  | some .starting => 220
  | some .failed => 196
  | _ => 240

namespace Model

variable (p : Profile) (m : Model)

def divider : Block :=
  let w := if m.width ≤ 0 then 40 else m.width.toNat
  Style.render p { colour := 240 } (List.replicate w (.char '─'))

/-- The start of a session's name, and dots if it is longer. -/
def shortSession : Block :=
  if m.sessionId.isEmpty then Block.ofString "-"
  else if 8 < m.sessionId.length then Utf8.symbols (m.sessionId.take 8) ++ Block.ofString "..."
  else Utf8.symbols m.sessionId

def stateWord : String :=
  if m.activating then "ACTIVATING"
  else String.ofList ((Lifecycle.nameOr m.state).toList.map Char.toUpper)

def header : Block :=
  let title := Style.render p { colour := 86, bold := true } (Block.ofString m.channelName)
  let badge := Style.render p { colour := stateColour m.state, bold := true } (Block.ofString m.stateWord)
  let badge :=
    if m.busy then
      Style.render p { colour := 220 } (Block.ofString (frames[m.frame]?.getD "")) ++
        .char ' ' :: badge
    else badge
  let info := Block.ofString "Session: " ++ m.shortSession ++
    Block.ofString (" | Up: " ++ (wholeSeconds (m.now.ms - m.startedAt.ms)).text)
  let gap := blanks 2
  let first := beside [title, gap, badge, gap, info]
  let server := if m.binaryPath = "" then [] else [Block.ofString ("Server: " ++ m.binaryPath)]
  let failure := match m.lastError with
    | some e => [Style.render p { colour := 196 } (Block.ofString ("Error: " ++ e.message))]
    | none => []
  stack (first :: server ++ failure ++ [m.divider p])

def footer : Block :=
  stack [m.divider p,
    Style.render p { colour := 245 } (Block.ofString "Controls: [c] Clear | [q] Quit")]

def noticeBlock? : Option Block :=
  if m.notices.isEmpty then none
  else
    some (stack (m.divider p ::
      m.notices.map fun n => Style.render p { colour := 245 } (Block.ofString n)))

/-- The last lines that fit into a number of rows, of which there is at least one. -/
def lineBlock (room : Int) : Block :=
  if m.lines.isEmpty then
    Style.render p { colour := 240 } (Block.ofString "\n  Waiting for server output...\n")
  else
    let visible := Log.Channel.lastN (max room 1).toNat m.lines
    unlines (visible.map fun l =>
      let l := Block.ofString l
      if 0 < m.width then clip m.width.toNat l else l)

def view : Block :=
  let header := m.header p
  let footer := m.footer p
  let notices := (m.noticeBlock? p).toList
  let used := Terminal.height header + Terminal.height footer + (notices.map Terminal.height).foldl (· + ·) 0
  stack ([header, m.lineBlock p (m.height - used)] ++ notices ++ [footer])

end Model

end LanguageClient.Status
