import LanguageClient.Number.Decimal
import LanguageClient.Text.CellWidth

/-! # Blocks of text on a terminal.

A block is a text that may have several lines. Blocks are stacked and put side
by side; what is shorter is filled with blanks, so that every block is a
rectangle of cells. Colours are escape sequences around the lines, and a
terminal may have none. -/

namespace LanguageClient.Terminal

/-- A text, stray octets included. -/
abbrev Block := List Symbol

def Block.ofString (s : String) : Block := s.toList.map .char

/-- The text of a block, with a replacement for each stray octet. -/
def Block.text (b : Block) : String := String.ofList (b.map Symbol.toChar)

def isNewline (x : Symbol) : Bool := x == .char '\n'

def lines (b : Block) : List Block :=
  let cut := b.foldr (fun x (line, rest) => if isNewline x then ([], line :: rest) else (x :: line, rest))
    (([], []) : Block × List Block)
  cut.1 :: cut.2

def unlines : List Block → Block
  | [] => []
  | [l] => l
  | l :: ls => l ++ .char '\n' :: unlines ls

def height (b : Block) : Nat := (b.filter isNewline).length + 1

/-- The cells of the widest line. -/
def width (ls : List Block) : Nat := ls.foldl (fun w l => max w (Text.cells l)) 0

def blanks (n : Nat) : Block := List.replicate n (.char ' ')

/-- A line with blanks behind it up to a width. -/
def padTo (w : Nat) (line : Block) : Block := line ++ blanks (w - Text.cells line)

/-- Stacks blocks; all lines get the width of the widest. A single block stays
as it is. -/
def stack (bs : List Block) : Block :=
  match bs with
  | [] => []
  | [b] => b
  | bs =>
    let ls := bs.flatMap lines
    unlines (ls.map (padTo (width ls)))

/-- Puts blocks side by side, their first lines on one level. -/
def beside (bs : List Block) : Block :=
  match bs with
  | [] => []
  | [b] => b
  | bs =>
    let columns := bs.map lines
    let rows := columns.foldl (fun n c => max n c.length) 0
    unlines ((List.range rows).map fun i =>
      columns.flatMap fun col => padTo (width col) (col[i]?.getD []))

/-! ### Colours -/

/-- What a terminal can show. -/
inductive Profile where
  | plain
  | colours
  deriving DecidableEq, Repr

/-- A colour of the palette, by number, and whether letters are bold. -/
structure Style where
  colour : Nat
  bold : Bool := false

def Style.start (s : Style) : String :=
  "\x1b[" ++ (if s.bold then "1;" else "") ++ "38;5;" ++
    String.ofList (Number.natText s.colour) ++ "m"

def resetStyle : String := "\x1b[0m"

def Style.line (p : Profile) (s : Style) (l : Block) : Block :=
  match p with
  | .plain => l
  | .colours => Block.ofString s.start ++ l ++ Block.ofString resetStyle

/-- Tabs as four blanks, and line ends as single characters. -/
def untabbed : Block → Block
  | [] => []
  | .char '\t' :: xs => blanks 4 ++ untabbed xs
  | x :: xs => x :: untabbed xs

def withoutReturns : Block → Block
  | [] => []
  | .char '\r' :: .char '\n' :: xs => .char '\n' :: withoutReturns xs
  | x :: xs => x :: withoutReturns xs

/-- A block in a style. If it has several lines they get one width. -/
def Style.render (p : Profile) (s : Style) (b : Block) : Block :=
  match (lines (withoutReturns (untabbed b))).map (s.line p) with
  | [l] => l
  | ls => unlines (ls.map (padTo (width ls)))

end LanguageClient.Terminal
