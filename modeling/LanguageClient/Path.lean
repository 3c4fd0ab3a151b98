import LanguageClient.Text.Utf8

/-! # File paths.

A path is a sequence of elements between separators, rooted if it starts with
one. Cleaning is lexical: it drops empty elements and `.`, lets `..` remove
the element before it, and never looks at a file. Names can hold octets that
are no text, so everything is written for any alphabet that has a separator
and a dot. -/

namespace LanguageClient

/-- What paths are made of. -/
class PathLetter (α : Type) where
  /-- What stands between two elements. -/
  slash : α
  /-- What names the directory itself, and twice its parent. -/
  dot : α

instance : PathLetter Char := { slash := '/', dot := '.' }

instance : PathLetter UInt8 := { slash := 0x2F, dot := 0x2E }

namespace Path

open PathLetter (slash dot)

variable {α : Type} [BEq α] [PathLetter α]

/-- Cuts a list at every separator; there is always one element more than
there are separators. -/
def splitAt (sep : α) : List α → List (List α)
  | [] => [[]]
  | c :: cs =>
    match splitAt sep cs with
    | [] => [[c]]
    | e :: es => if c == sep then [] :: e :: es else (c :: e) :: es

/-- The elements of a path, empty ones included. -/
def elements (p : List α) : List (List α) := splitAt slash p

def isRooted : List α → Bool
  | [] => false
  | c :: _ => c == slash

def isDot : List α → Bool
  | [c] => c == dot
  | _ => false

def isDotDot : List α → Bool
  | [c, d] => c == dot && d == dot
  | _ => false

/-- One more element behind a cleaned sequence, which is held last element
first: `..` removes an element, stays in front of a relative path and
vanishes at the root. -/
def push (rooted : Bool) (done : List (List α)) (e : List α) : List (List α) :=
  if e.isEmpty || isDot e then done
  else if isDotDot e then
    match done with
    | [] => if rooted then [] else [e]
    | d :: ds => if isDotDot d then e :: d :: ds else ds
  else e :: done

def cleanElements (rooted : Bool) (es : List (List α)) : List (List α) :=
  (es.foldl (push rooted) []).reverse

/-- Elements with separators between them. -/
def joinElements : List (List α) → List α
  | [] => []
  | [e] => e
  | e :: es => e ++ slash :: joinElements es

/-- The shortest path that means the same, lexically. -/
def cleanList (p : List α) : List α :=
  let rooted := isRooted p
  let body := joinElements (cleanElements rooted (elements p))
  if rooted then slash :: body
  else if body.isEmpty then [dot]
  else body

/-- The path of `p` below the directory `base`, cleaned; a rooted `p` stands
for itself. -/
def absoluteList (base p : List α) : List α :=
  if isRooted p then cleanList p else cleanList (base ++ slash :: p)

/-- What the last element of a path has from its last dot on. -/
def extensionList (p : List α) : List α :=
  let name := p.reverse.takeWhile (· != slash)
  if name.contains dot then dot :: (name.takeWhile (· != dot)).reverse else []

def clean (p : String) : String := String.ofList (cleanList p.toList)

/-- The cleaned path through all non-empty parts, `""` if there are none. -/
def join (parts : List String) : String :=
  match parts.filter (· ≠ "") with
  | [] => ""
  | ps => String.ofList (cleanList (joinElements (ps.map String.toList)))

/-- The cleaned path of `p` seen from the directory `base`. -/
def absolute (base p : String) : String := String.ofList (absoluteList base.toList p.toList)

def rooted (p : String) : Bool := isRooted p.toList

/-- The last element of a path, without trailing separators. -/
def base (p : String) : String :=
  if p = "" then "."
  else
    let trimmed := (p.toList.reverse.dropWhile (· == '/'))
    let name := (trimmed.takeWhile (· != '/')).reverse
    if name.isEmpty then "/" else String.ofList name

/-- Everything before the last element of a path, cleaned. -/
def dir (p : String) : String :=
  clean (String.ofList ((p.toList.reverse.dropWhile (· != '/')).reverse))

/-- The extension of a path: what its last element has from its last dot on. -/
def extension (p : String) : String := String.ofList (extensionList p.toList)

end Path

end LanguageClient
