import LanguageClient.Number.Decimal
import LanguageClient.Text.Quoted

/-! # Texts with places for arguments.

A place is a percent sign, optional flags, width and precision, and a letter
that says how the argument is shown. A letter that does not fit the argument,
an argument too few or too many show in the text itself, so that no message
is lost. -/

namespace LanguageClient.Text

open Number

/-- What can stand in a place. -/
inductive Argument where
  | text (s : String)
  | number (n : Int)
  | boolean (b : Bool)
  | nothing
  /-- Something else: the name of its type, and how it is shown. -/
  | other (type shown : String)
  deriving DecidableEq, Repr

namespace Argument

def type : Argument → String
  | .text _ => "string"
  | .number _ => "int"
  | .boolean _ => "bool"
  | .nothing => "<nil>"
  | .other t _ => t

/-- How an argument is shown by itself. -/
def shown : Argument → String
  | .text s => s
  | .number n => intText n
  | .boolean b => if b then "true" else "false"
  | .nothing => "<nil>"
  | .other _ s => s

end Argument

structure Place where
  minus : Bool := false
  plus : Bool := false
  sharp : Bool := false
  space : Bool := false
  zero : Bool := false
  width : Nat := 0
  precision : Option Nat := none

namespace Place

/-- A text brought to the width of a place. -/
def fill (p : Place) (zeros : Bool) (s : List Char) : List Char :=
  let missing := p.width - s.length
  if p.minus then s ++ List.replicate missing ' '
  else if zeros && p.zero then
    match s with
    | '-' :: ds => '-' :: (List.replicate missing '0' ++ ds)
    | '+' :: ds => '+' :: (List.replicate missing '0' ++ ds)
    | ds => List.replicate missing '0' ++ ds
  else List.replicate missing ' ' ++ s

/-- A number in a base, with its sign and at least as many digits as the precision. -/
def number (p : Place) (base : Nat) (upper : Bool) (mark : List Char) (n : Int) : List Char :=
  let ds := Nat.toDigits base n.natAbs
  let ds := if upper then ds.map Char.toUpper else ds
  let ds := List.replicate ((p.precision.getD 0) - ds.length) '0' ++ ds
  let sign := if n < 0 then ['-'] else if p.plus then ['+'] else if p.space then [' '] else []
  p.fill p.precision.isNone (sign ++ (if p.sharp then mark else []) ++ ds)

/-- The first characters of a text, as many as the precision says. -/
def cut (p : Place) (s : String) : List Char :=
  match p.precision with
  | some n => s.toList.take n
  | none => s.toList

def hexText (upper : Bool) (s : String) : List Char :=
  (utf8 s).flatMap fun b =>
    let ds := hex 2 b.toNat
    if upper then ds.map Char.toUpper else ds

/-- What an argument looks like in a place with a letter, if the letter fits it. -/
def show? (p : Place) (letter : Char) : Argument → Option (List Char)
  | .text s =>
    if letter = 'v' || letter = 's' then
      some (if p.sharp && letter = 'v' then p.fill true (quote s).toList else p.fill true (p.cut s))
    else if letter = 'q' then some (p.fill true (quote (String.ofList (p.cut s))).toList)
    else if letter = 'x' then some (p.fill true (hexText false (String.ofList (p.cut s))))
    else if letter = 'X' then some (p.fill true (hexText true (String.ofList (p.cut s))))
    else none
  | .number n =>
    if letter = 'v' || letter = 'd' then some ({ p with sharp := false }.number 10 false [] n)
    else if letter = 'b' then some (p.number 2 false ['0', 'b'] n)
    else if letter = 'o' then some (p.number 8 false ['0'] n)
    else if letter = 'x' then some (p.number 16 false ['0', 'x'] n)
    else if letter = 'X' then some (p.number 16 true ['0', 'X'] n)
    else if letter = 'c' then some (p.fill true [Char.ofNat n.toNat])
    else none
  | .boolean b => if letter = 'v' || letter = 't' then some (p.fill true (Argument.boolean b).shown.toList) else none
  | .nothing => if letter = 'v' then some (p.fill true "<nil>".toList) else none
  | .other _ s => some (p.fill true s.toList)

/-- An argument whose letter does not fit it. -/
def misfit (letter : Char) (a : Argument) : List Char :=
  match a with
  | .nothing => "%!".toList ++ letter :: "(<nil>)".toList
  | a => "%!".toList ++ letter :: '(' :: (a.type ++ "=" ++ a.shown ++ ")").toList

def display (p : Place) (letter : Char) (a : Argument) : List Char :=
  (p.show? letter a).getD (misfit letter a)

end Place

def flags (p : Place) : List Char → Place × List Char
  | '-' :: r => flags { p with minus := true } r
  | '+' :: r => flags { p with plus := true } r
  | '#' :: r => flags { p with sharp := true } r
  | ' ' :: r => flags { p with space := true } r
  | '0' :: r => flags { p with zero := true } r
  | r => (p, r)

/-- Flags, width and precision behind a percent sign. -/
def place (r : List Char) : Place × List Char :=
  let (p, r) := flags {} r
  let ds := r.takeWhile Char.isDigit
  let p := { p with width := foldDigits 0 ds }
  match r.drop ds.length with
  | '.' :: r =>
    let ds := r.takeWhile Char.isDigit
    ({ p with precision := some (foldDigits 0 ds) }, r.drop ds.length)
  | r => (p, r)

/-- The arguments that no place is left for. -/
def leftOver (args : List Argument) : List Char :=
  if args.isEmpty then []
  else
    "%!(EXTRA ".toList ++ (String.intercalate ", " (args.map fun a =>
      match a with
      | .nothing => "<nil>"
      | a => a.type ++ "=" ++ a.shown)).toList ++ [')']

/-- Fills the places of a template. `fuel` is more than its length. -/
def fillFrom : Nat → List Char → List Argument → List Char
  | 0, _, _ => []
  | _ + 1, [], args => leftOver args
  | fuel + 1, '%' :: r, args =>
    let (p, r) := place r
    match r with
    | [] => "%!(NOVERB)".toList ++ leftOver args
    | '%' :: r => '%' :: fillFrom fuel r args
    | letter :: r =>
      match args with
      | [] => "%!".toList ++ letter :: ("(MISSING)".toList ++ fillFrom fuel r [])
      | a :: args => p.display letter a ++ fillFrom fuel r args
  | fuel + 1, c :: r, args => c :: fillFrom fuel r args

/-- A template with its arguments. -/
def template (t : String) (args : List Argument) : String :=
  String.ofList (fillFrom (t.length + 1) t.toList args)

end LanguageClient.Text
