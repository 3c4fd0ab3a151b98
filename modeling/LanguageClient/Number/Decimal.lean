/-! # Decimal integers.

`digits?` reads a run of decimal digits, `int64?` a signed number of 64 bits,
the way header values, request ids and environment variables are read: an
optional sign, at least one digit, nothing else, and no overflow. -/

namespace LanguageClient.Number

def digitValue (c : Char) : Nat := c.toNat - 0x30

/-- The number a run of digits denotes, continuing from `n`. -/
def foldDigits (n : Nat) (cs : List Char) : Nat :=
  cs.foldl (fun n c => n * 10 + digitValue c) n

/-- The number written by a non-empty run of decimal digits. -/
def digits? (cs : List Char) : Option Nat :=
  if !cs.isEmpty && cs.all Char.isDigit then some (foldDigits 0 cs) else none

def int64Max : Int := 9223372036854775807

def int64Min : Int := -9223372036854775808

def fitsInt64 (n : Int) : Bool := int64Min ≤ n && n ≤ int64Max

def splitSign : List Char → Bool × List Char
  | '-' :: cs => (true, cs)
  | '+' :: cs => (false, cs)
  | cs => (false, cs)

def signed (negative : Bool) (n : Nat) : Int := if negative then -(n : Int) else n

def int64? (cs : List Char) : Option Int :=
  let (negative, rest) := splitSign cs
  match digits? rest with
  | none => none
  | some n => if fitsInt64 (signed negative n) then some (signed negative n) else none

def natText (n : Nat) : List Char := Nat.toDigits 10 n

def intText (n : Int) : String :=
  match n with
  | .ofNat n => String.ofList (natText n)
  | .negSucc n => String.ofList ('-' :: natText (n + 1))

/-- A number in decimal with at least `width` digits. -/
def padded (width n : Nat) : List Char :=
  let ds := natText n
  List.replicate (width - ds.length) '0' ++ ds

end LanguageClient.Number
