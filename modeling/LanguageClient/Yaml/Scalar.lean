import LanguageClient.Number.Binary64
import LanguageClient.Yaml.Node

/-! # What YAML scalars mean.

A plain scalar without a tag is `null`, a boolean, a number, a time or a text,
whichever its characters allow first; quoted and block scalars are texts. A
tag asks for one of these, and a scalar that is something else is an error. -/

namespace LanguageClient.Yaml

open Number

/-- The value of a scalar. Only that a scalar is a time matters, not which. -/
inductive Datum where
  | null
  | boolean (b : Bool)
  | integer (n : Int)
  | float (x : Binary64)
  | infinity (negative : Bool)
  | notANumber
  | time
  | text (s : String)
  deriving Repr

def Datum.tag : Datum → String
  | .null => "!!null"
  | .boolean _ => "!!bool"
  | .integer _ => "!!int"
  | .float _ | .infinity _ | .notANumber => "!!float"
  | .time => "!!timestamp"
  | .text _ => "!!str"

namespace Datum

/-! ### Words -/

/-- The scalars with a meaning of their own. -/
def word? (s : String) : Option Datum :=
  if s ∈ ["", "~", "null", "Null", "NULL"] then some .null
  else if s ∈ ["true", "True", "TRUE"] then some (.boolean true)
  else if s ∈ ["false", "False", "FALSE"] then some (.boolean false)
  else if s ∈ [".nan", ".NaN", ".NAN"] then some .notANumber
  else if s ∈ [".inf", ".Inf", ".INF", "+.inf", "+.Inf", "+.INF"] then some (.infinity false)
  else if s ∈ ["-.inf", "-.Inf", "-.INF"] then some (.infinity true)
  else none

/-! ### Numbers -/

/-- The value of a digit in a base, if it is one. -/
def digitIn? (base : Nat) (c : Char) : Option Nat :=
  let v :=
    if c.isDigit then c.toNat - 0x30
    else if 'a' ≤ c && c ≤ 'z' then c.toNat - 0x61 + 10
    else if 'A' ≤ c && c ≤ 'Z' then c.toNat - 0x41 + 10
    else base
  if v < base then some v else none

def digitsIn? (base : Nat) (cs : List Char) : Option Nat :=
  cs.foldl (fun acc c => acc.bind fun n => (digitIn? base c).map (n * base + ·)) (some 0)

/-- A number whose base shows at its start: `0x`, `0o`, `0b`, a leading zero
for octal, or decimal. -/
def natural? (cs : List Char) : Option Nat :=
  match cs with
  | [] => none
  | '0' :: m :: d :: rest =>
    if m = 'x' || m = 'X' then digitsIn? 16 (d :: rest)
    else if m = 'o' || m = 'O' then digitsIn? 8 (d :: rest)
    else if m = 'b' || m = 'B' then digitsIn? 2 (d :: rest)
    else digitsIn? 8 (m :: d :: rest)
  | '0' :: rest => digitsIn? 8 rest
  | _ => digitsIn? 10 cs

/-- A number with an optional sign that fits in 64 bits with a sign. -/
def signed? (read : List Char → Option Nat) (cs : List Char) : Option Int :=
  let (negative, rest) := splitSign cs
  if rest.isEmpty then none
  else (read rest).bind fun n => if fitsInt64 (signed negative n) then some (signed negative n) else none

/-- A number without a sign that fits in 64 bits. -/
def unsigned? (read : List Char → Option Nat) (cs : List Char) : Option Int :=
  if cs.isEmpty then none else (read cs).bind fun n => if n < Nat.pow 2 64 then some (n : Int) else none

/-- A number behind a mark of its base, where a sign may stand behind the mark. -/
def marked? (mark : List Char) (base : Nat) (cs : List Char) : Option Int :=
  if mark.isPrefixOf cs then
    let rest := cs.drop mark.length
    (signed? (digitsIn? base) rest).or (unsigned? (digitsIn? base) rest)
  else if ('-' :: mark).isPrefixOf cs then
    signed? (digitsIn? base) ('-' :: cs.drop (mark.length + 1))
  else none

def integer? (cs : List Char) : Option Int :=
  (signed? natural? cs).or (unsigned? natural? cs)

/-- A decimal number: digits with an optional point and exponent. The digits
behind the point are required if there are none in front of it. -/
def decimal? (cs : List Char) : Option Binary64 :=
  let (negative, rest) := splitSign cs
  let whole := rest.takeWhile Char.isDigit
  let rest := rest.drop whole.length
  let (fraction, rest, pointed) := match rest with
    | '.' :: r => (r.takeWhile Char.isDigit, r.dropWhile Char.isDigit, true)
    | r => ([], r, false)
  let exponent? : Option Int := match rest with
    | [] => some 0
    | e :: r =>
      if e = 'e' || e = 'E' then
        let (negative, ds) := splitSign r
        (digits? ds).map (signed negative)
      else none
  if whole.isEmpty && (fraction.isEmpty || !pointed) then none
  else
    exponent?.bind fun e =>
      Binary64.ofDecimal negative (foldDigits 0 (whole ++ fraction)) (e - fraction.length)

/-! ### Times -/

/-- One or two digits that denote a number in a range. -/
def shortNumber (low high : Nat) (cs : List Char) : Option (List Char) :=
  let ds := (cs.take 2).takeWhile Char.isDigit
  let n := foldDigits 0 ds
  if !ds.isEmpty && low ≤ n && n ≤ high then some (cs.drop ds.length) else none

def expect (c : Char) : List Char → Option (List Char)
  | d :: rest => if c = d then some rest else none
  | [] => none

def daysIn (year month : Nat) : Nat :=
  if month = 2 then (if year % 4 = 0 && (year % 100 ≠ 0 || year % 400 = 0) then 29 else 28)
  else if month ∈ [4, 6, 9, 11] then 30
  else 31

/-- The zone at the end of a time. -/
def isZone (cs : List Char) : Bool :=
  match cs with
  | ['Z'] => true
  | [s, a, b, ':', c, d] =>
    (s = '+' || s = '-') && [a, b, c, d].all Char.isDigit &&
      foldDigits 0 [a, b] ≤ 24 && foldDigits 0 [c, d] < 60
  | _ => false

/-- Whether a text is a date, or a date and a time. -/
def isTime (cs : List Char) : Bool :=
  let year := cs.takeWhile Char.isDigit
  if year.length ≠ 4 then false
  else
    let monthText := (cs.drop 5).takeWhile Char.isDigit
    let checked := (expect '-' (cs.drop 4)).bind fun r => (shortNumber 1 12 r).bind fun r =>
      (expect '-' r).bind (shortNumber 1 (daysIn (foldDigits 0 year) (foldDigits 0 monthText)))
    match checked with
    | none => false
    | some [] => true
    | some (sep :: r) =>
      let clock := (shortNumber 0 23 r).bind fun r => (expect ':' r).bind fun r =>
        (shortNumber 0 59 r).bind fun r => (expect ':' r).bind (shortNumber 0 59)
      match clock with
      | none => false
      | some r =>
        let r := match r with
          | '.' :: d :: more => if d.isDigit then (d :: more).dropWhile Char.isDigit else r
          | _ => r
        if sep = 'T' || sep = 't' then isZone r else sep = ' ' && r.isEmpty

/-! ### Binary data -/

/-- The value of a character of base 64. -/
def base64Value? (c : Char) : Option Nat :=
  if 'A' ≤ c && c ≤ 'Z' then some (c.toNat - 0x41)
  else if 'a' ≤ c && c ≤ 'z' then some (c.toNat - 0x61 + 26)
  else if c.isDigit then some (c.toNat - 0x30 + 52)
  else if c = '+' then some 62
  else if c = '/' then some 63
  else none

/-- The octets that groups of four characters of base 64 denote. -/
def base64? : List Char → Option Bytes
  | [] => some []
  | a :: b :: c :: d :: rest =>
    match base64Value? a, base64Value? b with
    | some a, some b =>
      if c = '=' && d = '=' then
        if rest.isEmpty then some [UInt8.ofNat (a * 4 + b / 16)] else none
      else
        match base64Value? c with
        | none => none
        | some c =>
          let first := UInt8.ofNat (a * 4 + b / 16)
          let second := UInt8.ofNat (b % 16 * 16 + c / 4)
          if d = '=' then (if rest.isEmpty then some [first, second] else none)
          else
            (base64Value? d).bind fun d =>
              (base64? rest).map ([first, second, UInt8.ofNat (c % 4 * 64 + d)] ++ ·)
    | _, _ => none
  | _ => none

/-! ### Resolution -/

/-- What the characters of a scalar mean. A time is looked for only if `timed`. -/
def ofText (timed : Bool) (s : String) : Datum :=
  let cs := s.toList
  match word? s with
  | some d => d
  | none =>
    match cs with
    | [] => .null
    | c :: _ =>
      if c = '.' then
        match decimal? cs with
        | some x => .float x
        | none => .text s
      else if c.isDigit || c = '+' || c = '-' then
        if timed && isTime cs then .time
        else
          let plain := cs.filter (· != '_')
          match integer? plain with
          | some n => .integer n
          | none =>
            match decimal? plain with
            | some x => .float x
            | none =>
              match (marked? ['0', 'b'] 2 plain).or (marked? ['0', 'o'] 8 plain) with
              | some n => .integer n
              | none => .text s
      else .text s

/-- The value of a scalar; `none` if it is not what its tag asks for. -/
def resolve? (style : Style) (tag s : String) : Option Datum :=
  if tag = "" || tag = "!" then
    if style = .plain then some (ofText true s) else some (.text s)
  else if tag = "!!str" then some (.text s)
  else if tag = "!!binary" then
    (base64? (s.toList.filter fun c => c != '\n' && c != '\r')).map fun bs => .text (textOf bs)
  else if tag = "!!merge" then (if s = "<<" then some (.text s) else none)
  else
    let d := ofText (tag = "!!timestamp") s
    if d.tag = tag then some d
    else
      match d with
      | .integer n =>
        if tag = "!!float" && fitsInt64 n then
          (Binary64.ofDecimal (n < 0) n.natAbs 0).map .float
        else none
      | _ => none

end Datum

end LanguageClient.Yaml
