import LanguageClient.Number.Binary64
import LanguageClient.Text.Quoted

/-! # Durations.

A duration is a count of nanoseconds of 64 bits. Its text is a sequence of
numbers with units (`1h30m`, `1.5s`, `-200ms`); the printed form has hours,
minutes and seconds from one second on and a single unit below that. -/

namespace LanguageClient

/-- A length of time in nanoseconds. -/
structure Duration where
  nanoseconds : Int
  deriving DecidableEq, Repr, Inhabited

namespace Duration

def ofMillis (ms : Int) : Duration := ⟨ms * 1000000⟩

def ofSeconds (s : Int) : Duration := ⟨s * 1000000000⟩

/-! ### Reading -/

/-- Why a text is no duration. -/
inductive ParseError where
  | malformed (text : String)
  | missingUnit (text : String)
  | unknownUnit (unit text : String)
  deriving DecidableEq, Repr

/-- A text between quotes: octets outside printable ASCII as `\x..`. -/
def quote (s : String) : String :=
  let body := (utf8 s).flatMap fun b =>
    if b ≥ 0x80 || b < 0x20 then '\\' :: 'x' :: Text.hex 2 b.toNat
    else if b = 0x22 || b = 0x5C then ['\\', Char.ofNat b.toNat]
    else [Char.ofNat b.toNat]
  String.ofList ('\x22' :: body ++ ['\x22'])

def ParseError.message : ParseError → String
  | .malformed text => "time: invalid duration " ++ quote text
  | .missingUnit text => "time: missing unit in duration " ++ quote text
  | .unknownUnit unit text =>
    "time: unknown unit " ++ quote unit ++ " in duration " ++ quote text

/-- The nanoseconds of a unit. -/
def unit? (name : List Char) : Option Nat :=
  match String.ofList name with
  | "ns" => some 1
  | "us" => some 1000
  | "\u00B5s" => some 1000
  | "\u03BCs" => some 1000
  | "ms" => some 1000000
  | "s" => some 1000000000
  | "m" => some 60000000000
  | "h" => some 3600000000000
  | _ => none

def bound : Nat := Nat.pow 2 63

/-- The integer part of a number; `none` if it exceeds the bound. -/
def integerPart? (ds : List Char) : Option Nat :=
  let n := Number.foldDigits 0 ds
  if n ≤ bound then some n else none

/-- The digits of a fraction that count: those that keep the number they
form within the bound. -/
def fractionDigits : Nat → Nat → List Char → Nat × Nat
  | n, places, [] => (n, places)
  | n, places, d :: ds =>
    if (bound - 1) / 10 < n || bound < n * 10 + Number.digitValue d then (n, places)
    else fractionDigits (n * 10 + Number.digitValue d) (places + 1) ds

/-- The nanoseconds of a fraction `digits / 10 ^ places` of a unit, computed
in binary floating point and cut to a whole number. -/
def fractionOf (unit digits places : Nat) : Nat :=
  let (m1, e1) := Number.Binary64.round digits 1
  let (m2, e2) := Number.Binary64.round unit (Nat.pow 10 places)
  let exact : Number.Binary64 := ⟨false, m1 * m2, e1 + e2⟩
  let (m, e) := Number.Binary64.round exact.ratio.1 exact.ratio.2
  let (num, den) := (⟨false, m, e⟩ : Number.Binary64).ratio
  num / den

/-- Characters that end a unit name. -/
def endsUnit (c : Char) : Bool := c == '.' || c.isDigit

/-- Reads the numbers with units that make up a duration, adding to `total`.
Each round consumes at least one character, so the text's length bounds the
rounds. -/
def components (whole : String) : Nat → Nat → List Char → Except ParseError Nat
  | _, total, [] => .ok total
  | 0, _, _ :: _ => .error (.malformed whole)
  | fuel + 1, total, c :: cs =>
    if !endsUnit c then .error (.malformed whole)
    else
      let text := c :: cs
      let intDigits := text.takeWhile Char.isDigit
      let afterInt := text.dropWhile Char.isDigit
      let (fracDigits, rest) := match afterInt with
        | '.' :: r => (r.takeWhile Char.isDigit, r.dropWhile Char.isDigit)
        | r => ([], r)
      match integerPart? intDigits with
      | none => .error (.malformed whole)
      | some n =>
        if intDigits.isEmpty && fracDigits.isEmpty then .error (.malformed whole)
        else
          let name := rest.takeWhile (!endsUnit ·)
          let rest := rest.dropWhile (!endsUnit ·)
          if name.isEmpty then .error (.missingUnit whole)
          else
            match unit? name with
            | none => .error (.unknownUnit (String.ofList name) whole)
            | some unit =>
              if bound / unit < n then .error (.malformed whole)
              else
                let (f, places) := fractionDigits 0 0 fracDigits
                let v := n * unit + (if f = 0 then 0 else fractionOf unit f places)
                -- the running total is a word of 64 bits
                let sum := (total + v) % Nat.pow 2 64
                if bound < v || bound < sum then .error (.malformed whole)
                else components whole fuel sum rest

def parse (s : String) : Except ParseError Duration :=
  let (negative, body) := Number.splitSign s.toList
  if body = ['0'] then .ok ⟨0⟩
  else if body = [] then .error (.malformed s)
  else
    match components s body.length 0 body with
    | .error e => .error e
    | .ok n =>
      if negative then .ok ⟨-(n : Int)⟩
      else if bound ≤ n then .error (.malformed s)
      else .ok ⟨n⟩

/-! ### Printing -/

/-- `n / 10 ^ places` in decimal without trailing zeros in the fraction. -/
def decimalText (n places : Nat) : List Char :=
  let whole := Number.natText (n / Nat.pow 10 places)
  let fraction := Number.padded places (n % Nat.pow 10 places)
  let kept := (fraction.reverse.dropWhile (· == '0')).reverse
  if places = 0 || kept = [] then whole else whole ++ '.' :: kept

def text (d : Duration) : String :=
  let n := d.nanoseconds.natAbs
  let body : List Char :=
    if n = 0 then ['0', 's']
    else if n < 1000 then decimalText n 0 ++ ['n', 's']
    else if n < 1000000 then decimalText n 3 ++ ['\u00B5', 's']
    else if n < 1000000000 then decimalText n 6 ++ ['m', 's']
    else
      let minutes := n / 60000000000
      let seconds := decimalText (n % 60000000000) 9 ++ ['s']
      if minutes = 0 then seconds
      else if minutes < 60 then Number.natText minutes ++ 'm' :: seconds
      else
        Number.natText (minutes / 60) ++ 'h' :: Number.natText (minutes % 60) ++ 'm' :: seconds
  String.ofList (if d.nanoseconds < 0 then '-' :: body else body)

end Duration

end LanguageClient
