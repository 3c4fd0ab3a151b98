import LanguageClient.Number.Decimal

/-! # Binary floating point numbers of 64 bits.

A finite number is `mantissa · 2 ^ exponent` with a mantissa below `2 ^ 53`
and an exponent of at least `-1074`. Rounding goes to the nearest such
number, a tie to the one with an even mantissa. All arithmetic is exact, on
natural numbers.

`shortest` finds the fewest decimal digits that read back as the same
number: for one digit, two digits, … it tests the two neighbours of the
value on that decimal grid. -/

namespace LanguageClient.Number

/-- A finite binary floating point number. -/
structure Binary64 where
  negative : Bool
  mantissa : Nat
  exponent : Int
  deriving DecidableEq, Repr

namespace Binary64

/-- `a / b` rounded to the nearest natural number, a tie to the even one. -/
def roundDiv (a b : Nat) : Nat :=
  let q := a / b
  let r := a % b
  if 2 * r < b then q else if b < 2 * r then q + 1 else if q % 2 = 0 then q else q + 1

/-- Numerator and denominator of `num / den / 2 ^ e`. -/
def scaled (num den : Nat) (e : Int) : Nat × Nat :=
  match e with
  | .ofNat k => (num, den * Nat.pow 2 k)
  | .negSucc k => (num * Nat.pow 2 (k + 1), den)

/-- The exponent at which `num / den` has a mantissa of 53 bits, or `-1074`
if that is larger. -/
def exponentOf (num den : Nat) : Int :=
  let guess : Int := (Nat.log2 num : Int) - (Nat.log2 den : Int) - 52
  let fits (e : Int) : Bool :=
    let (n, d) := scaled num den e
    n < d * Nat.pow 2 53
  let e := if fits (guess - 1) then guess - 1 else if fits guess then guess else guess + 1
  max e (-1074)

/-- Mantissa and exponent of the number nearest to `num / den`. -/
def round (num den : Nat) : Nat × Int :=
  if num = 0 then (0, -1074)
  else
    let e := exponentOf num den
    let (n, d) := scaled num den e
    let m := roundDiv n d
    if m = Nat.pow 2 53 then (Nat.pow 2 52, e + 1) else (m, e)

/-- The number nearest to a decimal `digits · 10 ^ power`; `none` if it is
too large for a finite number. -/
def ofDecimal (negative : Bool) (digits : Nat) (power : Int) : Option Binary64 :=
  let size : Int := (natText digits).length + power
  if digits = 0 || size < -400 then some ⟨negative, 0, -1074⟩
  else if 400 < size then none
  else
    let (m, e) :=
      match power with
      | .ofNat k => round (digits * Nat.pow 10 k) 1
      | .negSucc k => round digits (Nat.pow 10 (k + 1))
    if 971 < e then none else some ⟨negative, m, e⟩

/-- Numerator and denominator of the absolute value. -/
def ratio (x : Binary64) : Nat × Nat :=
  match x.exponent with
  | .ofNat k => (x.mantissa * Nat.pow 2 k, 1)
  | .negSucc k => (x.mantissa, Nat.pow 2 (k + 1))

/-- The interval of reals that round to `x`, its ends and its value counted
in quarters of the last place. -/
def quarters (x : Binary64) : Nat × Nat × Nat :=
  let v := 4 * x.mantissa
  let low := if x.mantissa = Nat.pow 2 52 && x.exponent != -1074 then v - 1 else v - 2
  (low, v, v + 2)

/-- The multiple of `10 ^ power` that is nearest to `x` among its two
neighbours on that grid, if one of them rounds to `x`. -/
def onGrid? (x : Binary64) (power : Int) : Option Nat :=
  let (low, v, high) := x.quarters
  -- everything is counted in units of `2 ^ (exponent - 2) / den`
  let (two, den2) := match x.exponent - 2 with
    | .ofNat k => (Nat.pow 2 k, 1)
    | .negSucc k => (1, Nat.pow 2 (k + 1))
  let (ten, den10) := match power with
    | .ofNat k => (Nat.pow 10 k, 1)
    | .negSucc k => (1, Nat.pow 10 (k + 1))
  let unit := two * den10
  let step := ten * den2
  let value := v * unit
  let below := value / step
  let inside (k : Nat) : Bool :=
    if x.mantissa % 2 = 0 then low * unit ≤ k * step && k * step ≤ high * unit
    else low * unit < k * step && k * step < high * unit
  let belowIn := below != 0 && inside below
  let aboveIn := inside (below + 1)
  if belowIn && aboveIn then
    if 2 * value < (2 * below + 1) * step then some below
    else if (2 * below + 1) * step < 2 * value then some (below + 1)
    else if below % 2 = 0 then some below else some (below + 1)
  else if belowIn then some below
  else if aboveIn then some (below + 1)
  else none

/-- Tries the decimal grids from `10 ^ power` downwards. -/
def searchGrid (x : Binary64) : Nat → Int → Nat × Int
  | 0, power => ((x.onGrid? power).getD 0, power)
  | fuel + 1, power =>
    match x.onGrid? power with
    | some k => (k, power)
    | none => searchGrid x fuel (power - 1)

/-- The fewest decimal digits that round to `x`, as `digits · 10 ^ power`
with a last digit other than zero. -/
def shortest (x : Binary64) : List Char × Int :=
  if x.mantissa = 0 then (['0'], 0)
  else
    let (num, den) := x.ratio
    -- the decimal size of the value, at most one too large
    let size : Int := ((natText num).length : Int) - (natText den).length + 1
    let (k, power) := searchGrid x 20 size
    let ds := natText k
    let zeros := (ds.reverse.takeWhile (· == '0')).length
    (ds.take (ds.length - zeros), power + zeros)

def exponentText (e : Int) : List Char :=
  'e' :: (if e < 0 then '-' else '+') :: padded 2 e.natAbs

/-- Whether a number of this decimal exponent is written positionally. -/
def isPositional (exponent : Int) : Bool := -4 ≤ exponent && exponent < 6

/-- The usual text of a number: the fewest digits that read back, positional
for the exponents of `isPositional` and with an exponent otherwise. -/
def text (x : Binary64) : String :=
  let (ds, power) := x.shortest
  let exponent : Int := power + ds.length - 1
  let body : List Char :=
    if x.mantissa ≠ 0 && !isPositional exponent then
      (match ds with
        | [] => []
        | d :: [] => [d]
        | d :: rest => d :: '.' :: rest) ++ exponentText exponent
    else if 0 ≤ power then
      ds ++ List.replicate power.toNat '0'
    else
      let point := ds.length - power.natAbs
      if power.natAbs < ds.length then ds.take point ++ '.' :: ds.drop point
      else '0' :: '.' :: List.replicate (power.natAbs - ds.length) '0' ++ ds
  String.ofList (if x.negative then '-' :: body else body)

end Binary64

end LanguageClient.Number
