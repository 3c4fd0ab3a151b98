import LanguageClient.Number.Decimal

/-! # Points in time.

Milliseconds since the start of 1970, in UTC, as a date and a time of day. -/

namespace LanguageClient.Log

/-- A point in time in milliseconds since the start of 1970. -/
structure Time where
  ms : Int
  deriving DecidableEq, Repr, Inhabited

namespace Time

open Number

def msPerDay : Int := 86400000

def ofDay (t : Time) : Nat := (t.ms.emod msPerDay).toNat

/-- Year, month and day. The years of 400 repeat, and a year is counted from
March, so that a leap day is its last. -/
def date (t : Time) : Int × Nat × Nat :=
  let days := t.ms.fdiv msPerDay + 719468
  let era := days.fdiv 146097
  let day := (days.emod 146097).toNat
  let year := (day - day / 1460 + day / 36524 - day / 146096) / 365
  let dayOfYear := day - (365 * year + year / 4 - year / 100)
  let m := (5 * dayOfYear + 2) / 153
  let month := if m < 10 then m + 3 else m - 9
  (era * 400 + year + (if month ≤ 2 then 1 else 0), month, dayOfYear - (153 * m + 2) / 5 + 1)

def two (n : Nat) : String := String.ofList (padded 2 n)

def clock (t : Time) : String :=
  let s := t.ofDay / 1000
  two (s / 3600) ++ ":" ++ two (s / 60 % 60) ++ ":" ++ two (s % 60)

def preciseClock (t : Time) : String :=
  t.clock ++ "." ++ String.ofList (padded 3 (t.ofDay % 1000))

def yearText (y : Int) : String :=
  (if y < 0 then "-" else "") ++ String.ofList (padded 4 y.natAbs)

def stamp (t : Time) : String :=
  let (y, m, d) := t.date
  yearText y ++ "-" ++ two m ++ "-" ++ two d ++ " " ++ t.clock

def advance (t : Time) (ms : Int) : Time := ⟨t.ms + ms⟩

end Time

end LanguageClient.Log
