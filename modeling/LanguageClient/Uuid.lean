import LanguageClient.Text.Quoted
import LanguageClient.Text.Case

/-! # UUIDs.

A UUID is sixteen octets. It is read from four notations: the dashed form,
the dashed form behind `urn:uuid:`, the dashed form with one more character
on each side, and the bare 32 digits; the length of a text decides which. It
is written in the dashed form with small letters. -/

namespace LanguageClient

/-- A 128-bit identifier, by its octets. -/
structure Uuid where
  octets : Bytes
  deriving DecidableEq, Repr

namespace Uuid

/-- Why a text is no UUID. -/
inductive ParseError where
  | badLength (n : Nat)
  | badScheme (text : Bytes)
  | badFormat
  deriving DecidableEq, Repr

def ParseError.message : ParseError → String
  | .badLength n => "invalid UUID length: " ++ toString n
  | .badScheme text => "invalid urn prefix: " ++ Text.quoteSymbols (Utf8.symbols text)
  | .badFormat => "invalid UUID format"

def hexValue? (b : UInt8) : Option Nat :=
  if 0x30 ≤ b && b ≤ 0x39 then some (b.toNat - 0x30)
  else if 0x61 ≤ b && b ≤ 0x66 then some (b.toNat - 0x61 + 10)
  else if 0x41 ≤ b && b ≤ 0x46 then some (b.toNat - 0x41 + 10)
  else none

def pairs? : Bytes → Option Bytes
  | [] => some []
  | [_] => none
  | h :: l :: rest =>
    match hexValue? h, hexValue? l, pairs? rest with
    | some h, some l, some bs => some (UInt8.ofNat (h * 16 + l) :: bs)
    | _, _, _ => none

/-- The lengths of the groups of digits in the dashed form. -/
def groups : List Nat := [8, 4, 4, 4, 12]

/-- The digits of a text that starts with the dashed form. -/
def undash? : List Nat → Bytes → Option Bytes
  | [], _ => some []
  | [n], bs => some (bs.take n)
  | n :: ns, bs =>
    match bs.drop n with
    | 0x2D :: rest => (undash? ns rest).map (bs.take n ++ ·)
    | _ => none

/-- Reads the dashed form at the start of a text. -/
def ofDashed (bs : Bytes) : Except ParseError Uuid :=
  match (undash? groups bs).bind pairs? with
  | some octets => .ok ⟨octets⟩
  | none => .error .badFormat

/-- The start of the notation that names its scheme. -/
def scheme : String := "urn:uuid:"

/-- Reads a UUID in any of the four notations. -/
def parse (bs : Bytes) : Except ParseError Uuid :=
  match bs.length with
  | 36 => ofDashed bs
  | 45 =>
    if Text.sameName ((Utf8.decode (bs.take 9))) scheme.toList then ofDashed (bs.drop 9)
    else .error (.badScheme (bs.take 9))
  | 38 => ofDashed (bs.drop 1)
  | 32 =>
    match pairs? bs with
    | some octets => .ok ⟨octets⟩
    | none => .error .badFormat
  | n => .error (.badLength n)

/-- Two hexadecimal digits for each octet. -/
def digits (bs : Bytes) : List Char := bs.flatMap fun b => Text.hex 2 b.toNat

def dashed : List Nat → List Char → List Char
  | [], _ => []
  | [n], cs => cs.take n
  | n :: ns, cs => cs.take n ++ '-' :: dashed ns (cs.drop n)

/-- The dashed form with small letters. -/
def text (u : Uuid) : String := String.ofList (dashed groups (digits u.octets))

end Uuid

end LanguageClient
