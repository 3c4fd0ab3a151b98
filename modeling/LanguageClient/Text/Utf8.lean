/-! # UTF-8: octets and characters.

Files, pipes and sockets carry octets; names and messages are text. Decoding
never fails: an octet that belongs to no well-formed sequence becomes a
`stray` symbol, so nothing is lost and every position of the input is
accounted for.

* `symbols`  — octets to symbols, nothing lost;
* `decode`   — octets to characters, each stray octet as `replacement`;
* `encode`   — characters to octets;
* `isValid`  — no stray octet occurs. -/

namespace LanguageClient

/-- Raw octets, as files, pipes and sockets carry them. -/
abbrev Bytes := List UInt8

/-- A decoded character, or an octet that is part of none. -/
inductive Symbol where
  | char (c : Char)
  | stray (b : UInt8)
  deriving DecidableEq, Repr, Inhabited

namespace Utf8

/-- The character shown in place of a stray octet. -/
def replacement : Char := '\uFFFD'

/-- Octets `10xxxxxx`, which continue a sequence. -/
def isContinuation (b : UInt8) : Bool := 0x80 ≤ b && b ≤ 0xBF

/-- The six payload bits of a continuation octet. -/
def payload (b : UInt8) : Nat := b.toNat - 0x80

def two? (b0 b1 : UInt8) : Option Char :=
  if 0xC2 ≤ b0 && b0 ≤ 0xDF && isContinuation b1 then
    some (Char.ofNat ((b0.toNat - 0xC0) * 64 + payload b1))
  else
    none

/-- The character of a three-octet sequence. Overlong forms and surrogates
are refused through the range of the second octet. -/
def three? (b0 b1 b2 : UInt8) : Option Char :=
  let low : UInt8 := if b0 = 0xE0 then 0xA0 else 0x80
  let high : UInt8 := if b0 = 0xED then 0x9F else 0xBF
  if 0xE0 ≤ b0 && b0 ≤ 0xEF && low ≤ b1 && b1 ≤ high && isContinuation b2 then
    some (Char.ofNat ((b0.toNat - 0xE0) * 4096 + payload b1 * 64 + payload b2))
  else
    none

def four? (b0 b1 b2 b3 : UInt8) : Option Char :=
  let low : UInt8 := if b0 = 0xF0 then 0x90 else 0x80
  let high : UInt8 := if b0 = 0xF4 then 0x8F else 0xBF
  if 0xF0 ≤ b0 && b0 ≤ 0xF4 && low ≤ b1 && b1 ≤ high && isContinuation b2 && isContinuation b3 then
    some (Char.ofNat
      ((b0.toNat - 0xF0) * 262144 + payload b1 * 4096 + payload b2 * 64 + payload b3))
  else
    none

/-- The symbols of an octet string, put behind those already found (which
`found` holds last first). -/
def symbolsFrom (found : List Symbol) : Bytes → List Symbol
  | [] => found.reverse
  | b0 :: r0 =>
    if b0 < 0x80 then
      symbolsFrom (.char (Char.ofNat b0.toNat) :: found) r0
    else
      match r0 with
      | [] => symbolsFrom (.stray b0 :: found) []
      | b1 :: r1 =>
        match two? b0 b1 with
        | some c => symbolsFrom (.char c :: found) r1
        | none =>
          match r1 with
          | [] => symbolsFrom (.stray b0 :: found) (b1 :: [])
          | b2 :: r2 =>
            match three? b0 b1 b2 with
            | some c => symbolsFrom (.char c :: found) r2
            | none =>
              match r2 with
              | [] => symbolsFrom (.stray b0 :: found) (b1 :: b2 :: [])
              | b3 :: r3 =>
                match four? b0 b1 b2 b3 with
                | some c => symbolsFrom (.char c :: found) r3
                | none => symbolsFrom (.stray b0 :: found) (b1 :: b2 :: b3 :: r3)

def symbols (bs : Bytes) : List Symbol := symbolsFrom [] bs

def encodeChar (c : Char) : Bytes := String.utf8EncodeChar c

def encode (cs : List Char) : Bytes := cs.flatMap encodeChar

end Utf8

namespace Symbol

/-- A symbol as a character; a stray octet is shown as `Utf8.replacement`. -/
def toChar : Symbol → Char
  | .char c => c
  | .stray _ => Utf8.replacement

def bytes : Symbol → Bytes
  | .char c => Utf8.encodeChar c
  | .stray b => [b]

def isChar : Symbol → Bool
  | .char _ => true
  | .stray _ => false

end Symbol

namespace Utf8

/-- The characters of an octet string, one `replacement` for each stray octet. -/
def decode (bs : Bytes) : List Char := (symbols bs).map Symbol.toChar

/-- Whether an octet string is the encoding of a text. -/
def isValid (bs : Bytes) : Bool := (symbols bs).all Symbol.isChar

end Utf8

def utf8 (s : String) : Bytes := Utf8.encode s.toList

/-- The text of an octet string, one `Utf8.replacement` for each stray octet. -/
def textOf (bs : Bytes) : String := String.ofList (Utf8.decode bs)

end LanguageClient
