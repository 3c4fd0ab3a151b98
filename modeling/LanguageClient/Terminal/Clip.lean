import LanguageClient.Text.Utf8

/-! # Cutting lines to a length. -/

namespace LanguageClient.Terminal

/-- A symbol as a character. -/
def whole (x : Symbol) : Symbol := .char x.toChar

/-- At most `n` characters of a line; three dots show that something is
missing, if there is room for more than those. A line that fits stays as it
is, and in one that is cut a stray octet becomes a replacement. -/
def clip (n : Nat) (line : List Symbol) : List Symbol :=
  if line.length ≤ n then line
  else if n ≤ 3 then (line.take n).map whole
  else (line.take (n - 3)).map whole ++ List.replicate 3 (.char '.')

/-- Cutting to a length that may be negative, which is no length. -/
def clip? (n : Int) (line : List Symbol) : Option (List Symbol) :=
  if n < 0 then none else some (clip n.toNat line)

/-- Cutting a line that is given by its octets. -/
def clipOctets? (n : Int) (line : Bytes) : Option Bytes :=
  (clip? n (Utf8.symbols line)).map (·.flatMap Symbol.bytes)

end LanguageClient.Terminal
