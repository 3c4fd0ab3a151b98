import LanguageClient.Text.Utf8

/-! # White space.

White space is the Unicode property, which `Char.isWhitespace` covers only in
part. Trimming works on symbols: a stray octet is never blank. -/

namespace LanguageClient.Text

/-- Characters with the White_Space property. -/
def isBlank (c : Char) : Bool :=
  let n := c.toNat
  (0x09 ≤ n && n ≤ 0x0D) || n == 0x20 || n == 0x85 || n == 0xA0 || n == 0x1680 ||
    (0x2000 ≤ n && n ≤ 0x200A) || n == 0x2028 || n == 0x2029 || n == 0x202F ||
    n == 0x205F || n == 0x3000

def trimBoth (p : α → Bool) (l : List α) : List α :=
  ((l.dropWhile p).reverse.dropWhile p).reverse

/-- A text without the white space around it. -/
def trim (s : String) : String := String.ofList (trimBoth isBlank s.toList)

end LanguageClient.Text

namespace LanguageClient.Symbol

/-- Whether the symbol is a white space character. -/
def isBlank : Symbol → Bool
  | .char c => Text.isBlank c
  | .stray _ => false

end LanguageClient.Symbol
