import LanguageClient.Text.Printable
import LanguageClient.Text.Utf8

/-! # Quoted text.

Texts from outside appear in messages between double quotes, with escapes for
the quote, the backslash, control characters, whatever is not printable and
stray octets. -/

namespace LanguageClient.Text

/-- A hexadecimal digit, `0`–`9` or `a`–`f`. -/
def hexDigit (n : Nat) : Char :=
  if n < 10 then Char.ofNat (0x30 + n) else Char.ofNat (0x61 + (n - 10))

/-- The last `width` hexadecimal digits of `n`. -/
def hex : Nat → Nat → List Char
  | 0, _ => []
  | width + 1, n => hex width (n / 16) ++ [hexDigit (n % 16)]

def quoteSymbol : Symbol → List Char
  | .stray b => '\\' :: 'x' :: hex 2 b.toNat
  | .char c =>
    let n := c.toNat
    if c = '\x22' then ['\\', '\x22']
    else if c = '\\' then ['\\', '\\']
    else if isPrintable c then [c]
    else if n = 0x07 then ['\\', 'a']
    else if n = 0x08 then ['\\', 'b']
    else if n = 0x0C then ['\\', 'f']
    else if n = 0x0A then ['\\', 'n']
    else if n = 0x0D then ['\\', 'r']
    else if n = 0x09 then ['\\', 't']
    else if n = 0x0B then ['\\', 'v']
    else if n < 0x20 || n = 0x7F then '\\' :: 'x' :: hex 2 n
    else if n < 0x10000 then '\\' :: 'u' :: hex 4 n
    else '\\' :: 'U' :: hex 8 n

/-- Symbols between double quotes. -/
def quoteSymbols (l : List Symbol) : String :=
  String.ofList ('\x22' :: l.flatMap quoteSymbol ++ ['\x22'])

def quote (s : String) : String := quoteSymbols (s.toList.map .char)

end LanguageClient.Text
