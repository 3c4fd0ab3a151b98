import LanguageClient.Json.Grammar
import LanguageClient.Text.Quoted

/-! # Strings inside JSON.

`unquote` gives the text a string token denotes: escapes are resolved, and
what is no character (an unpaired surrogate, a stray octet) becomes the
replacement character. `quote` writes a text as a string token; characters
that are special in markup and the two line separators are escaped too, so
that the result can stand inside a page. `compact` brings a value that was
written by someone else into the same form. -/

namespace LanguageClient.Json

/-! ### Reading -/

def hexValue (c : Char) : Nat :=
  let n := c.toNat
  if n < 0x3A then n - 0x30 else if n < 0x47 then n - 0x41 + 10 else n - 0x61 + 10

/-- The number four hexadecimal digits denote. -/
def unit (a b c d : Char) : Nat :=
  ((hexValue a * 16 + hexValue b) * 16 + hexValue c) * 16 + hexValue d

def isHighSurrogate (n : Nat) : Bool := 0xD800 ≤ n && n < 0xDC00

def isLowSurrogate (n : Nat) : Bool := 0xDC00 ≤ n && n < 0xE000

/-- The character a unit denotes on its own. -/
def unitChar (n : Nat) : Char :=
  if isHighSurrogate n || isLowSurrogate n then Utf8.replacement else Char.ofNat n

def escapeChar (c : Char) : Char :=
  if c = 'b' then '\x08'
  else if c = 'f' then '\x0C'
  else if c = 'n' then '\n'
  else if c = 'r' then '\r'
  else if c = 't' then '\t'
  else c

/-- Resolves the escapes of the inside of a string. -/
def resolve (found : List Char) : List Char → List Char
  | [] => found.reverse
  | '\\' :: 'u' :: a :: b :: c :: d :: rest =>
    let n := unit a b c d
    if isHighSurrogate n then
      match rest with
      | '\\' :: 'u' :: e :: f :: g :: h :: rest' =>
        let m := unit e f g h
        if isLowSurrogate m then
          resolve (Char.ofNat (0x10000 + (n - 0xD800) * 0x400 + (m - 0xDC00)) :: found) rest'
        else
          resolve (Utf8.replacement :: found) ('\\' :: 'u' :: e :: f :: g :: h :: rest')
      | rest => resolve (Utf8.replacement :: found) rest
    else
      resolve (unitChar n :: found) rest
  | '\\' :: c :: rest => resolve (escapeChar c :: found) rest
  | c :: rest => resolve (c :: found) rest

/-- The text a string token denotes. -/
def unquote (lexeme : Bytes) : String :=
  String.ofList (resolve [] (Utf8.decode (lexeme.drop 1).dropLast))

/-! ### Writing -/

def ascii (cs : List Char) : Bytes := cs.map fun c => UInt8.ofNat c.toNat

def unicodeEscape (n : Nat) : List Char := '\\' :: 'u' :: Text.hex 4 n

def quoteSymbol : Symbol → Bytes
  | .stray _ => Utf8.encodeChar '\uFFFD'
  | .char c =>
    let n := c.toNat
    if c = '\x22' || c = '\\' then ascii ['\\', c]
    else if n = 0x08 then ascii ['\\', 'b']
    else if n = 0x0C then ascii ['\\', 'f']
    else if n = 0x0A then ascii ['\\', 'n']
    else if n = 0x0D then ascii ['\\', 'r']
    else if n = 0x09 then ascii ['\\', 't']
    else if n < 0x20 || c = '<' || c = '>' || c = '&' || n = 0x2028 || n = 0x2029 then
      ascii (unicodeEscape n)
    else Utf8.encodeChar c

/-- Symbols as a string token. -/
def quoteSymbols (l : List Symbol) : Bytes := 0x22 :: l.flatMap quoteSymbol ++ [0x22]

def quote (s : String) : Bytes := quoteSymbols (s.toList.map .char)

/-- Octets as a string token; stray ones become the replacement character. -/
def quoteBytes (bs : Bytes) : Bytes := quoteSymbols (Utf8.symbols bs)

/-- A token with markup characters and line separators escaped. -/
def escapeMarkup (found : Bytes) : Bytes → Bytes
  | [] => found.reverse
  | 0xE2 :: 0x80 :: 0xA8 :: r => escapeMarkup ((ascii (unicodeEscape 0x2028)).reverse ++ found) r
  | 0xE2 :: 0x80 :: 0xA9 :: r => escapeMarkup ((ascii (unicodeEscape 0x2029)).reverse ++ found) r
  | b :: r =>
    if b == 0x3C || b == 0x3E || b == 0x26 then
      escapeMarkup ((ascii (unicodeEscape b.toNat)).reverse ++ found) r
    else escapeMarkup (b :: found) r

/-- A value without white space between its tokens, and with markup characters
and line separators escaped. -/
def compact (ts : List Token) : Bytes := ts.flatMap fun t => escapeMarkup [] t.lexeme

end LanguageClient.Json
