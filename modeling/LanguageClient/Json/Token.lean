import LanguageClient.Text.Utf8

/-! # JSON tokens.

A JSON text is cut into tokens, each with the white space before it, so that
the text is the concatenation of its tokens and every fragment can be given
back as it was written. Strings may hold octets that are no UTF-8. -/

namespace LanguageClient.Json

inductive Kind where
  | openObject
  | closeObject
  | openArray
  | closeArray
  | colon
  | comma
  | string
  | number
  | bool (b : Bool)
  | null
  deriving DecidableEq, Repr

/-- A token, its spelling, and the white space before it. -/
structure Token where
  space : Bytes
  kind : Kind
  lexeme : Bytes
  deriving DecidableEq, Repr

def isSpace (b : UInt8) : Bool := b == 0x20 || b == 0x09 || b == 0x0A || b == 0x0D

def isDigit (b : UInt8) : Bool := 0x30 ≤ b && b ≤ 0x39

def isHex (b : UInt8) : Bool :=
  isDigit b || (0x61 ≤ b && b ≤ 0x66) || (0x41 ≤ b && b ≤ 0x46)

/-- The letters that may follow a backslash, `u` apart. -/
def isEscapeLetter (b : UInt8) : Bool :=
  b == 0x22 || b == 0x5C || b == 0x2F || b == 0x62 || b == 0x66 || b == 0x6E || b == 0x72 || b == 0x74

/-- The rest of a string behind its opening quote, up to and with the closing
one, and what follows it. `seen` holds the string so far, last octet first. -/
def stringRest (seen : Bytes) : Bytes → Option (Bytes × Bytes)
  | [] => none
  | b :: r =>
    if b == 0x22 then some ((b :: seen).reverse, r)
    else if b == 0x5C then
      match r with
      | [] => none
      | e :: r1 =>
        if isEscapeLetter e then stringRest (e :: b :: seen) r1
        else if e == 0x75 then
          match r1 with
          | h1 :: h2 :: h3 :: h4 :: r2 =>
            if isHex h1 && isHex h2 && isHex h3 && isHex h4 then
              stringRest (h4 :: h3 :: h2 :: h1 :: e :: b :: seen) r2
            else none
          | _ => none
        else none
    else if b < 0x20 then none
    else stringRest (b :: seen) r

def digits? (bs : Bytes) : Option (Bytes × Bytes) :=
  match bs.takeWhile isDigit with
  | [] => none
  | ds => some (ds, bs.dropWhile isDigit)

/-- The integer part of a number: zero, or digits that do not start with it. -/
def integerPart? : Bytes → Option (Bytes × Bytes)
  | 0x30 :: r => some ([0x30], r)
  | bs => digits? bs

def fraction? : Bytes → Option (Bytes × Bytes)
  | 0x2E :: r => (digits? r).map fun (ds, r) => (0x2E :: ds, r)
  | bs => some ([], bs)

def exponent? : Bytes → Option (Bytes × Bytes)
  | b :: r =>
    if b == 0x65 || b == 0x45 then
      match r with
      | s :: r1 =>
        if s == 0x2B || s == 0x2D then (digits? r1).map fun (ds, r) => (b :: s :: ds, r)
        else (digits? r).map fun (ds, r) => (b :: ds, r)
      | [] => none
    else some ([], b :: r)
  | [] => some ([], [])

def number? (bs : Bytes) : Option (Bytes × Bytes) :=
  let (sign, bs) : Bytes × Bytes := match bs with
    | 0x2D :: r => ([0x2D], r)
    | r => ([], r)
  (integerPart? bs).bind fun (i, bs) =>
    (fraction? bs).bind fun (f, bs) =>
      (exponent? bs).map fun (e, bs) => (sign ++ i ++ f ++ e, bs)

/-- A token at the start of a text, and what follows it. -/
def token? (space : Bytes) : Bytes → Option (Token × Bytes)
  | [] => none
  | 0x7B :: r => some (⟨space, .openObject, [0x7B]⟩, r)
  | 0x7D :: r => some (⟨space, .closeObject, [0x7D]⟩, r)
  | 0x5B :: r => some (⟨space, .openArray, [0x5B]⟩, r)
  | 0x5D :: r => some (⟨space, .closeArray, [0x5D]⟩, r)
  | 0x3A :: r => some (⟨space, .colon, [0x3A]⟩, r)
  | 0x2C :: r => some (⟨space, .comma, [0x2C]⟩, r)
  | 0x22 :: r => (stringRest [0x22] r).map fun (s, r) => (⟨space, .string, s⟩, r)
  | 0x74 :: 0x72 :: 0x75 :: 0x65 :: r => some (⟨space, .bool true, [0x74, 0x72, 0x75, 0x65]⟩, r)
  | 0x66 :: 0x61 :: 0x6C :: 0x73 :: 0x65 :: r =>
    some (⟨space, .bool false, [0x66, 0x61, 0x6C, 0x73, 0x65]⟩, r)
  | 0x6E :: 0x75 :: 0x6C :: 0x6C :: r => some (⟨space, .null, [0x6E, 0x75, 0x6C, 0x6C]⟩, r)
  | bs => (number? bs).map fun (n, r) => (⟨space, .number, n⟩, r)

/-- All tokens of a text, white space at its end dropped. Every round takes
at least one octet, so the length of the text bounds the rounds. -/
def tokensFrom (found : List Token) : Nat → Bytes → Option (List Token)
  | 0, _ => none
  | fuel + 1, bs =>
    let space := bs.takeWhile isSpace
    match bs.dropWhile isSpace with
    | [] => some found.reverse
    | rest =>
      match token? space rest with
      | none => none
      | some (t, rest) => tokensFrom (t :: found) fuel rest

def tokens? (bs : Bytes) : Option (List Token) := tokensFrom [] (bs.length + 1) bs

/-- A fragment as it was written, without the white space before it. -/
def fragment : List Token → Bytes
  | [] => []
  | t :: ts => t.lexeme ++ ts.flatMap fun t => t.space ++ t.lexeme

end LanguageClient.Json
