import LanguageClient.Json.Text
import LanguageClient.Number.Binary64

/-! # JSON values without a fixed shape.

Where a message may carry anything, a value is kept as a tree. Numbers are
binary floating point numbers; one that is too large has no value. `display`
is the form in which such values appear in log lines and error messages. -/

namespace LanguageClient.Json

inductive Value where
  | null
  | bool (b : Bool)
  | number (x : Number.Binary64)
  | string (s : String)
  | array (vs : List Value)
  | object (members : List (String × Value))

/-! ### Numbers -/

/-- The decimal a number token spells: sign, digits and power of ten. -/
def decimalOf (lexeme : Bytes) : Bool × Nat × Int :=
  let cs := Utf8.decode lexeme
  let (negative, cs) := Number.splitSign cs
  let whole := cs.takeWhile Char.isDigit
  let (fraction, rest) := match cs.dropWhile Char.isDigit with
    | '.' :: r => (r.takeWhile Char.isDigit, r.dropWhile Char.isDigit)
    | r => ([], r)
  let exponent : Int := match rest with
    | _ :: r =>
      let (down, ds) := Number.splitSign r
      Number.signed down (Number.foldDigits 0 ds)
    | [] => 0
  (negative, Number.foldDigits 0 (whole ++ fraction), exponent - fraction.length)

/-- The floating point number a number token denotes. -/
def numberOf? (lexeme : Bytes) : Option Number.Binary64 :=
  let (negative, digits, power) := decimalOf lexeme
  Number.Binary64.ofDecimal negative digits power

/-- The 64-bit integer a number token denotes; it has neither a fraction nor
an exponent. -/
def integerOf? (lexeme : Bytes) : Option Int := Number.int64? (Utf8.decode lexeme)

/-! ### Trees from tokens -/

/-- A bracket that is open, with what stands in it so far, last first. -/
inductive Open where
  | array (done : List Value)
  | object (done : List (String × Value)) (name : Option String)

/-- A finished value in its place: the result, or the next item of the
innermost open bracket. -/
def place (v : Value) : List Open → Option Value × List Open
  | [] => (some v, [])
  | .array done :: stack => (none, .array (v :: done) :: stack)
  | .object done (some name) :: stack => (none, .object ((name, v) :: done) none :: stack)
  | .object done none :: stack => (none, .object done none :: stack)

/-- The value of a token that is no bracket. -/
def scalar? (t : Token) : Option Value :=
  match t.kind with
  | .string => some (.string (unquote t.lexeme))
  | .number => (numberOf? t.lexeme).map .number
  | .bool b => some (.bool b)
  | .null => some .null
  | _ => none

/-- The tree of a value, given the brackets that are open. -/
def build (result : Option Value) : List Open → List Token → Option Value
  | _, [] => result
  | stack, t :: ts =>
    match t.kind, stack with
    | .openObject, _ => build result (.object [] none :: stack) ts
    | .openArray, _ => build result (.array [] :: stack) ts
    | .closeObject, .object done _ :: stack =>
      let (result, stack) := place (.object done.reverse) stack
      build result stack ts
    | .closeArray, .array done :: stack =>
      let (result, stack) := place (.array done.reverse) stack
      build result stack ts
    | .colon, _ => build result stack ts
    | .comma, _ => build result stack ts
    | .string, .object done none :: stack =>
      build result (.object done (some (unquote t.lexeme)) :: stack) ts
    | _, _ =>
      match scalar? t with
      | none => none
      | some v =>
        let (result, stack) := place v stack
        build result stack ts

/-- The tree of a value; `none` if a number in it is too large. -/
def Value.ofTokens? (ts : List Token) : Option Value := build none [] ts

/-! ### Display -/

/-- The members of an object by name, the last one where a name repeats. -/
def lastByName (members : List (String × String)) : List (String × String) :=
  let names := members.map Prod.fst
  let distinct := names.eraseDups.mergeSort (fun a b => decide (a ≤ b))
  distinct.filterMap fun name => members.reverse.find? (·.1 == name)

mutual

/-- The form of a value in log lines and messages. -/
def Value.display : Value → String
  | .null => "<nil>"
  | .bool true => "true"
  | .bool false => "false"
  | .number x => x.text
  | .string s => s
  | .array vs => "[" ++ String.intercalate " " (displayAll vs) ++ "]"
  | .object ms =>
    "map[" ++
      String.intercalate " " ((lastByName (displayMembers ms)).map fun (k, v) => k ++ ":" ++ v) ++
      "]"

def displayAll : List Value → List String
  | [] => []
  | v :: vs => v.display :: displayAll vs

def displayMembers : List (String × Value) → List (String × String)
  | [] => []
  | (k, v) :: ms => (k, v.display) :: displayMembers ms

end

end LanguageClient.Json
