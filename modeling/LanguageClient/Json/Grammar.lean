import LanguageClient.Json.Token

/-! # The grammar of JSON.

Whether tokens form one value is decided by an automaton with a stack of the
brackets that are open. A value is then its tokens: the elements of an array
and the members of an object are found by cutting at the commas outside inner
brackets. -/

namespace LanguageClient.Json

inductive Bracket where
  | object
  | array
  deriving DecidableEq, Repr

/-- What may come next. -/
inductive Expect where
  | value
  | valueOrClose
  | key
  | keyOrClose
  | colon
  | commaOrClose
  | nothing
  deriving DecidableEq, Repr

def afterValue : List Bracket → Expect × List Bracket
  | [] => (.nothing, [])
  | stack => (.commaOrClose, stack)

/-- The state behind an opening bracket; `none` if that is nested too deeply. -/
def pushBracket (limit : Option Nat) (b : Bracket) (stack : List Bracket) :
    Option (Expect × List Bracket) :=
  let deep := match limit with
    | some n => decide (n < stack.length + 1)
    | none => false
  if deep then none
  else
    match b with
    | .object => some (.keyOrClose, b :: stack)
    | .array => some (.valueOrClose, b :: stack)

/-- One step of the automaton on the start of a value. -/
def stepValue (limit : Option Nat) (stack : List Bracket) : Kind → Option (Expect × List Bracket)
  | .openObject => pushBracket limit .object stack
  | .openArray => pushBracket limit .array stack
  | .string | .number | .bool _ | .null => some (afterValue stack)
  | _ => none

def step (limit : Option Nat) : Expect × List Bracket → Kind → Option (Expect × List Bracket)
  | (.value, stack), k => stepValue limit stack k
  | (.valueOrClose, _ :: stack), .closeArray => some (afterValue stack)
  | (.valueOrClose, stack), k => stepValue limit stack k
  | (.key, stack), .string => some (.colon, stack)
  | (.keyOrClose, stack), .string => some (.colon, stack)
  | (.keyOrClose, _ :: stack), .closeObject => some (afterValue stack)
  | (.colon, stack), .colon => some (.value, stack)
  | (.commaOrClose, .object :: stack), .comma => some (.key, .object :: stack)
  | (.commaOrClose, .object :: stack), .closeObject => some (afterValue stack)
  | (.commaOrClose, .array :: stack), .comma => some (.value, .array :: stack)
  | (.commaOrClose, .array :: stack), .closeArray => some (afterValue stack)
  | _, _ => none

/-- The state behind a sequence of tokens. -/
def run (limit : Option Nat) : Expect × List Bracket → List Token → Option (Expect × List Bracket)
  | s, [] => some s
  | s, t :: ts =>
    match step limit s t.kind with
    | none => none
    | some s => run limit s ts

/-- Whether tokens form one value, nested no deeper than the limit. -/
def isValue (limit : Option Nat) (ts : List Token) : Bool :=
  run limit (.value, []) ts == some (.nothing, [])

/-- The tokens of a JSON text, if it is one. -/
def parse? (limit : Option Nat) (bs : Bytes) : Option (List Token) :=
  match tokens? bs with
  | some ts => if isValue limit ts then some ts else none
  | none => none

/-- How deep the messages of the protocol may be nested. -/
def maxDepth : Nat := 10000

/-! ### Parts of a value -/

/-- How a token changes the number of open brackets. -/
def Kind.opens : Kind → Bool
  | .openObject | .openArray => true
  | _ => false

def Kind.closes : Kind → Bool
  | .closeObject | .closeArray => true
  | _ => false

/-- Cuts tokens at the commas outside all brackets. `part` holds the current
part and `parts` those before it, both last first. -/
def cutCommas (parts : List (List Token)) (part : List Token) :
    Nat → List Token → List (List Token)
  | _, [] => (part.reverse :: parts).reverse
  | depth, t :: ts =>
    if t.kind = .comma && depth == 0 then cutCommas (part.reverse :: parts) [] depth ts
    else if t.kind.opens then cutCommas parts (t :: part) (depth + 1) ts
    else if t.kind.closes then cutCommas parts (t :: part) (depth - 1) ts
    else cutCommas parts (t :: part) depth ts

/-- The parts between the brackets of an array or an object. -/
def inside : List Token → List (List Token)
  | [] => []
  | _ :: ts =>
    match ts.dropLast with
    | [] => []
    | inner => cutCommas [] [] 0 inner

def elements (ts : List Token) : List (List Token) := inside ts

/-- The members of an object: the spelling of each name, and its value. -/
def members (ts : List Token) : List (Bytes × List Token) :=
  (inside ts).filterMap fun
    | name :: _ :: value => some (name.lexeme, value)
    | _ => none

end LanguageClient.Json
