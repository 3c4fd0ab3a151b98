import LanguageClient.Error

/-! # Flags.

A flag is given as `--name value`, `--name=value` or, for a switch, as `--name`
alone; some have a short form of one letter, and several of those can stand
together. A later value replaces an earlier one. What is no flag, and all
behind `--`, are the arguments. -/

namespace LanguageClient.CommandLine

/-- What a flag is set to. -/
inductive FlagKind where
  | text
  | switch
  | duration
  deriving DecidableEq, Repr

structure Flag where
  name : String
  letter : Option Char := none
  kind : FlagKind
  usage : String
  /-- The position of a switch that is not mentioned. -/
  initially : Bool := false
  deriving DecidableEq, Repr

inductive Value where
  | text (s : String)
  | switch (on : Bool)
  | duration (d : Duration)
  deriving DecidableEq, Repr

/-- The flags that were given, a later one before an earlier one, and the
arguments. -/
structure Arguments where
  values : List (String × Value) := []
  rest : List String := []

namespace Arguments

def given (a : Arguments) (name : String) : Bool := (a.values.lookup name).isSome

/-- The text of a flag, empty if it was not given. -/
def text (a : Arguments) (name : String) : String :=
  match a.values.lookup name with
  | some (.text s) => s
  | _ => ""

def switch (a : Arguments) (name : String) (initially : Bool) : Bool :=
  match a.values.lookup name with
  | some (.switch on) => on
  | _ => initially

end Arguments

namespace Flag

/-- A flag as complaints call it. -/
def title (f : Flag) : String :=
  match f.letter with
  | some c => "-" ++ String.singleton c ++ ", --" ++ f.name
  | none => "--" ++ f.name

def truth? (s : String) : Option Bool :=
  if s ∈ ["1", "t", "T", "TRUE", "true", "True"] then some true
  else if s ∈ ["0", "f", "F", "FALSE", "false", "False"] then some false
  else none

def read (f : Flag) (s : String) : Except Error Value :=
  let refuse (e : Error) : Except Error Value :=
    .error (.plain ("invalid argument " ++ Text.quote s ++ " for " ++ Text.quote f.title ++ " flag: " ++
      e.message))
  match f.kind with
  | .text => .ok (.text s)
  | .switch =>
    match truth? s with
    | some on => .ok (.switch on)
    | none => refuse (.notBoolean s)
  | .duration =>
    match Duration.parse s with
    | .ok d => .ok (.duration d)
    | .error e => refuse (.duration e)

/-- The value of a flag that was given without one, if that is possible. -/
def alone (f : Flag) : Option Value := if f.kind = .switch then some (.switch true) else none

end Flag

/-! ### Reading flags -/

inductive Meaning where
  | argument
  /-- Only arguments follow. -/
  | stop
  | given (values : List (String × Value))
  /-- The next word is the value of a flag; without one there is a complaint. -/
  | wants (values : List (String × Value)) (f : Flag) (complaint : String)

def byName? (flags : List Flag) (name : String) : Option Flag := flags.find? (·.name = name)

def byLetter? (flags : List Flag) (c : Char) : Option Flag := flags.find? (·.letter = some c)

/-- The parts of a text before and behind the first equals sign. -/
def splitEquals (cs : List Char) : String × Option String :=
  let name := cs.takeWhile (· ≠ '=')
  (String.ofList name,
    match cs.drop name.length with
    | _ :: value => some (String.ofList value)
    | [] => none)

def quoteChar (c : Char) : String :=
  if c = '\x27' then "'\\''" else if c = '\x22' then "'\"'"
  else "'" ++ String.ofList (Text.quoteSymbol (.char c)) ++ "'"

/-- The meaning of a flag by its name, without the dashes. -/
def longMeaning (flags : List Flag) (cs : List Char) : Except Error Meaning :=
  match cs with
  | [] => .ok .stop
  | '-' :: _ | '=' :: _ => .error (.plain ("bad flag syntax: --" ++ String.ofList cs))
  | _ =>
    let (name, value) := splitEquals cs
    match byName? flags name with
    | none => .error (.plain ("unknown flag: --" ++ name))
    | some f =>
      match value, f.alone with
      | some value, _ => (f.read value).map fun v => .given [(f.name, v)]
      | none, some v => .ok (.given [(f.name, v)])
      | none, none => .ok (.wants [] f ("flag needs an argument: --" ++ name))

/-- The first octet of a text, as a character. -/
def firstOctet (cs : List Char) : Char :=
  Char.ofNat (((utf8 (String.ofList cs)).head?.map UInt8.toNat).getD 0)

/-- The meaning of letters that stand together. -/
def shortMeaning (flags : List Flag) (found : List (String × Value)) : List Char → Except Error Meaning
  | [] => .ok (.given found)
  | c :: cs =>
    let letter := firstOctet (c :: cs)
    let all := String.ofList (c :: cs)
    match byLetter? flags letter with
    | none =>
      .error (.plain ("unknown shorthand flag: " ++ quoteChar letter ++ " in -" ++ all))
    | some f =>
      match cs, f.alone with
      | '=' :: v :: vs, _ =>
        (f.read (String.ofList (v :: vs))).map fun v => .given ((f.name, v) :: found)
      | _, some v => shortMeaning flags ((f.name, v) :: found) cs
      | [], none =>
        .ok (.wants found f ("flag needs an argument: " ++ quoteChar letter ++ " in -" ++ all))
      | cs, none => (f.read (String.ofList cs)).map fun v => .given ((f.name, v) :: found)

def meaning (flags : List Flag) (s : String) : Except Error Meaning :=
  match s.toList with
  | '-' :: '-' :: cs => longMeaning flags cs
  | '-' :: c :: cs =>
    if "test.".toList.isPrefixOf (c :: cs) then .ok (.given []) else shortMeaning flags [] (c :: cs)
  | _ => .ok .argument

def parseFlags (flags : List Flag) : Arguments → List String → Except Error Arguments
  | a, [] => .ok { a with rest := a.rest.reverse }
  | a, s :: words =>
    match meaning flags s with
    | .error e => .error e
    | .ok .argument => parseFlags flags { a with rest := s :: a.rest } words
    | .ok .stop => .ok { a with rest := a.rest.reverse ++ words }
    | .ok (.given values) => parseFlags flags { a with values := values ++ a.values } words
    | .ok (.wants values f complaint) =>
      match words with
      | [] => .error (.plain complaint)
      | value :: words =>
        match f.read value with
        | .error e => .error e
        | .ok v => parseFlags flags { a with values := (f.name, v) :: values ++ a.values } words

/-! ### Looking past flags -/

/-- Whether the word behind a word is taken for the value of a flag. Flags
that are not known are taken to have one. -/
def takesNext (flags : List Flag) (s : String) : Bool :=
  match s.toList with
  | '-' :: '-' :: cs => !cs.contains '=' && !(byName? flags (String.ofList cs)).any (·.alone.isSome)
  | ['-', c] => c ≠ '=' && c.toNat < 0x80 && !(byLetter? flags c).any (·.alone.isSome)
  | _ => false

/-- The words that are neither flags nor values of flags. The value of a flag
is only passed over if there is a word behind it. -/
def withoutFlags (flags : List Flag) : List String → List String
  | [] => []
  | s :: words =>
    if s = "--" then []
    else if takesNext flags s then
      match words with
      | _ :: next :: words => withoutFlags flags (next :: words)
      | _ => []
    else if s ≠ "" && !s.startsWith "-" then s :: withoutFlags flags words
    else withoutFlags flags words

/-- The words without the first one that is `x` and no flag or value of one. -/
def eraseWord (flags : List Flag) (x : String) : List String → List String
  | [] => []
  | s :: words =>
    if s = "--" then s :: words
    else if takesNext flags s then
      match words with
      | value :: words => s :: value :: eraseWord flags x words
      | [] => [s]
    else if s = x then words
    else s :: eraseWord flags x words

end LanguageClient.CommandLine
