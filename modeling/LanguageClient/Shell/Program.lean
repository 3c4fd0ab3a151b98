import LanguageClient.Shell.Token

/-! # Shell programs.

A program is a tree of commands: simple commands, lists of them, conditions,
loops and groups. -/

namespace LanguageClient.Shell

/-- Where the output of a command goes. -/
inductive Destination where
  | output
  | errors
  | nowhere
  deriving DecidableEq, Repr

/-- A change to a stream of a command. -/
inductive Redirection where
  /-- The output with this number goes elsewhere. -/
  | send (stream : Nat) (target : Word) (duplicate : Bool)
  /-- The input is taken from a file. -/
  | take (source : Word)
  deriving DecidableEq, Repr

inductive Command where
  | nothing
  | simple (line : Nat) (words : List Word) (redirections : List Redirection)
  | sequence (first second : Command)
  | both (first second : Command)
  | either (first second : Command)
  | negate (c : Command)
  /-- Repeats a body as long as a condition ends well, or as long as it does
  not. -/
  | loop (whileWell : Bool) (condition body : Command)
  | branch (condition yes no : Command)
  /-- Runs a body once for each value of a variable: for each field of some
  words, or for each argument. -/
  | each (name : String) (words : Option (List Word)) (body : Command)

def bareText? (w : Word) : Option String :=
  (w.mapM fun
    | .char c false => some c
    | _ => none : Option (List Char)).map String.ofList

def reserved? : List Token → Option String
  | .word _ w :: _ => bareText? w
  | _ => none

def skipSeparators : List Token → List Token
  | .operator op :: ts => if op = ";" || op = "\n" || op = "&" then skipSeparators ts else .operator op :: ts
  | ts => ts

/-- The number in front of a redirection, and the redirection. -/
def splitRedirection (op : String) : Option Nat × String :=
  let ds := op.toList.takeWhile Char.isDigit
  (if ds.isEmpty then none else some (ds.foldl (fun n d => n * 10 + (d.toNat - '0'.toNat)) 0),
    String.ofList (op.toList.dropWhile Char.isDigit))

/-- The words and redirections of a simple command. -/
def simpleParts : List Token → List Word × List Redirection × List Token
  | .word _ w :: ts =>
    let (ws, rs, rest) := simpleParts ts
    (w :: ws, rs, rest)
  | .operator op :: .word line w :: ts =>
    let (stream, kind) := splitRedirection op
    if kind = ">" || kind = ">>" || kind = ">&" then
      let (ws, rs, rest) := simpleParts ts
      (ws, .send (stream.getD 1) w (kind = ">&") :: rs, rest)
    else if kind = "<" then
      let (ws, rs, rest) := simpleParts ts
      (ws, .take w :: rs, rest)
    else ([], [], .operator op :: .word line w :: ts)
  | ts => ([], [], ts)

/-- The line of the first word. -/
def firstLine : List Token → Nat
  | .word line _ :: _ => line
  | _ => 1

mutual

/-- A list of commands, up to a reserved word that ends it or the end. -/
def parseList : Nat → List String → List Token → Option (Command × List Token)
  | 0, _, _ => none
  | fuel + 1, stop, ts =>
    match skipSeparators ts with
    | [] => some (.nothing, [])
    | ts =>
      if (reserved? ts).any stop.contains then some (.nothing, ts)
      else do
        let (first, ts) ← parseChain fuel ts
        let (rest, ts) ← parseList fuel stop ts
        return (.sequence first rest, ts)

/-- Commands joined by `&&` and `||`. -/
def parseChain : Nat → List Token → Option (Command × List Token)
  | 0, _ => none
  | fuel + 1, ts => do
    let (first, ts) ← parseCommand fuel ts
    parseChainFrom fuel first ts

def parseChainFrom : Nat → Command → List Token → Option (Command × List Token)
  | 0, _, _ => none
  | fuel + 1, first, ts =>
    match ts with
    | .operator "&&" :: ts => do
      let (second, ts) ← parseCommand fuel ts
      parseChainFrom fuel (.both first second) ts
    | .operator "||" :: ts => do
      let (second, ts) ← parseCommand fuel ts
      parseChainFrom fuel (.either first second) ts
    | ts => some (first, ts)

def parseCommand : Nat → List Token → Option (Command × List Token)
  | 0, _ => none
  | fuel + 1, ts =>
    match reserved? ts, ts with
    | some "while", _ :: ts => parseLoop fuel true ts
    | some "until", _ :: ts => parseLoop fuel false ts
    | some "if", _ :: ts => parseBranch fuel ts
    | some "for", .word _ _ :: .word _ w :: ts => parseEach fuel w ts
    | some "\x7b", _ :: ts => do
      let (c, ts) ← parseList fuel ["\x7d"] ts
      if (reserved? ts) = some "\x7d" then return (c, ts.drop 1) else none
    | some "!", _ :: ts => do
      let (c, ts) ← parseCommand fuel ts
      return (.negate c, ts)
    | _, _ =>
      match simpleParts ts with
      | ([], [], _) => none
      | (ws, rs, rest) => some (.simple (firstLine ts) ws rs, rest)

def parseLoop : Nat → Bool → List Token → Option (Command × List Token)
  | 0, _, _ => none
  | fuel + 1, whileWell, ts => do
    let (condition, ts) ← parseList fuel ["do"] ts
    let (body, ts) ← parseList fuel ["done"] (ts.drop 1)
    if (reserved? ts) = some "done" then return (.loop whileWell condition body, ts.drop 1) else none

def parseEach : Nat → Word → List Token → Option (Command × List Token)
  | 0, _, _ => none
  | fuel + 1, w, ts => do
    let name ← bareText? w
    let (words, ts) := match reserved? (skipSeparators ts) with
      | some "in" =>
        let (ws, _, rest) := simpleParts ((skipSeparators ts).drop 1)
        (some ws, rest)
      | _ => (none, ts)
    let ts := skipSeparators ts
    if (reserved? ts) = some "do" then
      let (body, ts) ← parseList fuel ["done"] (ts.drop 1)
      if (reserved? ts) = some "done" then return (.each name words body, ts.drop 1) else none
    else none

def parseBranch : Nat → List Token → Option (Command × List Token)
  | 0, _ => none
  | fuel + 1, ts => do
    let (condition, ts) ← parseList fuel ["then"] ts
    let (yes, ts) ← parseList fuel ["else", "elif", "fi"] (ts.drop 1)
    match reserved? ts with
    | some "fi" => return (.branch condition yes .nothing, ts.drop 1)
    | some "elif" =>
      let (no, ts) ← parseBranch fuel (ts.drop 1)
      return (.branch condition yes no, ts)
    | some "else" =>
      let (no, ts) ← parseList fuel ["fi"] (ts.drop 1)
      if (reserved? ts) = some "fi" then return (.branch condition yes no, ts.drop 1) else none
    | _ => none

end

/-- The program of a script; `none` if it is not well formed. -/
def parse? (script : List Char) : Option Command := do
  let ts ← tokens? script
  match ← parseList (4 * ts.length + 4) [] ts with
  | (c, []) => some c
  | _ => none

end LanguageClient.Shell
