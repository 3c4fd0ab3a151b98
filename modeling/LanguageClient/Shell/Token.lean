import LanguageClient.Text.Utf8

/-! # Tokens of shell scripts.

A script is read one character at a time. Quotes are removed while it is read:
a word is a list of pieces, each a character, a parameter or a command to be
expanded, and a piece knows whether it stood in quotes. What is not in quotes
may be an operator or start a comment. -/

namespace LanguageClient.Shell

inductive Piece where
  | char (c : Char) (quoted : Bool)
  | parameter (name : String) (quoted : Bool)
  /-- A command that is replaced by its output. -/
  | substitution (source : List Char) (quoted : Bool)
  /-- Quotes, which make a word even if there is nothing between them. -/
  | quotes
  deriving DecidableEq, Repr

/-- A word, before its parameters are expanded. -/
abbrev Word := List Piece

/-- A token. A word knows the line it ends in. -/
inductive Token where
  | word (line : Nat) (w : Word)
  | operator (text : String)
  deriving DecidableEq, Repr

/-- Where the reader stands. -/
inductive Mode where
  | plain
  | single
  | double
  /-- Behind a backslash, inside double quotes or not. -/
  | escape (inDouble : Bool)
  /-- Behind a dollar sign. -/
  | dollar (inDouble : Bool)
  /-- In the name of a parameter, whose characters are kept last first. -/
  | name (letters : List Char) (inDouble : Bool)
  /-- In the name of a parameter between braces. -/
  | braces (letters : List Char) (inDouble : Bool)
  /-- In a command inside a word, whose characters are kept last first. The
  characters that close what is open there come innermost first, and behind a
  backslash the next character closes nothing. -/
  | nested (closers : List Char) (escaped : Bool) (letters : List Char) (inDouble : Bool)
  | comment
  /-- Behind the start of an operator. -/
  | operator (text : List Char)
  deriving DecidableEq, Repr

/-- What was read: the word that is not finished, its last piece first, and the
tokens before it, the last one first. -/
structure Reader where
  mode : Mode := .plain
  line : Nat := 1
  word : Option Word := none
  tokens : List Token := []

namespace Reader

def push (p : Piece) (r : Reader) : Reader := { r with word := some (p :: r.word.getD []) }

/-- Ends the word, if there is one. -/
def endWord (r : Reader) : Reader :=
  match r.word with
  | none => r
  | some w => { r with word := none, tokens := .word r.line w.reverse :: r.tokens }

/-- The digits of an unquoted number. -/
def digits? (w : Word) : Option (List Char) :=
  w.mapM fun
    | .char c false => if c.isDigit then some c else none
    | _ => none

/-- Starts an operator. A number right before a redirection belongs to it. -/
def startOperator (c : Char) (r : Reader) : Reader :=
  match c == '<' || c == '>', r.word.bind digits? with
  | true, some ds => { r with word := none, mode := .operator (c :: ds) }
  | _, _ => { r.endWord with mode := .operator [c] }

def endOperator (text : List Char) (r : Reader) : Reader :=
  { r with mode := .plain, tokens := .operator (String.ofList text.reverse) :: r.tokens }

/-- The mode a quote mode returns to. -/
def outer (inDouble : Bool) : Mode := if inDouble then .double else .plain

def isNameStart (c : Char) : Bool := c.isAlpha || c == '_'

def isNameChar (c : Char) : Bool := c.isAlphanum || c == '_'

/-- The parameters whose name is one character that is no letter. -/
def isSpecial (c : Char) : Bool := c.isDigit || "@*#?$!-".contains c

/-- What is open in a command inside a word behind one more character. Between
backquotes and between single quotes nothing else is opened. -/
def nest (closers : List Char) (c : Char) : List Char :=
  match closers with
  | [] => []
  | close :: others =>
    if c == close then others
    else if close == '\x60' || close == '\x27' then closers
    else if c == '\x22' then '\x22' :: closers
    else if close == '\x22' then closers
    else if c == '(' then ')' :: closers
    else if c == '\x27' || c == '\x60' then c :: closers
    else closers

/-- A character in a command inside a word. -/
def nestedStep (closers : List Char) (escaped : Bool) (letters : List Char) (inDouble : Bool)
    (c : Char) (r : Reader) : Reader :=
  if escaped then { r with mode := .nested closers false (c :: letters) inDouble }
  else if c == '\\' && closers.head? != some '\x27' then
    { r with mode := .nested closers true (c :: letters) inDouble }
  else
    match nest closers c with
    | [] => { r.push (.substitution letters.reverse inDouble) with mode := outer inDouble }
    | closers => { r with mode := .nested closers false (c :: letters) inDouble }

def plainStep (c : Char) (r : Reader) : Reader :=
  if c == '\x27' then { r.push .quotes with mode := .single }
  else if c == '\x22' then { r.push .quotes with mode := .double }
  else if c == '\\' then { r with mode := .escape false }
  else if c == '$' then { r with mode := .dollar false }
  else if c == '\x60' then { r with mode := .nested ['\x60'] false [] false }
  else if c == ' ' || c == '\t' then { r.endWord with mode := .plain }
  else if c == '\n' then
    let r := r.endWord
    { r with mode := .plain, line := r.line + 1, tokens := .operator "\n" :: r.tokens }
  else if ";&|<>()".contains c then r.startOperator c
  else if c == '#' && r.word.isNone then { r with mode := .comment }
  else { r.push (.char c false) with mode := .plain }

def doubleStep (c : Char) (r : Reader) : Reader :=
  if c == '\x22' then { r with mode := .plain }
  else if c == '\\' then { r with mode := .escape true }
  else if c == '$' then { r with mode := .dollar true }
  else if c == '\x60' then { r with mode := .nested ['\x60'] false [] true }
  else { r.push (.char c true) with mode := .double }

/-- A character where a quote mode has returned to. -/
def outerStep (inDouble : Bool) (c : Char) (r : Reader) : Reader :=
  if inDouble then r.doubleStep c else r.plainStep c

def longOperators : List (List Char) :=
  ["&&", "||", ";;", ">>", ">&", "<&", "<<"].map String.toList

def step (r : Reader) (c : Char) : Reader :=
  match r.mode with
  | .plain => r.plainStep c
  | .single => if c == '\x27' then { r with mode := .plain } else r.push (.char c true)
  | .double => r.doubleStep c
  | .escape false =>
    if c == '\n' then { r with mode := .plain } else { r.push (.char c true) with mode := .plain }
  | .escape true =>
    if c == '\n' then { r with mode := .double }
    else if "$\x60\x22\\".contains c then { r.push (.char c true) with mode := .double }
    else { (r.push (.char '\\' true)).push (.char c true) with mode := .double }
  | .dollar q =>
    if c == '\x7b' then { r with mode := .braces [] q }
    else if c == '(' then { r with mode := .nested [')'] false [] q }
    else if isNameStart c then { r with mode := .name [c] q }
    else if isSpecial c then
      { r.push (.parameter (String.singleton c) q) with mode := outer q }
    else { r.push (.char '$' q) with mode := outer q }.outerStep q c
  | .name letters q =>
    if isNameChar c then { r with mode := .name (c :: letters) q }
    else { r.push (.parameter (String.ofList letters.reverse) q) with mode := outer q }.outerStep q c
  | .braces letters q =>
    if c == '\x7d' then
      { r.push (.parameter (String.ofList letters.reverse) q) with mode := outer q }
    else { r with mode := .braces (c :: letters) q }
  | .nested closers escaped letters q => r.nestedStep closers escaped letters q c
  | .comment => if c == '\n' then r.plainStep c else r
  | .operator text =>
    if longOperators.contains ((text.takeWhile (!·.isDigit)).reverse ++ [c]) then
      r.endOperator (c :: text.takeWhile (!·.isDigit) ++ text.dropWhile (!·.isDigit))
    else (r.endOperator text).plainStep c

/-- The end of the script: the tokens, or `none` if a quote is open. -/
def finish (r : Reader) : Option (List Token) :=
  match r.mode with
  | .plain | .comment => some r.endWord.tokens.reverse
  | .operator text => some (r.endOperator text).tokens.reverse
  | .dollar false => some (r.push (.char '$' false)).endWord.tokens.reverse
  | .name letters false =>
    some (r.push (.parameter (String.ofList letters.reverse) false)).endWord.tokens.reverse
  | .escape false => some (r.push (.char '\\' false)).endWord.tokens.reverse
  | _ => none

end Reader

/-- The tokens of a script; `none` if a quote is not closed. -/
def tokens? (script : List Char) : Option (List Token) :=
  (script.foldl Reader.step {}).finish

end LanguageClient.Shell
