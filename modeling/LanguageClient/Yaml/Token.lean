import LanguageClient.Text.Utf8

/-! # YAML tokens.

Indentation is turned into tokens of its own: a line that starts further
right opens a block, one further left closes blocks. Whether a scalar is the
key of a mapping shows only at the colon behind it, so the stream remembers
where a *simple key* may have started, and puts the tokens for the key in
front of what it has read since. A simple key stands on one line; where a
line can only be a key, a missing colon is an error. -/

namespace LanguageClient.Yaml

inductive Style where
  | plain
  | quoted
  | block
  deriving DecidableEq, Repr

inductive Token where
  | streamEnd
  | versionDirective (major minor : Nat)
  | tagDirective (handle start : String)
  | documentStart
  | documentEnd
  | blockSequenceStart
  | blockMappingStart
  | blockEnd
  | flowSequenceStart
  | flowSequenceEnd
  | flowMappingStart
  | flowMappingEnd
  | blockEntry
  | flowEntry
  | key
  | value
  | alias (name : String)
  | anchor (name : String)
  | tag (handle rest : String)
  | scalar (style : Style) (text : String)
  deriving DecidableEq, Repr

/-- A place where the key of a mapping may have started. -/
structure SimpleKey where
  possible : Bool := false
  /-- Whether nothing but a key can stand there. -/
  required : Bool := false
  /-- The number of the token that would be the key. -/
  number : Nat := 0
  index : Nat := 0
  line : Nat := 0
  column : Nat := 0
  deriving Repr

/-- A text on its way to becoming tokens. -/
structure TokenStream where
  rest : List Char
  index : Nat := 0
  line : Nat := 0
  column : Nat := 0
  /-- Tokens that were read and not taken yet. -/
  queue : List Token := []
  /-- How many tokens were taken. -/
  taken : Nat := 0
  /-- The column of the innermost block, `-1` outside all blocks. -/
  indent : Int := -1
  indents : List Int := []
  keyAllowed : Bool := true
  /-- One possible key for each open bracket and one for the block level, the
  innermost first. -/
  keys : List SimpleKey := [{}]

/-! ### Characters -/

def isBlank (c : Char) : Bool := c = ' ' || c = '\t'

def isBreak (c : Char) : Bool :=
  c = '\r' || c = '\n' || c = '\u0085' || c = '\u2028' || c = '\u2029'

/-- Whether a blank, a line break or the end comes next. -/
def atBlank : List Char → Bool
  | [] => true
  | c :: _ => isBlank c || isBreak c

def atBreak : List Char → Bool
  | [] => true
  | c :: _ => isBreak c

def atSpace : List Char → Bool
  | [] => false
  | c :: _ => isBlank c

/-- Characters of names of anchors and tag handles. -/
def isName (c : Char) : Bool := (c.toNat < 0x80 && c.isAlphanum) || c = '_' || c = '-'

/-- Whether a character may occur in a text at all. -/
def isAllowed (c : Char) : Bool :=
  let n := c.toNat
  n == 0x09 || n == 0x0A || n == 0x0D || (0x20 ≤ n && n ≤ 0x7E) || n == 0x85 ||
    (0xA0 ≤ n && n ≤ 0xD7FF) || (0xE000 ≤ n && n ≤ 0xFFFD) || 0x10000 ≤ n

namespace TokenStream

/-! ### Moving on -/

def skip (s : TokenStream) : TokenStream :=
  { s with rest := s.rest.drop 1, index := s.index + 1, column := s.column + 1 }

def skipN (n : Nat) (s : TokenStream) : TokenStream :=
  { s with rest := s.rest.drop n, index := s.index + n, column := s.column + n }

/-- Passes a line break, if one comes next, and gives what it counts as. -/
def takeBreak (s : TokenStream) : TokenStream × List Char :=
  let next (n : Nat) : TokenStream :=
    { s with rest := s.rest.drop n, index := s.index + n, line := s.line + 1, column := 0 }
  match s.rest with
  | '\r' :: '\n' :: _ => (next 2, ['\n'])
  | c :: _ =>
    if c = '\r' || c = '\n' || c = '\u0085' then (next 1, ['\n'])
    else if c = '\u2028' || c = '\u2029' then (next 1, [c])
    else (s, [])
  | [] => (s, [])

/-- Passes the characters that satisfy `p`, none of which is a line break. -/
def takeWhile (p : Char → Bool) (s : TokenStream) : TokenStream × List Char :=
  let taken := s.rest.takeWhile p
  (s.skipN taken.length, taken)

def inFlow (s : TokenStream) : Bool := decide (1 < s.keys.length)

/-- Whether a line of three such characters, which bounds a document, starts here. -/
def atMarker (c : Char) (s : TokenStream) : Bool :=
  s.column == 0 && s.rest.take 3 == [c, c, c] && atBlank (s.rest.drop 3)

def atDocumentMarker (s : TokenStream) : Bool := s.atMarker '-' || s.atMarker '.'

def push (t : Token) (s : TokenStream) : TokenStream := { s with queue := s.queue ++ [t] }

/-! ### Indentation -/

/-- Opens a block at a column that lies further right than the innermost one.
The token goes to the end of the queue or in front of an earlier token. -/
def rollIndent (column : Nat) (number : Option Nat) (t : Token) (s : TokenStream) : TokenStream :=
  if s.inFlow || (column : Int) ≤ s.indent then s
  else
    let place := match number with
      | some n => n - s.taken
      | none => s.queue.length
    { s with
      indents := s.indent :: s.indents, indent := column
      queue := s.queue.take place ++ t :: s.queue.drop place }

/-- Closes the blocks that lie further right than a column. -/
def closeBlocks (column : Int) : List Int → Int → List Token → List Int × Int × List Token
  | outer :: rest, indent, closed =>
    if column < indent then closeBlocks column rest outer (.blockEnd :: closed)
    else (outer :: rest, indent, closed)
  | [], indent, closed => ([], indent, closed)

def unrollIndent (column : Int) (s : TokenStream) : TokenStream :=
  if s.inFlow then s
  else
    let (indents, indent, closed) := closeBlocks column s.indents s.indent []
    { s with indents, indent, queue := s.queue ++ closed }

/-! ### Simple keys -/

def topKey (s : TokenStream) : SimpleKey := s.keys.headD {}

def setTopKey (k : SimpleKey) (s : TokenStream) : TokenStream := { s with keys := k :: s.keys.tail }

/-- Gives up the possible key at this level; `none` if it had to be one. -/
def removeKey (s : TokenStream) : Option TokenStream :=
  let k := s.topKey
  if k.possible && k.required then none else some (s.setTopKey { k with possible := false })

/-- Remembers that the next token may be a key. -/
def saveKey (s : TokenStream) : Option TokenStream :=
  if s.keyAllowed then
    s.removeKey.map fun s => s.setTopKey {
      possible := true
      required := !s.inFlow && s.indent == (s.column : Int)
      number := s.taken + s.queue.length
      index := s.index, line := s.line, column := s.column }
  else some s

/-- A possible key is none once the line has ended, or after 1024 characters.
`none` is an error; otherwise the stream and whether the key is still possible. -/
def checkKey (k : SimpleKey) (s : TokenStream) : Option Bool :=
  if !k.possible then some false
  else if k.line < s.line || k.index + 1024 < s.index then
    if k.required then none else some false
  else some true

/-! ### Between tokens -/

/-- Passes blanks, comments and line breaks. Tabs are no indentation. -/
def toNextToken : Nat → TokenStream → TokenStream
  | 0, s => s
  | fuel + 1, s =>
    let s := if s.column == 0 && s.rest.head? == some '\uFEFF' then s.skip else s
    let (s, _) := s.takeWhile fun c => c = ' ' || ((s.inFlow || !s.keyAllowed) && c = '\t')
    let s := if s.rest.head? == some '#' then (s.takeWhile (!isBreak ·)).1 else s
    match s.rest with
    | c :: _ =>
      if isBreak c then
        let s := s.takeBreak.1
        toNextToken fuel (if s.inFlow then s else { s with keyAllowed := true })
      else s
    | [] => s

/-! ### Scalars -/

/-- What folding makes of line breaks: a single one is a space, and of several
the first vanishes. -/
def foldBreaks (first others : List Char) : List Char :=
  if first.head? == some '\n' then (if others.isEmpty then [' '] else others)
  else first ++ others

/-- Passes blanks and line breaks inside a flow or plain scalar: the blanks
before the first break, that break, and the breaks behind it. -/
structure Gap where
  blanks : List Char := []
  first : List Char := []
  others : List Char := []
  broken : Bool := false

/-- Reads a gap; `none` if a tab stands where indentation is expected. -/
def readGap (tabsFrom : Option Nat) : Nat → Gap → TokenStream → Option (Gap × TokenStream)
  | 0, g, s => some (g, s)
  | fuel + 1, g, s =>
    match s.rest with
    | c :: _ =>
      if isBlank c then
        let bad := match tabsFrom with
          | some column => g.broken && decide (s.column < column) && c = '\t'
          | none => false
        if bad then none
        else readGap tabsFrom fuel (if g.broken then g else { g with blanks := g.blanks ++ [c] }) s.skip
      else if isBreak c then
        let (s, b) := s.takeBreak
        readGap tabsFrom fuel
          (if g.broken then { g with others := g.others ++ b }
            else { g with blanks := [], first := g.first ++ b, broken := true }) s
      else some (g, s)
    | [] => some (g, s)

/-- The text a gap stands for when something follows it. -/
def Gap.text (g : Gap) : List Char :=
  if g.broken then foldBreaks g.first g.others else g.blanks

def endsPlain (inFlow : Bool) : List Char → Bool
  | [] => true
  | c :: r =>
    isBlank c || isBreak c || (c = ':' && atBlank r) ||
      (inFlow && (c = ',' || c = '?' || c = '[' || c = ']' || c = '\x7b' || c = '\x7d'))

/-- The characters of a plain scalar up to the next gap or its end. -/
def plainRun (inFlow : Bool) (found : List Char) : List Char → List Char
  | [] => found.reverse
  | c :: r => if endsPlain inFlow (c :: r) then found.reverse else plainRun inFlow (c :: found) r

/-- Reads a plain scalar; the flag says whether it ended behind a line break. -/
def readPlain (indent : Int) : Nat → List Char → Gap → TokenStream →
    Option (List Char × Bool × TokenStream)
  | 0, _, _, _ => none
  | fuel + 1, text, gap, s =>
    if s.atDocumentMarker || s.rest.head? == some '#' then some (text, gap.broken, s)
    else
      let run := plainRun s.inFlow [] s.rest
      let (text, gap) := if run.isEmpty then (text, gap) else (text ++ gap.text ++ run, {})
      let s := s.skipN run.length
      match s.rest with
      | [] => some (text, gap.broken, s)
      | c :: _ =>
        if !(isBlank c || isBreak c) then some (text, gap.broken, s)
        else
          match readGap (some (indent + 1).toNat) (s.rest.length + 1) gap s with
          | none => none
          | some (gap, s) =>
            if !s.inFlow && (s.column : Int) < indent + 1 then some (text, gap.broken, s)
            else readPlain indent fuel text gap s

def hexNumber? (cs : List Char) : Option Nat :=
  cs.foldl (fun acc c => acc.bind fun n =>
    let v := c.toNat
    if c.isDigit then some (n * 16 + (v - 0x30))
    else if 'a' ≤ c && c ≤ 'f' then some (n * 16 + (v - 0x61 + 10))
    else if 'A' ≤ c && c ≤ 'F' then some (n * 16 + (v - 0x41 + 10))
    else none) (some 0)

/-- The character of a one-letter escape. -/
def escape? (c : Char) : Option Char :=
  match c with
  | '0' => some '\x00'
  | 'a' => some '\x07'
  | 'b' => some '\x08'
  | 't' => some '\t'
  | '\t' => some '\t'
  | 'n' => some '\n'
  | 'v' => some '\x0B'
  | 'f' => some '\x0C'
  | 'r' => some '\r'
  | 'e' => some '\x1B'
  | ' ' => some ' '
  | '\x22' => some '\x22'
  | '\x27' => some '\x27'
  | '\\' => some '\\'
  | 'N' => some '\u0085'
  | '_' => some '\u00A0'
  | 'L' => some '\u2028'
  | 'P' => some '\u2029'
  | _ => none

def escapeLength? (c : Char) : Option Nat :=
  match c with
  | 'x' => some 2
  | 'u' => some 4
  | 'U' => some 8
  | _ => none

/-- Characters of a quoted scalar up to a blank, a break, the closing quote or
an escaped line break; the flag says that it was the last of these. `none` is
an error. -/
def quotedRun (single : Bool) : Nat → List Char → TokenStream → Option (List Char × Bool × TokenStream)
  | 0, _, _ => none
  | fuel + 1, text, s =>
    match s.rest with
    | [] => some (text, false, s)
    | c :: r =>
      if isBlank c || isBreak c then some (text, false, s)
      else if single then
        if c = '\x27' then
          if r.head? == some '\x27' then quotedRun single fuel (text ++ [c]) (s.skipN 2)
          else some (text, false, s)
        else quotedRun single fuel (text ++ [c]) s.skip
      else if c = '\x22' then some (text, false, s)
      else if c = '\\' then
        match r with
        | [] => none
        | e :: r1 =>
          if isBreak e then some (text, true, s.skip.takeBreak.1)
          else
            match escape? e with
            | some d => quotedRun single fuel (text ++ [d]) (s.skipN 2)
            | none =>
              match escapeLength? e with
              | none => none
              | some n =>
                let digits := r1.take n
                match hexNumber? digits with
                | some v =>
                  if digits.length < n || (0xD800 ≤ v && v ≤ 0xDFFF) || 0x10FFFF < v then none
                  else quotedRun single fuel (text ++ [Char.ofNat v]) (s.skipN (2 + n))
                | none => none
      else quotedRun single fuel (text ++ [c]) s.skip

def readQuoted (single : Bool) : Nat → List Char → TokenStream → Option (List Char × TokenStream)
  | 0, _, _ => none
  | fuel + 1, text, s =>
    if s.atDocumentMarker || s.rest.isEmpty then none
    else
      match quotedRun single (s.rest.length + 1) text s with
      | none => none
      | some (text, joined, s) =>
        let close := if single then '\x27' else '\x22'
        if s.rest.head? == some close then some (text, s.skip)
        else
          match readGap none (s.rest.length + 1) { broken := joined } s with
          | none => none
          | some (gap, s) => readQuoted single fuel (text ++ gap.text) s

/-- What happens to the line breaks at the end of a block scalar. -/
inductive Chomping where
  | strip
  | clip
  | keep
  deriving DecidableEq, Repr

def chomping? (c : Char) : Option Chomping :=
  if c = '+' then some .keep else if c = '-' then some .strip else none

/-- An indentation indicator: its digit, or an error for zero. -/
def indentDigit (s : TokenStream) : Option (Nat × TokenStream) :=
  match s.rest with
  | c :: _ =>
    if c.isDigit then
      if c = '0' then none else some (c.toNat - 0x30, s.skip)
    else some (0, s)
  | [] => some (0, s)

/-- The indicators behind `|` or `>`, in either order. -/
def blockHeader (s : TokenStream) : Option (Chomping × Nat × TokenStream) :=
  match s.rest.head?.bind chomping? with
  | some ch => (indentDigit s.skip).map fun (n, s) => (ch, n, s)
  | none =>
    match indentDigit s with
    | none => none
    | some (0, s) => some (.clip, 0, s)
    | some (n, s) =>
      match s.rest.head?.bind chomping? with
      | some ch => some (ch, n, s.skip)
      | none => some (.clip, n, s)

/-- Passes indentation and empty lines in a block scalar. `width` is the
indentation, zero while it is unknown. -/
def blockBreaks (width : Nat) : Nat → Nat → List Char → TokenStream →
    Option (Nat × List Char × TokenStream)
  | 0, _, _, _ => none
  | fuel + 1, widest, breaks, s =>
    let spaces := (s.rest.takeWhile (· == ' ')).length
    let s := s.skipN (if width == 0 then spaces else min spaces (width - s.column))
    let widest := max widest s.column
    if (width == 0 || decide (s.column < width)) && s.rest.head? == some '\t' then none
    else
      match s.rest with
      | c :: _ =>
        if isBreak c then
          let (s, b) := s.takeBreak
          blockBreaks width fuel widest (breaks ++ b) s
        else some (widest, breaks, s)
      | [] => some (widest, breaks, s)

/-- Reads the lines of a block scalar. `last` is the break behind the line
before and `breaks` those of the empty lines since. -/
def blockLines (literal : Bool) (width : Nat) : Nat → List Char → List Char → List Char → Bool →
    TokenStream → Option (List Char × List Char × List Char × TokenStream)
  | 0, _, _, _, _, _ => none
  | fuel + 1, text, last, breaks, wasBlank, s =>
    if s.column ≠ width || s.rest.isEmpty then some (text, last, breaks, s)
    else
      let blank := atSpace s.rest
      let join :=
        if !literal && !wasBlank && !blank && last.head? == some '\n' then
          (if breaks.isEmpty then [' '] else [])
        else last
      let (s, content) := s.takeWhile (!isBreak ·)
      let (s, last) := s.takeBreak
      match blockBreaks width (s.rest.length + 1) 0 [] s with
      | none => none
      | some (_, more, s) =>
        blockLines literal width fuel (text ++ join ++ breaks ++ content) last more blank s

/-- Reads a block scalar behind its indicator. -/
def readBlock (literal : Bool) (s : TokenStream) : Option (List Char × TokenStream) :=
  match blockHeader s with
  | none => none
  | some (ch, increment, s) =>
    let (s, _) := s.takeWhile isBlank
    let s := if s.rest.head? == some '#' then (s.takeWhile (!isBreak ·)).1 else s
    if !atBreak s.rest then none
    else
      let s := s.takeBreak.1
      let width := if increment == 0 then 0 else ((max s.indent 0) + increment).toNat
      match blockBreaks width (s.rest.length + 1) 0 [] s with
      | none => none
      | some (widest, breaks, s) =>
        let width := if width == 0 then max widest (max (s.indent + 1).toNat 1) else width
        match blockLines literal width (s.rest.length + 2) [] [] breaks false s with
        | none => none
        | some (text, last, breaks, s) =>
          some (match ch with
            | .strip => text
            | .clip => text ++ last
            | .keep => text ++ last ++ breaks, s)

/-! ### Tags and directives -/

def isUriChar (verbatim : Bool) (c : Char) : Bool :=
  isName c || ";/?:@&=+$.%!~*\x27()".toList.contains c || (verbatim && ",[]".toList.contains c)

def unescapeUri : List Char → Option Bytes
  | [] => some []
  | '%' :: h :: l :: r =>
    (hexNumber? [h, l]).bind fun n => (unescapeUri r).map (UInt8.ofNat n :: ·)
  | '%' :: _ => none
  | c :: r => (unescapeUri r).map (Utf8.encodeChar c ++ ·)

/-- The text of a tag, if its escapes are well formed. -/
def uriText (cs : List Char) : Option String :=
  (unescapeUri cs).bind fun bs => if Utf8.isValid bs then some (textOf bs) else none

def readTag (s : TokenStream) : Option (Token × TokenStream) :=
  let finish (t : Token) (s : TokenStream) : Option (Token × TokenStream) :=
    if atBlank s.rest then some (t, s) else none
  if s.rest.take 2 == ['!', '<'] then
    let (s, uri) := (s.skipN 2).takeWhile (isUriChar true)
    if uri.isEmpty || s.rest.head? != some '>' then none
    else (uriText uri).bind fun text => finish (.tag "" text) s.skip
  else
    let (s, name) := s.skip.takeWhile isName
    if s.rest.head? == some '!' then
      let (s, uri) := s.skip.takeWhile (isUriChar false)
      if uri.isEmpty then none
      else (uriText uri).bind fun text => finish (.tag (String.ofList ('!' :: name ++ ['!'])) text) s
    else
      let (s, uri) := s.takeWhile (isUriChar false)
      if name.isEmpty && uri.isEmpty then finish (.tag "" "!") s
      else (uriText uri).bind fun text => finish (.tag "!" (String.ofList name ++ text)) s

def smallNumber (s : TokenStream) : Option (Nat × TokenStream) :=
  let (s, ds) := s.takeWhile Char.isDigit
  if ds.isEmpty || 9 < ds.length then none
  else some (ds.foldl (fun n c => n * 10 + (c.toNat - 0x30)) 0, s)

def readDirective (s : TokenStream) : Option (Token × TokenStream) :=
  let finish (t : Token) (s : TokenStream) : Option (Token × TokenStream) :=
    let (s, _) := s.takeWhile isBlank
    let s := if s.rest.head? == some '#' then (s.takeWhile (!isBreak ·)).1 else s
    if atBreak s.rest then some (t, s.takeBreak.1) else none
  let (s, name) := s.skip.takeWhile isName
  if name.isEmpty || !atBlank s.rest then none
  else if name == "YAML".toList then
    let (s, _) := s.takeWhile isBlank
    (smallNumber s).bind fun (major, s) =>
      if s.rest.head? != some '.' then none
      else (smallNumber s.skip).bind fun (minor, s) => finish (.versionDirective major minor) s
  else if name == "TAG".toList then
    let (s, _) := s.takeWhile isBlank
    if s.rest.head? != some '!' then none
    else
      let (s, handle) := s.skip.takeWhile isName
      let handleEnd := s.rest.head? == some '!'
      if !handleEnd && !handle.isEmpty then none
      else
        let s := if handleEnd then s.skip else s
        let handle := '!' :: handle ++ (if handleEnd then ['!'] else [])
        if !atSpace s.rest then none
        else
          let (s, _) := s.takeWhile isBlank
          let (s, uri) := s.takeWhile (isUriChar true)
          if uri.isEmpty || !atBlank s.rest then none
          else (uriText uri).bind fun text => finish (.tagDirective (String.ofList handle) text) s
  else none

/-- Reads the name of an anchor or an alias behind its indicator. -/
def readName (s : TokenStream) : Option (String × TokenStream) :=
  let (s, name) := s.skip.takeWhile isName
  let ended := atBlank s.rest ||
    (match s.rest.head? with
      | some c => "?:,]\x7d%@\x60".toList.contains c
      | none => true)
  if name.isEmpty || !ended then none else some (String.ofList name, s)

/-! ### The next token -/

def fetchStreamEnd (s : TokenStream) : Option TokenStream :=
  let s := if s.column == 0 then s else { s with column := 0, line := s.line + 1 }
  (s.unrollIndent (-1)).removeKey.map fun s => { s with keyAllowed := false }.push .streamEnd

/-- A marker line between documents. -/
def fetchMarker (t : Token) (s : TokenStream) : Option TokenStream :=
  (s.unrollIndent (-1)).removeKey.map fun s => ({ s with keyAllowed := false }.skipN 3).push t

def fetchDirective (s : TokenStream) : Option TokenStream :=
  (s.unrollIndent (-1)).removeKey.bind fun s =>
    (readDirective { s with keyAllowed := false }).map fun (t, s) => TokenStream.push t s

def fetchFlowStart (t : Token) (s : TokenStream) : Option TokenStream :=
  s.saveKey.map fun s => ({ s with keys := {} :: s.keys, keyAllowed := true }.skip).push t

def fetchFlowEnd (t : Token) (s : TokenStream) : Option TokenStream :=
  s.removeKey.map fun s =>
    let keys := if s.inFlow then s.keys.tail else s.keys
    ({ s with keys, keyAllowed := false }.skip).push t

def fetchFlowEntry (s : TokenStream) : Option TokenStream :=
  s.removeKey.map fun s => ({ s with keyAllowed := true }.skip).push .flowEntry

def fetchBlockEntry (s : TokenStream) : Option TokenStream :=
  if !s.inFlow && !s.keyAllowed then none
  else
    (s.rollIndent s.column none .blockSequenceStart).removeKey.map fun s =>
      ({ s with keyAllowed := true }.skip).push .blockEntry

def fetchKey (s : TokenStream) : Option TokenStream :=
  if !s.inFlow && !s.keyAllowed then none
  else
    (s.rollIndent s.column none .blockMappingStart).removeKey.map fun s =>
      ({ s with keyAllowed := !s.inFlow }.skip).push .key

def fetchValue (s : TokenStream) : Option TokenStream :=
  let k := s.topKey
  match s.checkKey k with
  | none => none
  | some true =>
    let place := k.number - s.taken
    let s := { s with queue := s.queue.take place ++ Token.key :: s.queue.drop place }
    let s := s.rollIndent k.column (some k.number) .blockMappingStart
    some (({ s.setTopKey { k with possible := false } with keyAllowed := false }.skip).push .value)
  | some false =>
    let s := s.setTopKey { k with possible := false }
    if !s.inFlow && !s.keyAllowed then none
    else
      let s := s.rollIndent s.column none .blockMappingStart
      some (({ s with keyAllowed := !s.inFlow }.skip).push .value)

/-- A token that may be a key, read by `read`. -/
def fetchKeyed (read : TokenStream → Option (Token × TokenStream)) (s : TokenStream) :
    Option TokenStream :=
  s.saveKey.bind fun s => (read { s with keyAllowed := false }).map fun (t, s) => TokenStream.push t s

def fetchBlockScalar (literal : Bool) (s : TokenStream) : Option TokenStream :=
  s.removeKey.bind fun s =>
    ({ s with keyAllowed := true }.skip.readBlock literal).map fun (text, s) =>
      TokenStream.push (.scalar .block (String.ofList text)) s

def fetchPlain (s : TokenStream) : Option TokenStream :=
  fetchKeyed (fun s =>
    (s.readPlain s.indent (s.rest.length + 1) [] {}).map fun (text, broken, s) =>
      (.scalar .plain (String.ofList text), if broken then { s with keyAllowed := true } else s)) s

/-- Characters that mean something at the start of a token. -/
def isIndicator (c : Char) : Bool := "-?:,[]\x7b\x7d#&*!|>\x27\"%@\x60".toList.contains c

/-- Puts the next token into the queue, with those that its place implies.
`none` is an error. -/
def fetchNext (s : TokenStream) : Option TokenStream :=
  let s := toNextToken (s.rest.length + 1) s
  let s := s.unrollIndent s.column
  match s.rest with
  | [] => s.fetchStreamEnd
  | c :: r =>
    if s.column == 0 && c = '%' then s.fetchDirective
    else if s.atMarker '-' then s.fetchMarker .documentStart
    else if s.atMarker '.' then s.fetchMarker .documentEnd
    else if c = '[' then s.fetchFlowStart .flowSequenceStart
    else if c = '\x7b' then s.fetchFlowStart .flowMappingStart
    else if c = ']' then s.fetchFlowEnd .flowSequenceEnd
    else if c = '\x7d' then s.fetchFlowEnd .flowMappingEnd
    else if c = ',' then s.fetchFlowEntry
    else if c = '-' && atBlank r then s.fetchBlockEntry
    else if c = '?' && (s.inFlow || atBlank r) then s.fetchKey
    else if c = ':' && (s.inFlow || atBlank r) then s.fetchValue
    else if c = '*' then
      s.fetchKeyed fun s => (readName s).map fun (n, s) => (.alias n, s)
    else if c = '&' then
      s.fetchKeyed fun s => (readName s).map fun (n, s) => (.anchor n, s)
    else if c = '!' then s.fetchKeyed readTag
    else if c = '|' && !s.inFlow then s.fetchBlockScalar true
    else if c = '>' && !s.inFlow then s.fetchBlockScalar false
    else if c = '\x27' || c = '\x22' then
      s.fetchKeyed fun s =>
        (s.skip.readQuoted (c = '\x27') (s.rest.length + 1) []).map fun (text, s) =>
          (.scalar .quoted (String.ofList text), s)
    else if !isIndicator c && !isBlank c then s.fetchPlain
    else if c = '-' && !atSpace r then s.fetchPlain
    else if !s.inFlow && (c = '?' || c = ':') && !atBlank r then s.fetchPlain
    else none

/-- Reads on until the first token in the queue is certain: there are two
tokens behind it, and it is no possible key. -/
def fetchMore : Nat → TokenStream → Option TokenStream
  | 0, _ => none
  | fuel + 1, s =>
    if 2 < s.queue.length then
      match s.keys.find? fun k => k.possible && k.number == s.taken with
      | none => some s
      | some k =>
        match s.checkKey k with
        | none => none
        | some false => some s
        | some true => s.fetchNext.bind (fetchMore fuel)
    else s.fetchNext.bind (fetchMore fuel)

/-- The next token, which stays in the queue. -/
def peek (s : TokenStream) : Option (Token × TokenStream) :=
  (fetchMore (s.rest.length + 4) s).bind fun s => s.queue.head?.map fun t => (t, s)

/-- Takes the token that `peek` showed. -/
def pop (s : TokenStream) : TokenStream := { s with queue := s.queue.tail, taken := s.taken + 1 }

/-- The tokens of a text; `none` if a character in it is not allowed. -/
def ofBytes? (bs : Bytes) : Option TokenStream :=
  if !Utf8.isValid bs then none
  else
    let cs := Utf8.decode bs
    let cs := if cs.head? == some '\uFEFF' then cs.tail else cs
    if cs.all isAllowed then some { rest := cs } else none

end TokenStream

end LanguageClient.Yaml
