import LanguageClient.Yaml.Token

/-! # YAML nodes.

The first document of a stream as a tree. An alias has a number of its own
and keeps the number of the node it stands for, so that a node may hold an
alias of itself; the nodes with an anchor are kept beside the tree. -/

namespace LanguageClient.Yaml

/-- A node. A tag is in its short form (`!!str`), `""` or `"!"` if none was
given. -/
inductive Node where
  | scalar (style : Style) (tag text : String)
  | sequence (tag : String) (items : List Node)
  | mapping (tag : String) (entries : List (Node × Node))
  | alias (name : String) (number target : Nat)
  deriving Repr

/-- A document: its root and the nodes with an anchor. -/
structure Document where
  root : Node
  anchored : List (Nat × Node)
  /-- More than the document has nodes. -/
  size : Nat

/-- What is known while a document is read. -/
structure Reading where
  tokens : TokenStream
  handles : List (String × String) := []
  /-- The names of anchors with the numbers of their nodes, the latest first. -/
  names : List (String × Nat) := []
  anchored : List (Nat × Node) := []
  aliases : Nat := 0

/-- A step of reading; `none` is an error. -/
abbrev Reader := StateT Reading Option

namespace Reader

def fail {α : Type} : Reader α := fun _ => none

def peek : Reader Token := fun s =>
  s.tokens.peek.map fun (t, tokens) => (t, { s with tokens })

/-- Passes the token seen last. -/
def skip : Reader Unit := modify fun s => { s with tokens := s.tokens.pop }

/-! ### Tags and anchors -/

def shortTag (tag : String) : String :=
  let start := "tag:yaml.org,2002:".toList
  if start.isPrefixOf tag.toList then "!!" ++ String.ofList (tag.toList.drop start.length) else tag

/-- The tag a handle and the rest of its text stand for. -/
def resolveTag (handle rest : String) : Reader String := do
  if handle = "" then return shortTag rest
  else
    match (← get).handles.lookup handle with
    | some start => return shortTag (start ++ rest)
    | none => fail

/-- The number for a new anchor, by which the name is known from now on. -/
def declare (name : String) : Reader Nat := do
  let number := (← get).names.length
  modify fun s => { s with names := (name, number) :: s.names }
  return number

/-- Keeps a node under the number of its anchor. -/
def keep (number : Option Nat) (n : Node) : Reader Node := do
  match number with
  | some k =>
    modify fun s => { s with anchored := (k, n) :: s.anchored }
    return n
  | none => return n

/-- The node of an alias, whose anchor was declared before. -/
def aliasOf (name : String) : Reader Node := do
  match (← get).names.lookup name with
  | some k =>
    let number := (← get).aliases
    modify fun s => { s with aliases := number + 1 }
    return .alias name number k
  | none => fail

/-- An anchor and a tag, in either order. -/
def properties : Reader (Option String × Option String) := do
  match ← peek with
  | .anchor a =>
    skip
    match ← peek with
    | .tag h r => skip; return (some a, some (← resolveTag h r))
    | _ => return (some a, none)
  | .tag h r =>
    skip
    match ← peek with
    | .anchor a => skip; return (some a, some (← resolveTag h r))
    | _ => return (none, some (← resolveTag h r))
  | _ => return (none, none)

def absent : Node := .scalar .plain "" ""

/-! ### Nodes -/

mutual

/-- A node. Block collections are allowed if `block`, and a sequence whose
dashes stand no further right than the key in front of it if `flush`. -/
def node (block flush : Bool) : Nat → Reader Node
  | 0 => fail
  | fuel + 1 => do
    match ← peek with
    | .alias name => skip; aliasOf name
    | _ =>
      let (anchorName, tag) ← properties
      let number ← match anchorName with
        | some a => some <$> declare a
        | none => pure none
      let tagText := tag.getD ""
      match ← peek with
      | .scalar style text => skip; keep number (.scalar style tagText text)
      | .flowSequenceStart =>
        skip
        keep number (.sequence tagText (← flowItems true fuel))
      | .flowMappingStart =>
        skip
        keep number (.mapping tagText (← flowEntries true fuel))
      | .blockEntry =>
        if flush then keep number (.sequence tagText (← flushItems fuel))
        else if anchorName.isSome || tag.isSome then keep number (.scalar .plain tagText "")
        else fail
      | t =>
        if block && t = .blockSequenceStart then
          skip
          keep number (.sequence tagText (← blockItems fuel))
        else if block && t = .blockMappingStart then
          skip
          keep number (.mapping tagText (← blockEntries fuel))
        else if anchorName.isSome || tag.isSome then keep number (.scalar .plain tagText "")
        else fail

def blockItems : Nat → Reader (List Node)
  | 0 => fail
  | fuel + 1 => do
    match ← peek with
    | .blockEntry =>
      skip
      let t ← peek
      let item ← if t = .blockEntry || t = .blockEnd then pure absent else node true false fuel
      return item :: (← blockItems fuel)
    | .blockEnd => skip; return []
    | _ => fail

/-- The items of a sequence that is no further right than the key before it. -/
def flushItems : Nat → Reader (List Node)
  | 0 => fail
  | fuel + 1 => do
    match ← peek with
    | .blockEntry =>
      skip
      let t ← peek
      let item ←
        if t = .blockEntry || t = .key || t = .value || t = .blockEnd then pure absent
        else node true false fuel
      return item :: (← flushItems fuel)
    | _ => return []

def blockEntries : Nat → Reader (List (Node × Node))
  | 0 => fail
  | fuel + 1 => do
    match ← peek with
    | .key =>
      skip
      let t ← peek
      let k ←
        if t = .key || t = .value || t = .blockEnd then pure absent else node true true fuel
      let v ← blockValue fuel
      return (k, v) :: (← blockEntries fuel)
    | .blockEnd => skip; return []
    | _ => fail

/-- The value behind the key of a block mapping. -/
def blockValue : Nat → Reader Node
  | 0 => fail
  | fuel + 1 => do
    match ← peek with
    | .value =>
      skip
      let t ← peek
      if t = .key || t = .value || t = .blockEnd then pure absent else node true true fuel
    | _ => return absent

/-- The items of a flow sequence; a pair among them is a mapping of one entry. -/
def flowItems (first : Bool) : Nat → Reader (List Node)
  | 0 => fail
  | fuel + 1 => do
    match ← peek with
    | .flowSequenceEnd => skip; return []
    | t =>
      unless first do
        if t = .flowEntry then skip else fail
      match ← peek with
      | .key =>
        skip
        let t ← peek
        let k ←
          if t = .value || t = .flowEntry || t = .flowSequenceEnd then do
            skip
            pure absent
          else node false false fuel
        let v ← flowValue .flowSequenceEnd fuel
        return .mapping "" [(k, v)] :: (← flowItems false fuel)
      | .flowSequenceEnd => skip; return []
      | _ =>
        let item ← node false false fuel
        return item :: (← flowItems false fuel)

/-- The value behind a key in a flow collection that ends with `closing`. -/
def flowValue (closing : Token) : Nat → Reader Node
  | 0 => fail
  | fuel + 1 => do
    match ← peek with
    | .value =>
      skip
      let t ← peek
      if t = .flowEntry || t = closing then pure absent else node false false fuel
    | _ => return absent

def flowEntries (first : Bool) : Nat → Reader (List (Node × Node))
  | 0 => fail
  | fuel + 1 => do
    match ← peek with
    | .flowMappingEnd => skip; return []
    | t =>
      unless first do
        if t = .flowEntry then skip else fail
      match ← peek with
      | .key =>
        skip
        let t ← peek
        let k ←
          if t = .value || t = .flowEntry || t = .flowMappingEnd then pure absent
          else node false false fuel
        let v ← flowValue .flowMappingEnd fuel
        return (k, v) :: (← flowEntries false fuel)
      | .flowMappingEnd => skip; return []
      | _ =>
        let k ← node false false fuel
        return (k, absent) :: (← flowEntries false fuel)

end

/-! ### Documents -/

/-- The directives in front of a document. The version must be 1.1, and
neither it nor a handle may be given twice. -/
def directives (version : Bool) : Nat → Reader Unit
  | 0 => fail
  | fuel + 1 => do
    match ← peek with
    | .versionDirective major minor =>
      if version || major ≠ 1 || minor ≠ 1 then fail
      else
        skip
        directives true fuel
    | .tagDirective handle start =>
      if ((← get).handles.lookup handle).isSome then fail
      else
        modify fun s => { s with handles := (handle, start) :: s.handles }
        skip
        directives version fuel
    | _ => return ()

/-- The handles that need no directive. -/
def standardHandles : List (String × String) := [("!", "!"), ("!!", "tag:yaml.org,2002:")]

/-- Makes the standard handles known, behind those of directives. -/
def useStandardHandles : Reader Unit :=
  modify fun s => { s with handles := s.handles ++ standardHandles }

def document (fuel : Nat) : Reader (Option Document) := do
  let finish (root : Node) : Reader (Option Document) := do
    let _ ← peek
    return some { root, anchored := (← get).anchored, size := fuel }
  match ← peek with
  | .streamEnd => return none
  | t =>
    let explicit := match t with
      | .versionDirective .. | .tagDirective .. | .documentStart => true
      | _ => false
    if explicit then
      directives false fuel
      useStandardHandles
      if (← peek) = .documentStart then
        skip
        match ← peek with
        | .versionDirective .. | .tagDirective .. | .documentStart | .documentEnd | .streamEnd =>
          finish absent
        | _ => finish (← node true false fuel)
      else fail
    else
      useStandardHandles
      finish (← node true false fuel)

end Reader

/-- Reads the first document of a stream: `none` is an error, `some none` a
stream without documents. -/
def Document.parse? (bs : Bytes) : Option (Option Document) :=
  match TokenStream.ofBytes? bs with
  | none => none
  | some tokens => (Reader.document (10 * (bs.length + 10)) { tokens }).map (·.1)

end LanguageClient.Yaml
