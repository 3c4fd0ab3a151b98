import LanguageClient.Yaml.Scalar

/-! # Reading YAML into values of known types.

A field that is `null` stays unset. A mapping may take over the entries of
others with `<<`; its own entries win over those, and of several taken over
the first. Names that are not known are passed over.

Every node that is read is counted, once for each time it is read, and a
document is refused if too many of them are read because an alias stands for
them. -/

namespace LanguageClient.Yaml

open Number

/-- The nodes that aliases stand for, and the aliases being looked into. -/
structure Scope where
  anchored : List (Nat × Node)
  inside : List Nat := []

/-- How many nodes were read, and how many of them inside an alias. -/
structure Tally where
  read : Nat := 0
  aliased : Nat := 0

namespace Tally

/-- How many of 360 million nodes may be read inside aliases: 99 of 100 as long as few are
read at all, and ever less of more, down to 10 of 100. -/
def allowance (t : Tally) : Nat := 99 * 3600000 - 89 * (min t.read 4000000 - 400000)

def isExcessive (t : Tally) : Bool :=
  100 < t.aliased && 1000 < t.read && t.read * t.allowance < t.aliased * 360000000

/-- One more node. -/
def add (aliased : Bool) (t : Tally) : Tally :=
  { read := t.read + 1, aliased := if aliased then t.aliased + 1 else t.aliased }

end Tally

/-- A step of decoding; `none` is an error. -/
abbrev Decoding := StateT Tally Option

namespace Scope

/-- The node itself, or the one an alias stands for; `none` if the alias is
already being looked into. -/
def follow? (scope : Scope) : Node → Option (Scope × Node)
  | .alias _ number target =>
    if scope.inside.contains number then none
    else
      (scope.anchored.lookup target).map fun n => ({ scope with inside := number :: scope.inside }, n)
  | n => some (scope, n)

/-! ### Single values

Each gives `none` for an error and `some none` for `null`. -/

def datum? (scope : Scope) (n : Node) : Option (Datum × String) :=
  match scope.follow? n with
  | some (_, .scalar style tag s) => (Datum.resolve? style tag s).map fun d => (d, s)
  | _ => none

/-- A text: the characters of any scalar. -/
def text (scope : Scope) (n : Node) : Option (Option String) :=
  match scope.datum? n with
  | none => none
  | some (.null, _) => some none
  | some (.text s, _) => some (some s)
  | some (_, s) => some (some s)

/-- The whole number a floating point number is cut to, if it is not above
those of 64 bits. Below them it is the least of them, as is the first above. -/
def cut? (x : Binary64) : Option Int :=
  let (num, den) := x.ratio
  let n := signed x.negative (num / den)
  if (if x.negative then true else num ≤ Nat.pow 2 63 * den) then
    some (if fitsInt64 n then n else int64Min)
  else none

/-- A whole number of 64 bits. -/
def integer (scope : Scope) (n : Node) : Option (Option Int) :=
  match scope.datum? n with
  | none => none
  | some (d, _) =>
    match d with
    | .null => some none
    | .integer n => if n ≤ int64Max then some (some n) else none
    | .float x => (cut? x).map some
    | .infinity true => some (some int64Min)
    | _ => none

/-- The words for true and false, which a text may be too. -/
def truth? (s : String) : Option Bool :=
  if s ∈ ["y", "Y", "yes", "Yes", "YES", "on", "On", "ON"] then some true
  else if s ∈ ["n", "N", "no", "No", "NO", "off", "Off", "OFF"] then some false
  else none

def boolean (scope : Scope) (n : Node) : Option (Option Bool) :=
  match scope.datum? n with
  | none => none
  | some (d, _) =>
    match d with
    | .null => some none
    | .boolean b => some (some b)
    | .text s => (truth? s).map some
    | _ => none

def isNull (scope : Scope) (n : Node) : Bool :=
  match scope.datum? n with
  | some (.null, _) => true
  | _ => false

/-! ### Counting -/

def visit (aliased : Bool) : Decoding Unit := fun t =>
  let t := t.add aliased
  if t.isExcessive then none else some ((), t)

/-- Counts a node, and the one it stands for if it is an alias. -/
def count (scope : Scope) (n : Node) : Decoding Unit := do
  visit (!scope.inside.isEmpty)
  match n with
  | .alias .. => visit true
  | _ => return ()

def single {α : Type} (read : Scope → Node → Option α) (scope : Scope) (n : Node) : Decoding α := do
  scope.count n
  read scope n

/-- The texts among items, which are all texts or `null`. -/
def items (scope : Scope) : List Node → Decoding (List String)
  | [] => return []
  | n :: ns => do
    let first ← single text scope n
    let rest ← items scope ns
    return first.toList ++ rest

def texts (scope : Scope) (n : Node) : Decoding (Option (List String)) := do
  scope.count n
  if scope.isNull n then return none
  else
    match scope.follow? n with
    | some (scope, .sequence tag ns) => if tag = "!!null" then failure else return some (← scope.items ns)
    | _ => failure

end Scope

/-! ### Records -/

/-- A named part of a record and how a node sets it. -/
structure FieldReader (α : Type) where
  name : String
  update : Scope → Node → α → Decoding α

/-- Kind and text of a key, by which keys are told apart. -/
def Node.signature : Node → Nat × String
  | .scalar _ _ s => (0, s)
  | .sequence _ _ => (1, "")
  | .mapping _ _ => (2, "")
  | .alias name _ _ => (3, name)

def distinctKeys : List (Node × Node) → Bool
  | [] => true
  | (k, _) :: rest => !rest.any (fun e => e.1.signature == k.signature) && distinctKeys rest

/-- Whether a key takes over other mappings. -/
def Node.isMerge : Node → Bool
  | .scalar style tag s =>
    s = "<<" && (tag = "!!merge" || (style = .plain && (tag = "" || tag = "!")))
  | _ => false

/-- Sets a record by the entries of a mapping that are not in `seen`. The
fields set are kept in `done`, and `seen` grows if there is one. -/
def Scope.ownEntries {α : Type} (scope : Scope) (fields : List (FieldReader α)) :
    List String → Option (List String) → List (Node × Node) → α → Decoding (Option (List String) × α)
  | _, seen, [], a => return (seen, a)
  | done, seen, (k, v) :: rest, a =>
    if k.isMerge then scope.ownEntries fields done seen rest a
    else do
      match ← single text scope k with
      | none => scope.ownEntries fields done seen rest a
      | some name =>
        if (seen.getD []).contains name then scope.ownEntries fields done seen rest a
        else
          let seen := seen.map (name :: ·)
          match fields.find? (·.name = name) with
          | none => scope.ownEntries fields done seen rest a
          | some f =>
            if done.contains name then failure
            else
              let a ← f.update scope v a
              scope.ownEntries fields (name :: done) seen rest a

/-- The names a mapping sets itself. Its keys are read once more for them. -/
def Scope.ownNames (scope : Scope) : List (Node × Node) → Decoding (List String)
  | [] => return []
  | (k, _) :: rest => do
    scope.count k
    return ((scope.text k).bind id).toList ++ (← scope.ownNames rest)

mutual

/-- Sets a record by a mapping: by its own entries, and by those it takes over. -/
def Scope.mapping {α : Type} (fields : List (FieldReader α)) :
    Nat → Scope → Option (List String) → List (Node × Node) → α → Decoding (Option (List String) × α)
  | 0, _, _, _, _ => failure
  | fuel + 1, scope, seen, entries, a =>
    if !distinctKeys entries then failure
    else do
      let (seen, a) ← scope.ownEntries fields [] seen entries a
      match (entries.filter (·.1.isMerge)).getLast? with
      | none => return (seen, a)
      | some (_, source) =>
        let known ← match seen with
          | some names => pure names
          | none => scope.ownNames entries
        let (known, a) ← Scope.merge fields fuel scope known source true a
        return (seen.map fun _ => known, a)

/-- Takes over a mapping, an alias of one or, if `many`, a sequence of those. -/
def Scope.merge {α : Type} (fields : List (FieldReader α)) :
    Nat → Scope → List String → Node → Bool → α → Decoding (List String × α)
  | 0, _, _, _, _, _ => failure
  | fuel + 1, scope, known, .sequence _ sources, many, a =>
    if many then Scope.mergeAll fields fuel scope known sources a else failure
  | fuel + 1, scope, known, source, _, a => do
    scope.count source
    match scope.follow? source with
    | some (scope, .mapping _ entries) =>
      let (seen, a) ← Scope.mapping fields fuel scope (some known) entries a
      return (seen.getD known, a)
    | _ => failure

def Scope.mergeAll {α : Type} (fields : List (FieldReader α)) :
    Nat → Scope → List String → List Node → α → Decoding (List String × α)
  | 0, _, _, _, _ => failure
  | _ + 1, _, known, [], a => return (known, a)
  | fuel + 1, scope, known, source :: rest, a => do
    let (known, a) ← Scope.merge fields fuel scope known source false a
    Scope.mergeAll fields fuel scope known rest a

end

/-- A record, which may be `null`. A mapping that is tagged as `null` is no record `inside`
another one. -/
def Scope.record {α : Type} (inside : Bool) (fuel : Nat) (fields : List (FieldReader α)) (zero : α)
    (scope : Scope) (n : Node) : Decoding (Option α) := do
  scope.count n
  if scope.isNull n then return none
  else
    match scope.follow? n with
    | some (scope, .mapping tag entries) =>
      if inside && tag = "!!null" then failure
      else
        let (_, a) ← Scope.mapping fields fuel scope none entries zero
        return some a
    | _ => failure

/-- How deep mappings can take over one another, with room to spare. -/
def Document.depth (d : Document) : Nat := d.size * d.size + 10

/-- Reads the first document of a text as a record; `none` is an error. -/
def decode? {α : Type} (fields : Nat → List (FieldReader α)) (zero : α) (bs : Bytes) : Option α :=
  match Document.parse? bs with
  | none => none
  | some none => some zero
  | some (some d) =>
    let scope : Scope := { anchored := d.anchored }
    -- the document is a node too
    let whole : Decoding (Option α) := do
      Scope.visit false
      scope.record false d.depth (fields d.depth) zero d.root
    (whole.run' {}).map (·.getD zero)

end LanguageClient.Yaml
