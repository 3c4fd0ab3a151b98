import LanguageClient.Json.Value
import LanguageClient.Text.Case

/-! # Reading JSON into records.

A decoder takes the value a field has so far and the tokens of a JSON value
and gives the field's new value, so that a repeated member overwrites or
completes what an earlier one set. `null` leaves a plain field as it is.
Member names are compared without regard to letter case and unknown members
are skipped. -/

namespace LanguageClient.Json

inductive DecodeError where
  /-- It is no JSON text. -/
  | malformed
  /-- It is one, but of another shape. -/
  | mismatch
  deriving DecidableEq, Repr

def DecodeError.message : DecodeError → String
  | .malformed => "invalid character in JSON text"
  | .mismatch => "json: cannot unmarshal value of another type"

/-- How a field is updated by a JSON value; `none` if the value is of another
shape. -/
abbrev Decoder (α : Type) := α → List Token → Option α

namespace Decoder

def isNull : List Token → Bool
  | [t] => t.kind == .null
  | _ => false

def text : Decoder String := fun current ts =>
  match ts with
  | [t] =>
    match t.kind with
    | .string => some (unquote t.lexeme)
    | .null => some current
    | _ => none
  | _ => none

/-- A 64-bit integer. -/
def integer : Decoder Int := fun current ts =>
  match ts with
  | [t] =>
    match t.kind with
    | .number => integerOf? t.lexeme
    | .null => some current
    | _ => none
  | _ => none

/-- A fragment kept as it was written, `null` included. -/
def raw : Decoder (Option Bytes) := fun _ ts => some (some (fragment ts))

/-- A value of any shape. -/
def any : Decoder Value := fun _ ts => Value.ofTokens? ts

/-- A value that may be absent; `null` makes it so. -/
def optional (zero : α) (d : Decoder α) : Decoder (Option α) := fun current ts =>
  if isNull ts then some none else (d (current.getD zero) ts).map some

/-- Updates the elements a list has so far, one after the other. -/
def listFrom (zero : α) (d : Decoder α) : List α → List (List Token) → Option (List α)
  | _, [] => some []
  | current, e :: es =>
    match d (current.headD zero) e with
    | none => none
    | some v => (listFrom zero d current.tail es).map (v :: ·)

/-- A list; `null` makes it empty. -/
def list (zero : α) (d : Decoder α) : Decoder (List α) := fun current ts =>
  match ts with
  | [] => none
  | t :: _ =>
    match t.kind with
    | .null => some []
    | .openArray => listFrom zero d current (elements ts)
    | _ => none

/-- A field of a record: its name and how a value updates the record. -/
structure FieldReader (α : Type) where
  name : String
  update : Decoder α

/-- Updates a record by the members of an object, in their order. -/
def membersInto (fields : List (FieldReader α)) : α → List (Bytes × List Token) → Option α
  | current, [] => some current
  | current, (name, value) :: rest =>
    match fields.find? fun f => Text.sameName f.name.toList (unquote name).toList with
    | none => membersInto fields current rest
    | some f =>
      match f.update current value with
      | none => none
      | some current => membersInto fields current rest

def record (fields : List (FieldReader α)) : Decoder α := fun current ts =>
  match ts with
  | [] => none
  | t :: _ =>
    match t.kind with
    | .null => some current
    | .openObject => membersInto fields current (members ts)
    | _ => none

def run (d : Decoder α) (zero : α) (bs : Bytes) : Except DecodeError α :=
  match parse? (some maxDepth) bs with
  | none => .error .malformed
  | some ts =>
    match d zero ts with
    | none => .error .mismatch
    | some v => .ok v

end Decoder

end LanguageClient.Json
