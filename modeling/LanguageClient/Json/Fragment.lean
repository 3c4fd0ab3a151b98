import LanguageClient.Json.Grammar
import LanguageClient.Json.Value
import LanguageClient.Uuid

/-! # Values to be read.

A fragment is a value as it was written, by its tokens. Its parts are read by
the kind they are expected to have, and reading fails where the kind is
another one. A member that is absent or null has the empty value of its kind. -/

namespace LanguageClient.Json

/-- A value, by its tokens. -/
structure Fragment where
  tokens : List Token

namespace Fragment

def parse? (text : Bytes) : Option Fragment := (Json.parse? none text).map .mk

def kind? (v : Fragment) : Option Kind := v.tokens.head?.map (·.kind)

def isNull (v : Fragment) : Bool := v.kind? == some .null

/-! ### By kind -/

def str? (v : Fragment) : Option String :=
  match v.tokens with
  | [t] => if t.kind == .string then some (unquote t.lexeme) else none
  | _ => none

def int? (v : Fragment) : Option Int :=
  match v.tokens with
  | [t] => if t.kind == .number then integerOf? t.lexeme else none
  | _ => none

def bool? (v : Fragment) : Option Bool :=
  match v.kind? with
  | some (.bool b) => some b
  | _ => none

def list? (v : Fragment) : Option (List Fragment) :=
  if v.kind? == some .openArray then some ((elements v.tokens).map .mk) else none

def members? (v : Fragment) : Option (List (String × Fragment)) :=
  if v.kind? == some .openObject then
    some ((members v.tokens).map fun (name, ts) => (unquote name, ⟨ts⟩))
  else none

/-! ### Members -/

/-- A member by its name; the last one counts. -/
def lookup (name : String) (v : Fragment) : Option Fragment :=
  v.members?.bind fun ms => (ms.reverse.find? (·.1 == name)).map (·.2)

/-- A member that is not null. -/
def sub? (v : Fragment) (name : String) : Option Fragment := (v.lookup name).filter (!·.isNull)

/-- A member, or a value that stands for it where it is absent. -/
def memberOr (usual : α) (read : Fragment → Option α) (v : Fragment) (name : String) : Option α :=
  match v.sub? name with
  | some x => read x
  | none => some usual

def strOr (v : Fragment) (name usual : String) : Option String := v.memberOr usual str? name

def str (v : Fragment) (name : String) : Option String := v.strOr name ""

def int (v : Fragment) (name : String) : Option Int := v.memberOr 0 int? name

def bool (v : Fragment) (name : String) : Option Bool := v.memberOr false bool? name

def list (v : Fragment) (name : String) : Option (List Fragment) := v.memberOr [] list? name

def obj (v : Fragment) (name : String) : Option (List (String × Fragment)) := v.memberOr [] members? name

def strs (v : Fragment) (name : String) : Option (List String) := (v.list name).bind (·.mapM str?)

def text? (v : Fragment) (name : String) : Option (Option String) :=
  v.memberOr none (fun x => x.str?.map some) name

/-! ### Octets -/

/-- Octets: a text, an object with hexadecimal digits or with octets to be
repeated, or a list of such values, at most so deep. -/
def octetsWithin : Nat → Fragment → Option Bytes
  | 0, _ => none
  | depth + 1, v =>
    match v.kind? with
    | some .string => v.str?.map utf8
    | some .openArray => do return (← (← v.list?).mapM (octetsWithin depth)).flatten
    | some .openObject =>
      match v.sub? "hex", v.sub? "repeat" with
      | some h, _ => do Uuid.pairs? (utf8 (← h.str?))
      | none, some r => do
        return (List.replicate (← v.int "n").toNat (← octetsWithin depth r)).flatten
      | none, none => some []
    | some .null => some []
    | _ => none

def octets? (v : Fragment) : Option Bytes := octetsWithin (v.tokens.length + 1) v

def octets (v : Fragment) (name : String) : Option Bytes := v.memberOr [] octets? name

end Fragment

end LanguageClient.Json
