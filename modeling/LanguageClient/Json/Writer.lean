import LanguageClient.Json.Text
import LanguageClient.Number.Decimal

/-! # Writing JSON.

Values are written member by member, in the order given, without white space. -/

namespace LanguageClient.Json

def separated (sep : UInt8) : List Bytes → Bytes
  | [] => []
  | [p] => p
  | p :: ps => p ++ sep :: separated sep ps

/-- An object from its members, whose values are written already. -/
def object (members : List (String × Bytes)) : Bytes :=
  0x7B :: separated 0x2C (members.map fun (name, value) => quote name ++ 0x3A :: value) ++ [0x7D]

/-- An array from its elements, which are written already. -/
def array (elements : List Bytes) : Bytes := 0x5B :: separated 0x2C elements ++ [0x5D]

def integer (n : Int) : Bytes := utf8 (Number.intText n)

def boolean (b : Bool) : Bytes := utf8 (if b then "true" else "false")

def null : Bytes := utf8 "null"

/-- A member that is left out when its value is absent. -/
def optionalMember (name : String) (value : Option Bytes) : List (String × Bytes) :=
  match value with
  | none => []
  | some v => [(name, v)]

end LanguageClient.Json
