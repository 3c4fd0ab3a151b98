import LanguageClient.Json.Writer

/-! # Values to be written.

A tree holds a value that is made by the program: its numbers are integers,
and the members of its objects keep their order. -/

namespace LanguageClient.Json

/-- A value to be written. -/
inductive Tree where
  | null
  | bool (b : Bool)
  | int (n : Int)
  | str (s : String)
  | arr (l : List Tree)
  | obj (l : List (String × Tree))

namespace Tree

instance : Coe Bool Tree := ⟨bool⟩
instance : Coe Int Tree := ⟨int⟩
instance : Coe Nat Tree := ⟨fun n => int n⟩
instance : Coe String Tree := ⟨str⟩
instance : Coe (List String) Tree := ⟨fun l => arr (l.map str)⟩
instance : Coe (List Tree) Tree := ⟨arr⟩

def opt (f : α → Tree) (a : Option α) : Tree := (a.map f).getD null

/-- Octets: a text if they are one, else an object with their hexadecimal
digits. -/
def octets (bs : Bytes) : Tree :=
  if Utf8.isValid bs then str (textOf bs)
  else obj [("hex", str (String.ofList (bs.flatMap fun b => Text.hex 2 b.toNat)))]

mutual

def bytes : Tree → Bytes
  | null => Json.null
  | bool b => Json.boolean b
  | int n => Json.integer n
  | str s => Json.quote s
  | arr l => Json.array (elementBytes l)
  | obj l => Json.object (memberBytes l)

def elementBytes : List Tree → List Bytes
  | [] => []
  | t :: ts => t.bytes :: elementBytes ts

def memberBytes : List (String × Tree) → List (String × Bytes)
  | [] => []
  | (name, t) :: ms => (name, t.bytes) :: memberBytes ms

end

end Tree

end LanguageClient.Json
