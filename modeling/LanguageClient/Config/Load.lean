import LanguageClient.Config.Source

/-! # The configuration in effect.

The winning entries of all sources are applied to the built-in values in the
order of their keys; the result has to be valid. Entries that do not win are
never looked at. -/

namespace LanguageClient.Config

/-- The winning entries of all sources. The first source that fails decides. -/
def winners (decode : Decoder) (fs : FileSystem) (order : Iteration) :
    List Source → Snapshot → Except Error Snapshot
  | [], won => .ok won
  | s :: rest, won =>
    match s.load decode fs order with
    | .error e => .error (.context ("failed to load " ++ s.name ++ " configuration") e)
    | .ok found => winners decode fs order rest (won.merge (order.entries s found))

def applyAll (c : Config) (entries : List Entry) : Except Error Config := entries.foldlM apply c

/-- The configuration that entries give, with the built-in values of an environment. -/
def ofEntries (env : Environment) (entries : Snapshot) : Except Error Config := do
  let c ← applyAll (builtin env) entries
  let c := { c with sources := entries }
  match c.validate with
  | .error e => throw (.context "invalid configuration" e)
  | .ok _ => return c

/-- The configuration that sources give, with the built-in values of an environment. -/
def loadIn (order : Iteration) (decode : Decoder) (fs : FileSystem) (env : Environment)
    (sources : List Source) : Except Error Config := do
  let won ← winners decode fs order sources []
  ofEntries env (order.won won).sorted

def load (decode : Decoder) (fs : FileSystem) (env : Environment) (sources : List Source) :
    Except Error Config :=
  loadIn .asGiven decode fs env sources

end LanguageClient.Config
