import LanguageClient.Config.Basic
import LanguageClient.FileSystem

/-! # Sources of configuration.

A file, variables of the environment, and flags of the command line. A flag
wins over a variable, and a variable over the file. How the octets of a file are
understood is not settled here: a `Decoder` says it. -/

namespace LanguageClient.Config

structure FlagSetting where
  key : String
  flag : String
  value : Setting

/-- Where settings can come from. -/
inductive Source where
  /-- A file; it may be missing, and `""` is none at all. -/
  | file (path : String)
  | environment (env : Environment)
  /-- Flags, in the order in which they were set. -/
  | flags (set : List FlagSetting)

namespace Source

def name : Source → String
  | .file _ => "file"
  | .environment _ => "env"
  | .flags _ => "flags"

/-- The priority of a source; the least number wins. -/
def priority : Source → Nat
  | .flags _ => 1
  | .environment _ => 2
  | .file _ => 3

end Source

/-- Orders in which what has no order of its own is gone through. Which of several
time limits is reported depends on it, and nothing else. -/
structure Iteration where
  limits : List (Key × Option String) → List (Key × Option String) := id
  entries : Source → Snapshot → Snapshot := fun _ => id
  won : Snapshot → Snapshot := id
  limits_perm : ∀ l, (limits l).Perm l := by exact fun _ => .rfl
  entries_perm : ∀ s found, (entries s found).Perm found := by exact fun _ _ => .rfl
  won_perm : ∀ found, (won found).Perm found := by exact fun _ => .rfl

/-- Everything in the order in which it stands. -/
def Iteration.asGiven : Iteration := {}

/-! ### Files -/

structure LogSection where
  file : Option String := none
  maxSizeMb : Option Int := none
  maxBackups : Option Int := none
  maxAgeDays : Option Int := none
  compress : Option Bool := none

structure FileContent where
  installRoot : Option String := none
  baseName : Option String := none
  languageId : Option String := none
  extensions : Option (List String) := none
  releaseBaseUrl : Option String := none
  manifestPath : Option String := none
  version : Option String := none
  downloadTimeout : Option String := none
  startTimeout : Option String := none
  stopTimeout : Option String := none
  debug : Option Bool := none
  log : Option LogSection := none

/-- How the octets of a configuration file are understood; `none` if they cannot be. -/
abbrev Decoder := Bytes → Option FileContent

def given {α : Type} (k : Key) (make : α → Setting) (v : Option α) : List (Key × Setting) :=
  match v with
  | some v => [(k, make v)]
  | none => []

/-- An optional time limit, which the file has as text. -/
def givenDuration (path : String) (k : Key) : Option String → Except Error (List (Key × Setting))
  | none => .ok []
  | some s =>
    match Duration.parse s with
    | .ok d => .ok [(k, .duration d)]
    | .error e => .error (.context ("invalid " ++ k.name ++ " in " ++ path) (.duration e))

def FileContent.limits (c : FileContent) : List (Key × Option String) :=
  [(.downloadTimeout, c.downloadTimeout), (.startTimeout, c.startTimeout), (.stopTimeout, c.stopTimeout)]

/-- The settings in a file, with the time limits that were read. -/
def FileContent.withLimits (c : FileContent) (limits : List (Key × Setting)) : List (Key × Setting) :=
  let log := c.log.getD {}
  given .installRoot .text c.installRoot ++ given .baseName .text c.baseName ++
    given .languageId .text c.languageId ++ given .releaseBaseUrl .text c.releaseBaseUrl ++
    given .manifestPath .text c.manifestPath ++ given .version .text c.version ++
    given .extensions .texts c.extensions ++ limits ++
    given .debug .boolean c.debug ++ given .logFile .text log.file ++
    given .logMaxSize .number log.maxSizeMb ++ given .logMaxBackups .number log.maxBackups ++
    given .logMaxAge .number log.maxAgeDays ++ given .logCompress .boolean log.compress

def FileContent.settings (order : Iteration) (path : String) (c : FileContent) :
    Except Error (List (Key × Setting)) := do
  let limits ← (order.limits c.limits).mapM fun (k, v) => givenDuration path k v
  return c.withLimits limits.flatten

/-- What a configuration file says; one that is missing says nothing. -/
def readFile (decode : Decoder) (fs : FileSystem) (path : String) : Except Error FileContent :=
  if path = "" then .ok {}
  else
    match fs.content path with
    | .error e =>
      if e.isA .notExist then .ok {} else .error (.context "failed to read config file" e)
    | .ok bs =>
      match decode bs with
      | none => .error (.context ("failed to parse config file " ++ path) .yaml)
      | some c => .ok c

/-! ### Variables -/

/-- A truth value as variables spell it. -/
def truth? (s : String) : Option Bool :=
  if s ∈ ["1", "t", "T", "TRUE", "true", "True"] then some true
  else if s ∈ ["0", "f", "F", "FALSE", "false", "False"] then some false
  else none

/-- The parts of a list between commas, without blanks around them and without
empty ones. -/
def listOf (s : String) : List String :=
  ((Path.splitAt ',' s.toList).map fun p => Text.trim (String.ofList p)).filter (· ≠ "")

def asText (s : String) : Except Error Setting := .ok (.text s)

def asList (s : String) : Except Error Setting := .ok (.texts (listOf s))

def asDuration (s : String) : Except Error Setting :=
  match Duration.parse s with
  | .ok d => .ok (.duration d)
  | .error e => .error (.duration e)

def asBoolean (s : String) : Except Error Setting :=
  match truth? s with
  | some b => .ok (.boolean b)
  | none => .error (.notBoolean s)

/-- The variables looked at, the keys they set and how they are read. -/
def knownVariables : List (String × Key × (String → Except Error Setting)) :=
  [("GBNF_INSTALL_ROOT", .installRoot, asText), ("GBNF_BASE_NAME", .baseName, asText),
    ("GBNF_LANGUAGE_ID", .languageId, asText), ("GBNF_EXTENSIONS", .extensions, asList),
    ("GBNF_RELEASE_BASE_URL", .releaseBaseUrl, asText), ("GBNF_MANIFEST_PATH", .manifestPath, asText),
    ("GBNF_VERSION", .version, asText), ("GBNF_DOWNLOAD_TIMEOUT", .downloadTimeout, asDuration),
    ("GBNF_START_TIMEOUT", .startTimeout, asDuration), ("GBNF_STOP_TIMEOUT", .stopTimeout, asDuration),
    ("GBNF_LOG_FILE", .logFile, asText), ("GBNF_DEBUG", .debug, asBoolean)]

/-- Reads one variable, if it is set and not empty, behind the errors and entries
of those before it. -/
def readVariable (env : Environment) (done : List Error × Snapshot)
    (v : String × Key × (String → Except Error Setting)) : List Error × Snapshot :=
  let (errors, found) := done
  let (name, k, read) := v
  let s := env.value name
  if s = "" then (errors, found)
  else
    match read s with
    | .ok v =>
      (errors, found ++ [{ key := k.name, value := v, source := "env", sourcePath := name, priority := 2 }])
    | .error e => (errors ++ [.context name e], found)

/-- Reads the variables that are set and not empty: all errors, or the entries. -/
def readVariables (env : Environment) : List Error × Snapshot :=
  knownVariables.foldl (readVariable env) ([], [])

/-! ### Flags -/

def FlagSetting.entry (f : FlagSetting) : Entry :=
  { key := f.key, value := f.value, source := "flags", sourcePath := "--" ++ f.flag, priority := 1 }

/-- What flags set; a later one for the same key replaces an earlier one. -/
def recorded (set : List FlagSetting) : Snapshot := set.foldl (fun found f => found.set f.entry) []

/-! ### Snapshots -/

def Source.load (decode : Decoder) (fs : FileSystem) (order : Iteration) : Source → Except Error Snapshot
  | .file path => do
    let c ← readFile decode fs path
    let settings ← c.settings order path
    return settings.map fun (k, v) =>
      { key := k.name, value := v, source := "file", sourcePath := path, priority := 3 }
  | .environment env =>
    match readVariables env with
    | ([], found) => .ok found
    | (errors, _) => .error (.joined errors)
  | .flags set => .ok (recorded set)

end LanguageClient.Config
