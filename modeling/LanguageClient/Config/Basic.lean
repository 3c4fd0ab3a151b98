import LanguageClient.Config.Setting
import LanguageClient.Error
import LanguageClient.Path
import LanguageClient.Text.Case
import LanguageClient.Text.Space

/-! # The configuration of the client.

Built-in values, the effect of a setting on its key, and the check for values
that can never work. -/

namespace LanguageClient

abbrev Environment := List (String × String)

/-- The value of a variable; one that is not set counts as empty. -/
def Environment.value (env : Environment) (name : String) : String := (env.lookup name).getD ""

structure LogConfig where
  file : String := ""
  maxSizeMb : Int := 10
  maxBackups : Int := 3
  maxAgeDays : Int := 28
  compress : Bool := false
  deriving DecidableEq, Repr

/-- The configuration in effect. -/
structure Config where
  installRoot : String
  baseName : String := "gbnf-engine"
  languageId : String := "gbnf"
  extensions : List String := [".gbnf"]
  releaseBaseUrl : String := "https://github.com/gbnf-dev/gbnf-lsp/releases/download"
  manifestPath : String := ""
  version : String := ""
  downloadTimeout : Duration := .ofSeconds 300
  startTimeout : Duration := .ofSeconds 10
  stopTimeout : Duration := .ofSeconds 2
  log : LogConfig := {}
  debug : Bool := false
  /-- The winning entry of every key that a source has set. -/
  sources : Config.Snapshot := []
  deriving DecidableEq, Repr

namespace Config

/-! ### Places -/

/-- A directory of the user: the one a variable names, which has to be rooted,
or the usual one in the home directory. -/
def userDirectory? (env : Environment) (variableName usual : String) : Option String :=
  let given := env.value variableName
  if given = "" then
    let home := env.value "HOME"
    if home = "" then none else some (home ++ "/" ++ usual)
  else if Path.rooted given then some given
  else none

def temporaryDirectory (env : Environment) : String :=
  let given := env.value "TMPDIR"
  if given = "" then "/tmp" else given

def directoryName : String := "gbnf-client"

/-- Where binaries go unless a source says otherwise. -/
def defaultInstallRoot (env : Environment) : String :=
  Path.join [(userDirectory? env "XDG_CACHE_HOME" ".cache").getD (temporaryDirectory env), directoryName]

/-- The configuration file used if none is named; `""` if there is no place for one. -/
def defaultPath (env : Environment) : String :=
  let named := env.value "GBNF_CLIENT_CONFIG"
  if named ≠ "" then named
  else
    match userDirectory? env "XDG_CONFIG_HOME" ".config" with
    | some dir => Path.join [dir, directoryName, "config.yaml"]
    | none => ""

def builtin (env : Environment) : Config := { installRoot := defaultInstallRoot env }

/-- The manifest next to the binaries. -/
def manifestName : String := "package.json"

/-- Where the manifest is: where the configuration says, or in the install root. -/
def effectiveManifest (c : Config) : String :=
  if c.manifestPath ≠ "" then c.manifestPath else Path.join [c.installRoot, manifestName]

/-- The language of files with an extension, in any case of letters. -/
def languageOf? (c : Config) (extension : String) : Option String :=
  let ext := Text.lower extension
  if c.extensions.any fun e => Text.lower e = ext then some c.languageId else none

/-- The language of a file by its extension. -/
def languageFor? (c : Config) (path : String) : Option String := c.languageOf? (Path.extension path)

/-! ### Settings -/

/-- Gives a key a value; `none` if the key does not take values of that type. -/
def assign (k : Key) (v : Setting) (c : Config) : Option Config :=
  match k, v with
  | .installRoot, .text s => some { c with installRoot := s }
  | .baseName, .text s => some { c with baseName := s }
  | .languageId, .text s => some { c with languageId := s }
  | .releaseBaseUrl, .text s => some { c with releaseBaseUrl := s }
  | .manifestPath, .text s => some { c with manifestPath := s }
  | .version, .text s => some { c with version := s }
  | .logFile, .text s => some { c with log := { c.log with file := s } }
  | .extensions, .texts l => some { c with extensions := l }
  | .downloadTimeout, .duration d => some { c with downloadTimeout := d }
  | .startTimeout, .duration d => some { c with startTimeout := d }
  | .stopTimeout, .duration d => some { c with stopTimeout := d }
  | .logMaxSize, .number n => some { c with log := { c.log with maxSizeMb := n } }
  | .logMaxBackups, .number n => some { c with log := { c.log with maxBackups := n } }
  | .logMaxAge, .number n => some { c with log := { c.log with maxAgeDays := n } }
  | .logCompress, .boolean b => some { c with log := { c.log with compress := b } }
  | .debug, .boolean b => some { c with debug := b }
  | _, _ => none

def apply (c : Config) (e : Entry) : Except Error Config :=
  match Key.ofName? e.key with
  | none => .error (.plain ("unknown configuration key " ++ Text.quote e.key ++ " from " ++ e.source))
  | some k =>
    match c.assign k e.value with
    | some c => .ok c
    | none =>
      .error (.plain ("invalid value for " ++ e.key ++ " from " ++ e.source ++ " (" ++ e.sourcePath ++
        "): " ++ e.value.display))

/-! ### Validity -/

def isBlank (s : String) : Bool := Text.trim s = ""

/-- Refuses an address that nothing can be downloaded from. -/
def validateReleaseUrl (s : String) : Except Error Unit :=
  if s = "" then .error (.plain "release base URL cannot be empty")
  else
    match Url.parse s with
    | .error m => .error (.context "invalid release base URL" (.ofMalformedUrl m))
    | .ok u =>
      if u.scheme ≠ "http" && u.scheme ≠ "https" then
        .error (.plain ("unsupported URL scheme: " ++ u.scheme ++ " (must be http or https)"))
      else if u.host.isEmpty then .error (.plain "release base URL must include host")
      else .ok ()

def validateTimeout (what : String) (d : Duration) : Except Error Unit :=
  if d.nanoseconds ≤ 0 then .error (.plain (what ++ " timeout must be positive, got " ++ d.text))
  else .ok ()

/-- Refuses values that can never work. -/
def validate (c : Config) : Except Error Unit := do
  if isBlank c.installRoot then throw (.plain "install root cannot be empty")
  if isBlank c.baseName then throw (.plain "base name cannot be empty")
  if c.baseName.toList.any fun l => l = '/' || l = '\\' then
    throw (.plain ("base name cannot contain path separators: " ++ c.baseName))
  if isBlank c.languageId then throw (.plain "language id cannot be empty")
  validateReleaseUrl c.releaseBaseUrl
  validateTimeout "download" c.downloadTimeout
  validateTimeout "start" c.startTimeout
  validateTimeout "stop" c.stopTimeout

end Config

end LanguageClient
