import LanguageClient.CommandLine.Help
import LanguageClient.Run

/-! # Executing a command line.

The words of a command line lead to a command; its flags are read, its
arguments checked, and then it is run. What commands need of the world outside
is given to them as a `World`. -/

namespace LanguageClient.CommandLine

/-- The world outside, as commands see it. -/
structure World (σ η : Type) where
  /-- Prints a text. -/
  print : String → σ → σ
  files : σ → FileSystem
  decode : Config.Decoder
  /-- Opens the output channel of a client; a quiet one is not shown. -/
  openChannel : Client → Bool → σ → σ
  say : Report → σ → σ
  debug : String → σ → σ
  provision : Client → Binary → σ → σ × Except Error Binary
  servers : Client → Servers σ η
  interrupted : σ → Bool
  /-- From now on no call is given up because the program has been interrupted. -/
  shield : σ → σ
  next : Bool → σ → σ × Run.Happening
  /-- Waits for whoever follows edits to stop. -/
  late : σ → σ × Option String
  /-- How many edits are followed at most. -/
  patience : Nat := 1000
  /-- The id of the next session. -/
  sessionId : σ → SessionId

/-! ### What is printed -/

def versionText (b : Build) : String :=
  programName ++ " version " ++ b.version ++ "\nBuild time: " ++ b.time ++ "\nGo version: " ++ b.compiler ++
    "\nPlatform: " ++ b.os ++ "/" ++ b.architecture ++ "\n"

def orElse (s usual : String) : String := if s = "" then usual else s

def configText (c : Config) : String :=
  "Current Configuration:\n" ++
    "Install Root: " ++ c.installRoot ++ "\n" ++
    "Base Name: " ++ c.baseName ++ "\n" ++
    "Language: " ++ c.languageId ++ " (" ++ String.intercalate ", " c.extensions ++ ")\n" ++
    "Release URL: " ++ c.releaseBaseUrl ++ "\n" ++
    "Manifest: " ++ c.effectiveManifest ++ "\n" ++
    "Server Version: " ++ orElse c.version "(from manifest)" ++ "\n" ++
    "Timeouts: download " ++ c.downloadTimeout.text ++ ", start " ++ c.startTimeout.text ++
      ", stop " ++ c.stopTimeout.text ++ "\n" ++
    "Log File: " ++ orElse c.log.file "(not set)" ++ "\n" ++
    "Debug: " ++ (if c.debug then "true" else "false") ++ "\n" ++
    (if c.sources.isEmpty then ""
    else
      "\nSources:\n" ++ String.join (c.sources.map fun e =>
        "  " ++ e.key ++ ": " ++ e.source ++ " (" ++ e.sourcePath ++ ")\n"))

def binaryText (c : Client) (fs : FileSystem) (b : Binary) : String :=
  let installed := match fs.stat b.path with
    | .ok (.file _ _) => "yes"
    | _ => "no"
  "Platform:  " ++ b.platform.text ++ "\n" ++
    "Base name: " ++ c.config.baseName ++ "\n" ++
    "Binary:    " ++ b.name ++ "\n" ++
    "Path:      " ++ b.path ++ "\n" ++
    "Installed: " ++ installed ++ "\n" ++
    "Manifest:  " ++ c.manifest.path ++ "\n"

/-! ### Flags as settings -/

/-- Which flags are settings, and of which key. -/
def settingFlags : List (String × String) :=
  [("install-root", "install_root"), ("base-name", "base_name"), ("release-url", "release_base_url"),
    ("server-version", "version"), ("debug", "debug"), ("start-timeout", "start_timeout")]

def Value.setting : Value → Config.Setting
  | .text s => .text s
  | .switch on => .boolean on
  | .duration d => .duration d

/-- The settings among the flags that were given. -/
def settingsOf (a : Arguments) : List Config.FlagSetting :=
  settingFlags.filterMap fun (flag, key) =>
    (a.values.lookup flag).map fun v => { key, flag, value := v.setting }

/-! ### Running a command -/

variable (world : World σ η)

/-- Loads the client and opens its channel, then goes on with it. -/
def withClient (s : Surroundings) (a : Arguments) (quiet : Bool)
    (go : Client → σ → σ × Option Error) (w : σ) : σ × Option Error :=
  match Client.load world.decode s (world.files w) (a.text "config") (settingsOf a) with
  | .error e => (w, some e)
  | .ok c => go c (world.debug c.loadedLine (world.openChannel c quiet w))

/-- An error with a text in front of it, if there is one. -/
def explain (text : String) (r : σ × Option Error) : σ × Option Error :=
  (r.1, r.2.map (.context text))

/-- What a run of the client needs. -/
def meansOf (c : Client) : Run.Means σ η where
  client := c
  activator :=
    { say := world.say, resolved := c.binary, provision := some (world.provision c)
      selector := c.selector, servers := world.servers c }
  files := world.files
  debug := world.debug
  interrupted := world.interrupted
  shield := world.shield
  next := world.next
  late := world.late
  patience := world.patience

def runOptions (a : Arguments) : Run.Options :=
  { mode := if a.switch "debug-server" false then .debug else .run
    once := a.switch "once" false
    watch := a.switch "watch" true
    files := a.rest }

def perform (s : Surroundings) (a : Arguments) (w : σ) : Action → σ × Option Error
  | .version => (world.print (versionText s.build) w, none)
  | .help => (world.print (helpFor a.rest) w, none)
  | .completion => (w, none)
  | .configPath =>
    (world.print ("Configuration file path: " ++
      orElse (a.text "config") (Config.defaultPath s.environment) ++ "\n") w, none)
  | .configShow =>
    explain "failed to load configuration"
      (withClient world s a true (fun c w => (world.print (configText c.config) w, none)) w)
  | .resolve =>
    withClient world s a true
      (fun c w =>
        match c.binary with
        | .error e => (w, some e)
        | .ok b => (world.print (binaryText c (world.files w) b) w, none)) w
  | .provision =>
    withClient world s a false
      (fun c w =>
        match c.binary with
        | .error e => (w, some e)
        | .ok b =>
          match world.provision c b w with
          | (w, .error e) => (w, some (.context "provisioning failed" e))
          | (w, .ok b) => (world.print ("Server binary ready: " ++ b.path ++ "\n") w, none)) w
  | .run =>
    withClient world s a (a.switch "tui" false)
      (fun c w =>
        let (w, _, failure) := Run.run (meansOf world c) (runOptions a) (world.sessionId w) w
        (w, failure)) w

/-- Refuses arguments where there should be none, and flags that exclude each
other. -/
def checkArguments (c : Command) (a : Arguments) : Except Error Unit :=
  match c.takesArguments, a.rest with
  | false, word :: _ => .error (.plain (unknownCommand c word))
  | _, _ =>
    if c.action = some .run && a.given "tui" && a.given "once" then
      .error (.plain ("if any flags in the group [tui once] are set none of the others can be; " ++
        "[once tui] were all set"))
    else .ok ()

def execute (s : Surroundings) (words : List String) (w : σ) : σ × Option Error :=
  match findCommand words with
  | .error e => (w, some e)
  | .ok (c, words) =>
    match parseFlags c.allFlags {} words with
    | .error e => (w, some e)
    | .ok a =>
      if a.switch "help" false then (world.print c.help w, none)
      else if a.switch "version" false then (world.print (versionText s.build) w, none)
      else
        match c.action with
        | none => (world.print c.help w, none)
        | some action =>
          match checkArguments c a with
          | .error e => (w, some e)
          | .ok _ => perform world s a w action

end LanguageClient.CommandLine
