import LanguageClient.Config.Load
import LanguageClient.Document
import LanguageClient.Log.Channel
import LanguageClient.Manifest
import LanguageClient.Provision.Step
import LanguageClient.Supervisor.State

/-! # The client.

A client is a configuration together with the platform it runs on. What the
commands work with is made from it. -/

namespace LanguageClient

structure Build where
  version : String := "dev"
  time : String := "unknown"
  compiler : String := "unknown"
  os : String := "linux"
  architecture : String := "amd64"

/-- What the surroundings say to the program when it starts. -/
structure Surroundings where
  /-- The variables of the process. -/
  environment : Environment := []
  /-- The variables that are read as settings. -/
  settingVariables : Environment := []
  platform : Platform
  build : Build := {}

structure Client where
  config : Config
  configPath : String
  platform : Platform
  build : Build := {}

namespace Client

def channelName : String := "GBNF LSP"

/-- The name the client gives to servers. -/
def name : String := "gbnf-client"

/-- Loads the configuration from a file, the variables and the flags. -/
def load (decode : Config.Decoder) (s : Surroundings) (fs : FileSystem) (path : String)
    (flags : List Config.FlagSetting) : Except Error Client :=
  let configPath := if path = "" then Config.defaultPath s.environment else path
  let sources : List Config.Source := [.file configPath, .environment s.settingVariables, .flags flags]
  match Config.load decode fs s.environment sources with
  | .ok config => .ok { config, configPath, platform := s.platform, build := s.build }
  | .error e => .error (.context "failed to load configuration" e)

variable (c : Client)

/-- What is noted when the configuration has been loaded. -/
def loadedLine : String :=
  "Configuration loaded from " ++ c.configPath ++ " (install root " ++ c.config.installRoot ++ ")"

/-- The output channel; it writes to a log file only if the configuration names one. -/
def channel (file : Log.LogFile) : Log.Channel :=
  .make channelName 0 c.config.debug .works (if c.config.log.file = "" then none else some file)

def binary : Except Error Binary :=
  match Binary.resolve? c.config.installRoot c.config.baseName c.platform with
  | some b => .ok b
  | none => .error (.unsupportedPlatform c.platform)

/-- The manifest that names the release, unless the configuration does. -/
def manifest : Manifest := ({ path := c.config.effectiveManifest } : Manifest).withOverride c.config.version

def provisioner : Provision.Provisioner :=
  .make c.config.releaseBaseUrl (name ++ "/" ++ c.build.version) c.manifest.releaseVersion true

/-- The documents that are the server's business. -/
def selector : Selector := .files c.config.languageId

def settings (fs : FileSystem) (b : Binary) : Supervisor.Settings :=
  { binary := b
    client := { name, version := c.build.version }
    rootUri := textOf (fileUri (utf8 (FileSystem.pathOf fs.workingDirectory)) [])
    startTimeout := Supervisor.orDefault c.config.startTimeout (.ofSeconds 10)
    stopTimeout := Supervisor.orDefault c.config.stopTimeout (.ofSeconds 2)
    files := fs }

end Client

end LanguageClient
