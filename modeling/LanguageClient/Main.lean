import LanguageClient.Rehearsal.Performance
import Std.Time.DateTime.Timestamp

/-! # The program.

The program takes what a command line may look at from the disk, executes the
command line on that, and puts what has changed back. It reaches neither the
network nor other processes: a download and the start of a server fail as they
would on a machine that forbids both. -/

namespace LanguageClient.Main

open CommandLine Rehearsal

/-- The variables of the process that have a meaning. -/
def variableNames : List String :=
  ["HOME", "XDG_CONFIG_HOME", "XDG_CACHE_HOME", "TMPDIR", "GBNF_CLIENT_CONFIG"] ++
    Config.knownVariables.map fun v => v.1

/-- The paths a command line may look at, as far as the files read up to now
tell: the configuration first, and with it everything else. -/
def consulted (s : Surroundings) (words : List String) (fs : FileSystem) : List String :=
  match findCommand words with
  | .error _ => []
  | .ok (c, words) =>
    match parseFlags c.allFlags {} words with
    | .error _ => []
    | .ok a =>
      let configPath := orElse (a.text "config") (Config.defaultPath s.environment)
      match Client.load Config.FileContent.ofYaml? s fs (a.text "config") (settingsOf a) with
      | .error _ => [configPath]
      | .ok client =>
        let binaries := match client.binary with
          | .ok b => [b.path, Provision.lockPath b]
          | .error _ => []
        configPath :: client.manifest.path :: client.config.log.file :: binaries ++ a.rest

/-- The files with what the disk has at a path: a file, a directory, which
cannot be read, or nothing. -/
def readFrom (path : String) (fs : FileSystem) : IO FileSystem := do
  match ← (IO.FS.readBinFile path).toBaseIO with
  | .ok content => return fs.place path (.file content.toList 0o755)
  | .error (.noFileOrDirectory ..) => return fs
  | .error (.permissionDenied ..) => return fs.place path (.file [] 0)
  | .error _ => return fs.place path .directory

/-- Puts the entries that have changed on the disk. -/
def writeBack (before after : FileSystem) : IO Unit :=
  for (loc, e) in after.entries do
    unless before.entryAt? loc = some e do
      match e with
      | .directory => IO.FS.createDirAll (FileSystem.pathOf loc)
      | .file content _ => IO.FS.writeBinFile (FileSystem.pathOf loc) (ByteArray.mk content.toArray)
      | .link _ => pure ()

/-- The octets of a random session id: version 4, in the usual variant. -/
def sessionOctets (random : Bytes) : Bytes :=
  random.mapIdx fun i b =>
    if i = 6 then b &&& 0x0F ||| 0x40 else if i = 8 then b &&& 0x3F ||| 0x80 else b

def surroundings : IO Surroundings := do
  let found ← variableNames.filterMapM fun name => do return (← IO.getEnv name).map (name, ·)
  return { environment := found, settingVariables := found, platform := .ofTarget "linux" "amd64" }

def opening (s : Surroundings) (words : List String) : IO Performance := do
  let directory := FileSystem.parts (toString (← IO.currentDir)) |>.filter (· ≠ "")
  let empty : FileSystem := { workingDirectory := directory }
  let empty := empty.makeDirectories directory
  let configured ← (consulted s words empty).foldlM (fun fs path => readFrom path fs) empty
  let files ← (consulted s words configured).foldlM (fun fs path => readFrom path fs) empty
  let random ← IO.getRandomBytes 16
  let now ← Std.Time.Timestamp.now
  return {
    files
    exchanges := [{ outcome := .refused (.plain "network is unreachable") }]
    spawnError := some (.plain "operation not permitted")
    session := ⟨⟨sessionOctets random.toList⟩⟩
    now := ⟨now.toMillisecondsSinceUnixEpoch.val⟩ }

def execute (words : List String) : IO UInt32 := do
  let s ← surroundings
  let start ← opening s words
  let (p, failure) := CommandLine.execute Performance.world s words start
  writeBack start.files p.files
  IO.print p.printed
  IO.eprint p.console
  match failure with
  | none => return 0
  | some e =>
    IO.eprintln ("Error: " ++ e.message)
    return 1

end LanguageClient.Main

def main (words : List String) : IO UInt32 := LanguageClient.Main.execute words
