import LanguageClient.Duration
import LanguageClient.Number.Decimal

/-! # Settings and where they come from.

A setting belongs to a key. Every source gives a snapshot, which has at most
one entry per key; of the entries of several sources for one key, that with
the least priority number wins. -/

namespace LanguageClient.Config

inductive Setting where
  | text (s : String)
  | texts (l : List String)
  | duration (d : Duration)
  | number (n : Int)
  | boolean (b : Bool)
  | nothing
  deriving DecidableEq, Repr

def Setting.display : Setting → String
  | .text s => s
  | .texts l => "[" ++ String.intercalate " " l ++ "]"
  | .duration d => d.text
  | .number n => Number.intText n
  | .boolean b => if b then "true" else "false"
  | .nothing => "<nil>"

/-- What can be set. -/
inductive Key where
  | installRoot
  | baseName
  | languageId
  | extensions
  | releaseBaseUrl
  | manifestPath
  | version
  | downloadTimeout
  | startTimeout
  | stopTimeout
  | debug
  | logFile
  | logMaxSize
  | logMaxBackups
  | logMaxAge
  | logCompress
  deriving DecidableEq, Repr

namespace Key

def name : Key → String
  | .installRoot => "install_root"
  | .baseName => "base_name"
  | .languageId => "language_id"
  | .extensions => "extensions"
  | .releaseBaseUrl => "release_base_url"
  | .manifestPath => "manifest_path"
  | .version => "version"
  | .downloadTimeout => "download_timeout"
  | .startTimeout => "start_timeout"
  | .stopTimeout => "stop_timeout"
  | .debug => "debug"
  | .logFile => "log.file"
  | .logMaxSize => "log.max_size_mb"
  | .logMaxBackups => "log.max_backups"
  | .logMaxAge => "log.max_age_days"
  | .logCompress => "log.compress"

def all : List Key :=
  [.installRoot, .baseName, .languageId, .extensions, .releaseBaseUrl, .manifestPath, .version,
    .downloadTimeout, .startTimeout, .stopTimeout, .debug, .logFile, .logMaxSize, .logMaxBackups,
    .logMaxAge, .logCompress]

def ofName? (s : String) : Option Key := all.find? (·.name = s)

end Key

/-- A setting with its origin. The key is kept by name, since a source may
give one that is not known. -/
structure Entry where
  key : String
  value : Setting
  source : String
  sourcePath : String
  priority : Nat
  deriving DecidableEq, Repr

/-- Entries of which no two have the same key. -/
abbrev Snapshot := List Entry

namespace Snapshot

def find? (s : Snapshot) (key : String) : Option Entry := List.find? (fun e => e.key = key) s

/-- Adds an entry in place of one with the same key. -/
def set (e : Entry) (s : Snapshot) : Snapshot := s.filter (fun o => o.key ≠ e.key) ++ [e]

/-- Adds an entry unless one for its key has the same or a lower priority number. -/
def offer (s : Snapshot) (e : Entry) : Snapshot :=
  match s.find? e.key with
  | some current => if current.priority ≤ e.priority then s else s.set e
  | none => s.set e

/-- The winning entries of two snapshots. -/
def merge (s t : Snapshot) : Snapshot := t.foldl offer s

/-- The entries in the order of their keys. -/
def sorted (s : Snapshot) : Snapshot := s.mergeSort fun a b => a.key ≤ b.key

end Snapshot

end LanguageClient.Config
