import LanguageClient.Activation
import LanguageClient.Client
import LanguageClient.Watch

/-! # Running the client.

A run activates the client, opens files on the server, and waits: for an
interruption, for the server to fail, or, if it is to run once only, until the
server has had time to answer. Meanwhile it passes on edits of the files. In
the end it closes what it has opened and deactivates the session, whatever has
happened before. -/

namespace LanguageClient.Run

/-- What a run waits for. -/
inductive Happening where
  /-- A file was written. -/
  | edited (path : String)
  | interrupted
  /-- The server has had time to answer. -/
  | settled
  /-- The server has failed. -/
  | failed (e : Error)

structure Options where
  mode : LaunchMode := .run
  once : Bool := false
  watch : Bool := true
  files : List String := []

/-- What a run needs. -/
structure Means (σ η : Type) where
  client : Client
  activator : Activator σ η
  files : σ → FileSystem
  /-- Writes a line that is only of use to those who look for mistakes. -/
  debug : String → σ → σ
  /-- Whether the run has been interrupted. -/
  interrupted : σ → Bool
  /-- From now on no call is given up because the run has been interrupted. -/
  shield : σ → σ
  /-- Waits for something to happen. -/
  next : Bool → σ → σ × Happening
  /-- Waits for whoever follows edits to notice that nobody needs it any longer.
  Until then it may still see that a file was written. -/
  late : σ → σ × Option String
  /-- How many edits are followed at most. -/
  patience : Nat := 1000

/-- A document the server has accepted, and the file it came from. -/
structure Opened where
  path : String
  document : Document

variable (m : Means σ η)

def readDocument (fs : FileSystem) (path : String) : Except Error Document :=
  match fs.content path with
  | .error e => .error (.context ("failed to read " ++ path) e)
  | .ok text =>
    .ok {
      uri := textOf (fileUri (utf8 (FileSystem.pathOf fs.workingDirectory)) (utf8 path))
      languageId := (m.client.config.languageFor? path).getD ""
      version := 1, text }

/-- What is said of a file that is none of the server's business. -/
def skippedLine (path : String) : String :=
  "Skipping " ++ path ++ ": not a " ++ m.client.config.languageId ++ " document (extensions: " ++
    String.intercalate ", " m.client.config.extensions ++ ")"

/-- Opens files on the server, one after the other, up to the first one that
fails. -/
def openDocuments (bridge : Bridge σ) : List String → σ → σ × List Opened × Option Error
  | [], w => (w, [], none)
  | path :: paths, w =>
    match readDocument m (m.files w) path with
    | .error e => (w, [], some e)
    | .ok document =>
      match bridge.forward .opened document w with
      | (w, .error e) => (w, [], some (.context ("failed to open " ++ path) e))
      | (w, .ok false) => openDocuments bridge paths (m.activator.say (.line (skippedLine m path)) w)
      | (w, .ok true) =>
        let w := m.debug ("Opened " ++ document.uri) w
        let (w, opened, failure) := openDocuments bridge paths w
        (w, { path, document } :: opened, failure)

/-- Closes documents, up to the first one that fails. -/
def closeDocuments (bridge : Bridge σ) : List Opened → σ → σ
  | [], w => w
  | o :: os, w =>
    match bridge.forward .closed o.document w with
    | (w, .error _) => w
    | (w, .ok _) => closeDocuments bridge os w

def interruptedReport : Report := .line "Interrupted, shutting down"

/-- Takes note of a file that was written. -/
def heed (bridge : Bridge σ) (watched : List String) (watcher : Watcher) (path : String) (w : σ) :
    Watcher × σ :=
  let (watcher, w, said) := watcher.notice watched bridge (m.files w) path w
  (watcher, m.activator.sayAll said w)

/-- Waits, and follows the edits of files in the directories that are watched. -/
def attend (once : Bool) (bridge : Bridge σ) (watched : List String) :
    Nat → Watcher → σ → Watcher × σ × Option Error
  | 0, watcher, w => (watcher, w, none)
  | patience + 1, watcher, w =>
    match m.next once w with
    | (w, .interrupted) => (watcher, m.activator.say interruptedReport w, none)
    | (w, .settled) => (watcher, w, none)
    | (w, .failed e) => (watcher, w, some e)
    | (w, .edited path) =>
      let (watcher, w) := heed m bridge watched watcher path w
      attend once bridge watched patience watcher w

/-- Stops following edits: those that are seen late are followed, too. -/
def dismiss (bridge : Bridge σ) (watched : List String) : Nat → Watcher → σ → σ
  | 0, _, w => w
  | patience + 1, watcher, w =>
    match m.late w with
    | (w, none) => w
    | (w, some path) =>
      let (watcher, w) := heed m bridge watched watcher path w
      dismiss bridge watched patience watcher w

/-- Waits while nobody follows edits. -/
def idle (once : Bool) (bridge : Bridge σ) (watcher : Watcher) (w : σ) : σ × Option Error :=
  (attend m once bridge [] m.patience watcher w).2

/-- Waits while edits are followed. -/
def follow (once : Bool) (bridge : Bridge σ) (watcher : Watcher) (w : σ) : σ × Option Error :=
  let (watcher', w, failure) := attend m once bridge watcher.directories m.patience watcher w
  (dismiss m bridge watcher.directories m.patience watcher' w, failure)

def watcherFor (fs : FileSystem) (opened : List Opened) : Watcher :=
  opened.foldl (fun watcher o => watcher.track fs o.path o.document) {}

/-- Waits for the end of a run whose documents are open. -/
def wait (o : Options) (bridge : Bridge σ) (opened : List Opened) (w : σ) : σ × Option Error :=
  let watcher := watcherFor (m.files w) opened
  if o.once || !o.watch || opened.isEmpty then idle m o.once bridge watcher w
  else
    match watcher.watchable (m.files w) with
    | .ok _ => follow m o.once bridge watcher w
    | .error e =>
      idle m o.once bridge watcher
        (m.activator.say (.line ("File watching disabled: " ++ e.message)) w)

/-- What is done with a server that runs: files are opened, and closed in the
end, also when the run has been interrupted. -/
def serve (o : Options) (bridge : Bridge σ) (w : σ) : σ × Option Error :=
  let (w, opened, failure) := openDocuments m bridge o.files w
  let (w, failure) := match failure with
    | some e => (w, some e)
    | none => wait m o bridge opened w
  (closeDocuments bridge opened (m.shield w), failure)

def run (o : Options) (id : SessionId) (w : σ) : σ × Session η (Bridge σ) × Option Error :=
  let (w, session, failure) := m.activator.activate id o.mode w
  let (w, failure) := match failure, session.bridge with
    | some e, _ =>
      if e.isA .stopRequested && m.interrupted w then (m.activator.say interruptedReport w, none)
      else (w, some (.context "activation failed" e))
    | none, some bridge => serve m o bridge w
    | none, none => (w, none)
  let (w, session) := m.activator.deactivate session (m.shield w)
  (w, session, failure)

end LanguageClient.Run
