import LanguageClient.Bridge
import LanguageClient.FileSystem
import LanguageClient.Report

/-! # Edits on disk.

A watcher knows the documents that were read from files, each under the
absolute path of its file. When a file changes on disk, its document gets the
new text and the next version, and the server is told of a change and a save.

Directories are watched rather than files, since editors save by moving a new
file over the old one. -/

namespace LanguageClient

/-- The documents read from files, by path. -/
structure Watcher where
  documents : List (String × Document) := []

namespace Watcher

/-- The path under which a document is known. -/
def key (fs : FileSystem) (path : String) : String :=
  Path.absolute (FileSystem.pathOf fs.workingDirectory) path

/-- Keeps a document under a path, in place of an earlier one. -/
def put (path : String) (doc : Document) (w : Watcher) : Watcher :=
  { documents := (path, doc) :: w.documents.filter (·.1 != path) }

def get? (path : String) (w : Watcher) : Option Document := w.documents.lookup path

/-- Takes note of a document and the file it was read from. -/
def track (fs : FileSystem) (path : String) (doc : Document) (w : Watcher) : Watcher :=
  w.put (key fs path) doc

def document? (fs : FileSystem) (path : String) (w : Watcher) : Option Document :=
  w.get? (key fs path)

def directories (w : Watcher) : List String := (w.documents.map fun (p, _) => Path.dir p).eraseDups

/-- Whether all directories can be watched. -/
def watchable (fs : FileSystem) (w : Watcher) : Except Error Unit :=
  w.directories.forM fun dir =>
    match fs.find true dir with
    | .ok _ => .ok ()
    | .error r => .error (.context ("failed to watch " ++ dir) (.fileReason r))

/-- A document with the text of its file, if that is another one. -/
def edited? (fs : FileSystem) (path : String) (w : Watcher) : Option Document :=
  match w.get? path, fs.content path with
  | some doc, .ok text =>
    if text = doc.text then none
    else some { doc with version := (doc.version + 1).bmod (Nat.pow 2 64), text }
  | _, _ => none

/-- Tells the server of an edit: a change, then a save. -/
def tell (bridge : Bridge σ) (doc : Document) (s : σ) : σ × List Report :=
  match bridge.forward .changed doc s with
  | (s, .error e) =>
    (s, [.line ("Failed to forward change to " ++ doc.uri ++ ": " ++ e.message)])
  | (s, .ok _) =>
    match bridge.forward .saved doc s with
    | (s, .error e) =>
      (s, [.line ("Failed to forward save of " ++ doc.uri ++ ": " ++ e.message)])
    | (s, .ok _) =>
      (s, [.line ("Reloaded " ++ doc.uri ++ " (version " ++ Number.intText doc.version ++ ")")])

/-- A file may have changed. A path that is not known, a file that cannot be
read and a text that is the same lead to nothing. The new document is kept
whether or not the server can be told of it. -/
def reload (bridge : Bridge σ) (fs : FileSystem) (path : String) (w : Watcher) (s : σ) :
    Watcher × σ × List Report :=
  match w.edited? fs path with
  | none => (w, s, [])
  | some doc =>
    let (s, said) := tell bridge doc s
    (w.put path doc, s, said)

/-- A file was written or moved to a path. It is reloaded if its directory is
one of those that are watched. -/
def notice (watched : List String) (bridge : Bridge σ) (fs : FileSystem) (path : String)
    (w : Watcher) (s : σ) : Watcher × σ × List Report :=
  let path := Path.clean path
  if watched.contains (Path.dir path) then w.reload bridge fs path s else (w, s, [])

end Watcher

end LanguageClient
