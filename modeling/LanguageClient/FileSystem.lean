import LanguageClient.Error
import LanguageClient.Path

/-! # A tree of files.

Files, directories and symbolic links below one root, with the operations the
client uses and the reasons for which they fail. A path is walked element by
element: links are followed, `..` leaves the directory reached so far, and
everything before the last element has to be a directory. -/

namespace LanguageClient

/-- The elements from the root down to an entry. -/
abbrev Location := List String

namespace FileSystem

/-- What stands at a location. -/
inductive Entry where
  | file (content : Bytes) (mode : Nat)
  | directory
  | link (target : String)
  deriving DecidableEq, Repr

end FileSystem

/-- The entries of a file system and the directory that relative paths start from. -/
structure FileSystem where
  entries : List (Location × FileSystem.Entry) := []
  workingDirectory : Location := []

namespace FileSystem

/-! ### Entries -/

/-- The entry at a location. The root is a directory. -/
def entryAt? (fs : FileSystem) (loc : Location) : Option Entry :=
  if loc.isEmpty then some .directory else fs.entries.lookup loc

def put (loc : Location) (e : Entry) (fs : FileSystem) : FileSystem :=
  if fs.entries.any (·.1 == loc) then
    { fs with entries := fs.entries.map fun (l, old) => if l == loc then (l, e) else (l, old) }
  else { fs with entries := fs.entries ++ [(loc, e)] }

/-- Removes a location and everything below it. -/
def erase (loc : Location) (fs : FileSystem) : FileSystem :=
  { fs with entries := fs.entries.filter fun (l, _) => !loc.isPrefixOf l }

def parent (loc : Location) : Location := loc.dropLast

/-- Makes every directory down to a location that is not there yet. -/
def makeDirectories (loc : Location) (fs : FileSystem) : FileSystem :=
  (List.range loc.length).foldl (fun fs n =>
    let l := loc.take (n + 1)
    if (fs.entryAt? l).isSome then fs else fs.put l .directory) fs

/-! ### Walking -/

/-- The parts of a path between separators. -/
def parts (path : String) : List String := (Path.elements path.toList).map String.ofList

/-- The longest name an element may have, in octets. -/
def maxNameLength : Nat := 255

/-- Walks on from a directory. `jump` goes on behind a link, and `follow` says
whether a link in the last place is followed too. -/
def walkFrom (fs : FileSystem) (follow : Bool)
    (jump : Location → List String → Except FileReason Location) :
    Location → List String → Except FileReason Location
  | dir, [] => .ok dir
  | dir, name :: rest =>
    if name = "" || name = "." then walkFrom fs follow jump dir rest
    else if name = ".." then walkFrom fs follow jump (parent dir) rest
    else if maxNameLength < (utf8 name).length then .error .nameTooLong
    else
      let loc := dir ++ [name]
      match fs.entryAt? loc with
      | none => if rest.all (· = "") then .ok loc else .error .noEntry
      | some .directory => walkFrom fs follow jump loc rest
      | some (.file _ _) => if rest.isEmpty then .ok loc else .error .notDirectory
      | some (.link target) =>
        if rest.isEmpty && !follow then .ok loc
        else jump (if Path.rooted target then [] else dir) (parts target ++ rest)

/-- Walks through at most so many links. -/
def walk (fs : FileSystem) (follow : Bool) : Nat → Location → List String → Except FileReason Location
  | 0 => fun _ _ => .error .linkLoop
  | links + 1 => walkFrom fs follow (walk fs follow links)

/-- How many links one path may lead through, plus one. -/
def maxLinks : Nat := 41

/-- The location a path leads to, where there may be no entry yet. -/
def locate (fs : FileSystem) (follow : Bool) (path : String) : Except FileReason Location :=
  if path = "" then .error .noEntry
  else if path.toList.contains '\x00' then .error .invalidArgument
  else fs.walk follow maxLinks (if Path.rooted path then [] else fs.workingDirectory) (parts path)

def find (fs : FileSystem) (follow : Bool) (path : String) : Except FileReason (Location × Entry) :=
  match fs.locate follow path with
  | .error r => .error r
  | .ok loc =>
    match fs.entryAt? loc with
    | some e => .ok (loc, e)
    | none => .error .noEntry

/-! ### Operations -/

/-- What a path leads to, links followed. -/
def stat (fs : FileSystem) (path : String) : Except Error Entry :=
  match fs.find true path with
  | .ok (_, e) => .ok e
  | .error r => .error (.file "stat" path r)

/-- The permission of the owner to read. -/
def readBit : Nat := 0o400

/-- The content of a file, which its owner has to be allowed to read. -/
def content (fs : FileSystem) (path : String) : Except Error Bytes :=
  match fs.find true path with
  | .ok (_, .file content mode) =>
    if mode &&& readBit = 0 then .error (.file "open" path .denied) else .ok content
  | .ok _ => .error (.file "read" path .isDirectory)
  | .error r => .error (.file "open" path r)

/-- Changes the permissions of a file, unless the system refuses that. -/
def changeMode (path : String) (mode : Nat) (refused : Option FileReason) (fs : FileSystem) :
    Except Error FileSystem :=
  match fs.find true path with
  | .error r => .error (.file "chmod" path r)
  | .ok (loc, e) =>
    match refused, e with
    | some r, _ => .error (.file "chmod" path r)
    | none, .file content _ => .ok (fs.put loc (.file content mode))
    | none, _ => .ok fs

/-- Opens a file, which is made if there is none. -/
def openOrCreate (path : String) (mode : Nat) (fs : FileSystem) : Except Error FileSystem :=
  match fs.locate true path with
  | .error r => .error (.file "open" path r)
  | .ok loc =>
    match fs.entryAt? loc with
    | some .directory => .error (.file "open" path .isDirectory)
    | some _ => .ok fs
    | none =>
      match fs.entryAt? (parent loc) with
      | some .directory =>
        let made := fs.put loc (.file [] mode)
        match made.locate true path with
        | .ok _ => .ok made
        -- A separator at the end asks for a directory.
        | .error _ => .error (.file "open" path .isDirectory)
      | some _ => .error (.file "open" path .notDirectory)
      | none => .error (.file "open" path .noEntry)

/-- Makes a file that was not there before. -/
def createNew (path : String) (mode : Nat) (fs : FileSystem) : Except Error FileSystem :=
  match fs.locate false path with
  | .error r => .error (.file "open" path r)
  | .ok loc =>
    if (fs.entryAt? loc).isSome then .error (.file "open" path .alreadyExists)
    else .ok (fs.put loc (.file [] mode))

def append (path : String) (more : Bytes) (fs : FileSystem) : FileSystem :=
  match fs.find true path with
  | .ok (loc, .file content mode) => fs.put loc (.file (content ++ more) mode)
  | _ => fs

/-- Removes an entry; a directory has to be empty. -/
def remove (path : String) (fs : FileSystem) : FileSystem :=
  match fs.find false path with
  | .ok (loc, .directory) =>
    if fs.entries.any fun (l, _) => loc.isPrefixOf l && l != loc then fs else fs.erase loc
  | .ok (loc, _) => fs.erase loc
  | .error _ => fs

/-- Moves a file over another name. -/
def rename (old new : String) (fs : FileSystem) : Except Error FileSystem :=
  match fs.find false old with
  | .error r => .error (.fileLink "rename" old new r)
  | .ok (source, e) =>
    match fs.locate false new with
    | .error r => .error (.fileLink "rename" old new r)
    | .ok target =>
      match fs.entryAt? target with
      | some .directory => .error (.fileLink "rename" old new .alreadyExists)
      | _ => .ok ((fs.erase source).put target e)

/-- The path of the directory around a path, separators at its end dropped. -/
def parentPath (path : String) : String :=
  let body := path.toList.reverse.dropWhile (· == '/')
  String.ofList ((body.dropWhile (· != '/')).dropWhile (· == '/')).reverse

/-- Makes one directory, unless it is there. -/
def makeOne (path : String) (fs : FileSystem) : FileSystem × Option Error :=
  match fs.locate false path with
  | .error r => (fs, some (.file "mkdir" path r))
  | .ok loc =>
    match fs.entryAt? loc with
    | some .directory => (fs, none)
    | some _ => (fs, some (.file "mkdir" path .alreadyExists))
    | none => (fs.put loc .directory, none)

/-- Makes a directory and those above it that are missing. `depth` bounds how
many those are. What was made before a failure stays. -/
def makeAll (path : String) : Nat → FileSystem → FileSystem × Option Error
  | 0, fs => (fs, none)
  | depth + 1, fs =>
    match fs.find true path with
    | .ok (_, .directory) => (fs, none)
    | .ok _ => (fs, some (.file "mkdir" path .notDirectory))
    | .error _ =>
      match if parentPath path = "" then (fs, none) else makeAll (parentPath path) depth fs with
      | (fs, some e) => (fs, some e)
      | (fs, none) => fs.makeOne path

/-- Makes a directory and those above it that are missing. -/
def makeDirectory (path : String) (fs : FileSystem) : FileSystem × Option Error :=
  makeAll path (path.length + 1) fs

/-! ### Changes from outside -/

/-- The location a path names when no link is looked at. -/
def lexical (fs : FileSystem) (path : String) : Location :=
  let full := if Path.rooted path then path
    else "/" ++ String.intercalate "/" fs.workingDirectory ++ "/" ++ path
  (Path.cleanElements true (Path.elements full.toList)).map String.ofList

/-- Puts an entry at a path, with the directories it needs. -/
def place (path : String) (e : Entry) (fs : FileSystem) : FileSystem :=
  let loc := match fs.locate (match e with | .file _ _ => true | _ => false) path with
    | .ok loc => loc
    | .error _ => fs.lexical path
  (fs.makeDirectories (parent loc)).put loc e

/-- Removes whatever is at a path, and everything below it. -/
def removeAll (path : String) (fs : FileSystem) : FileSystem :=
  match fs.find false path with
  | .ok (loc, _) => fs.erase loc
  | .error _ => fs

/-! ### Listing -/

/-- The order of a walk: a directory before its content, names in the order of
their characters. -/
def beforeInWalk : Location → Location → Bool
  | [], _ => true
  | _ :: _, [] => false
  | a :: as, b :: bs => if a = b then beforeInWalk as bs else decide (a < b)

/-- Everything below a location, in the order of a walk. -/
def listing (fs : FileSystem) (below : Location) : List (Location × Entry) :=
  (fs.entries.filter fun (l, _) => below.isPrefixOf l && l != below).mergeSort
    fun a b => beforeInWalk a.1 b.1

def pathOf (loc : Location) : String := "/" ++ String.intercalate "/" loc

end FileSystem

end LanguageClient
