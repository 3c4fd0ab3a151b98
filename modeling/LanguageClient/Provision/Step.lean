import LanguageClient.Provision.Basic
import LanguageClient.Report

/-! # Provisioning step by step.

To make a binary available the client checks whether it is there, asks for the
version, makes the directory, takes a lock, checks again, fetches, and writes
a temporary file that is closed, made executable and moved into place. Each of
these is a step of its own, so that several callers can take turns at any
point. -/

namespace LanguageClient.Provision

/-- Where provisioning stands, with what is known by then. -/
inductive Point where
  | version
  | directory (v : ReleaseVersion)
  | lock (v : ReleaseVersion)
  | recheck (v : ReleaseVersion)
  | fetch (v : ReleaseVersion)
  | create (v : ReleaseVersion) (body : Bytes) (failure : Option Error)
  | write (v : ReleaseVersion) (temporary : String) (body : Bytes) (failure : Option Error)
  | close (v : ReleaseVersion) (temporary : String)
  | permit (v : ReleaseVersion) (temporary : String)
  | move (v : ReleaseVersion) (temporary : String)
  | announce (v : ReleaseVersion)
  /-- Removes the temporary file after a failure. -/
  | discard (temporary : String) (e : Error)
  | unlock (result : Option Error)
  | finished (result : Option Error)

/-- What callers share: the files, and the locks that are held. -/
structure Shared where
  files : FileSystem
  locked : List String := []

inductive Effect where
  | report (r : Report)
  | requested (r : Request)
  deriving DecidableEq, Repr

def requests (effects : List Effect) : List Request :=
  effects.filterMap fun
    | .requested r => some r
    | .report _ => none

def reports (effects : List Effect) : List Report :=
  effects.filterMap fun
    | .report r => some r
    | .requested _ => none

/-- What the surroundings decide: whether the caller has given up, what a
request leads to, what tells a temporary file from others, and what the system
refuses. -/
structure Surroundings where
  cancelled : Bool
  exchange : Exchange
  suffix : String
  refusals : Refusals := {}

variable (p : Provisioner) (b : Binary)

def lockPath : String := b.path ++ ".lock"

/-- A line for the log and a message, if somebody listens. -/
def say (line info : String) : List Effect :=
  if p.audible then [.report (.line line), .report (.info info)] else []

def temporaryPath (suffix : String) : String :=
  let dir := Path.dir b.path
  (if dir = "/" then dir else dir ++ "/") ++ "." ++ Path.base b.path ++ "." ++ suffix ++ ".part"

def failedEarly (v : ReleaseVersion) (e : Error) : Error := .download (p.downloadUrl v b.name) 0 (some e)

/-- The error for a failure behind a response with status 200. -/
def failedLate (v : ReleaseVersion) (e : Error) : Error := .download (p.downloadUrl v b.name) 200 (some e)

/-- Makes the request and looks at the response. -/
def fetch (v : ReleaseVersion) (s : Surroundings) (w : Shared) : Shared × Point × List Effect :=
  let url := p.downloadUrl v b.name
  let said := say p ("Downloading " ++ b.name ++ " " ++ v.tag ++ " from " ++ url)
    ("Downloading " ++ b.name ++ " " ++ v.tag ++ "...")
  match Url.parse url with
  | .error m =>
    (w, .unlock (some (failedEarly p b v
      (.context "failed to create download request" (.ofMalformedUrl m)))), said)
  | .ok u =>
    let u := requestUrl u
    let said := said ++ [.requested { url := u.text, userAgent := p.userAgent }]
    let w := { w with files := s.exchange.meanwhile w.files }
    match s.exchange.outcome with
    | .refused e => (w, .unlock (some (failedEarly p b v (.url "Get" (shownUrl u) (some e)))), said)
    | .response status body failure =>
      if status = 200 then (w, .create v body failure, said)
      else (w, .unlock (some (.download url status none)), said)

def step (s : Surroundings) (w : Shared) : Point → Shared × Point × List Effect
  | .version =>
    match p.versions w.files with
    | .ok v => (w, .directory v, [])
    | .error e =>
      (w, .finished (some (.missingBinary b.path (some (.context "release version unavailable" e)))), [])
  | .directory v =>
    match w.files.makeDirectory (Path.dir b.path) with
    | (files, none) => ({ w with files }, .lock v, [])
    | (files, some e) =>
      ({ w with files },
        .finished (some (failedEarly p b v (.context "failed to create directory" e))), [])
  | .lock v =>
    let refused (e : Error) : Shared × Point × List Effect :=
      (w, .finished (some (failedEarly p b v (.context ("failed to lock " ++ lockPath b) e))), [])
    if s.cancelled then refused (.condition .cancelled)
    else
      match w.files.openOrCreate (lockPath b) 0o600 with
      | .error e => refused e
      | .ok files =>
        if w.locked.contains (lockPath b) then ({ w with files }, .lock v, [])
        else ({ files, locked := lockPath b :: w.locked }, .recheck v, [])
  | .recheck v =>
    match present s.refusals w.files b with
    | .error e => (w, .unlock (some e), [])
    | .ok (true, files) => ({ w with files }, .unlock none, [])
    | .ok (false, files) => ({ w with files }, .fetch v, [])
  | .fetch v => fetch p b v s w
  | .create v body failure =>
    let temporary := temporaryPath b s.suffix
    match w.files.createNew temporary 0o600 with
    | .ok files => ({ w with files }, .write v temporary body failure, [])
    | .error e => (w, .unlock (some (failedLate p b v (.context "failed to create file" e))), [])
  | .write v temporary body failure =>
    let w := { w with files := w.files.append temporary body }
    match failure with
    | some e => (w, .discard temporary (failedLate p b v (.context "failed to write binary" e)), [])
    | none => (w, .close v temporary, [])
  | .close v temporary =>
    match s.refusals.close with
    | some r =>
      (w, .discard temporary (failedLate p b v
        (.context "failed to write binary" (.file "close" temporary r))), [])
    | none => (w, if b.platform.isWindows then .move v temporary else .permit v temporary, [])
  | .permit v temporary =>
    match w.files.changeMode temporary executableMode s.refusals.chmod with
    | .ok files => ({ w with files }, .move v temporary, [])
    | .error e =>
      (w, .discard temporary (failedLate p b v (.context "failed to make binary executable" e)), [])
  | .move v temporary =>
    match w.files.rename temporary b.path with
    | .ok files => ({ w with files }, .announce v, [])
    | .error e =>
      (w, .discard temporary (failedLate p b v (.context "failed to move binary into place" e)), [])
  | .announce v =>
    (w, .unlock none, say p ("Downloaded " ++ b.name ++ " to " ++ b.path)
      ("Downloaded " ++ b.name ++ " " ++ v.tag))
  | .discard temporary e => ({ w with files := w.files.remove temporary }, .unlock (some e), [])
  | .unlock result => ({ w with locked := w.locked.erase (lockPath b) }, .finished result, [])
  | .finished result => (w, .finished result, [])

def Point.fetches : Point → Bool
  | .fetch _ => true
  | _ => false

/-- Steps until provisioning has finished, at most `fuel` of them. -/
def run (s : Surroundings) : Nat → Shared → Point → List Effect → Shared × Option Error × List Effect
  | _, w, .finished result, said => (w, result, said)
  | 0, w, _, said => (w, none, said)
  | fuel + 1, w, point, said =>
    let (w, point, more) := step p b s w point
    run s fuel w point (said ++ more)

/-- More steps than provisioning ever takes when nobody else holds the lock. -/
def maxSteps : Nat := 16

/-- Makes sure that a binary is there and can be executed: its description
afterwards, an error if that failed, and what was shown. An existing file is
kept and costs no request. -/
def ensure (s : Surroundings) (w : Shared) : Shared × Binary × Option Error × List Effect :=
  match present s.refusals w.files b with
  | .error e => (w, b, some e, [])
  | .ok (true, files) => ({ w with files }, { b with executable := true }, none, [])
  | .ok (false, files) =>
    match run p b s maxSteps { w with files } .version [] with
    | (w, some e, said) => (w, b, some e, said)
    | (w, none, said) => (w, { b with executable := true }, none, said)

/-- Several calls for one binary at once. They share what the first one does:
of the rest, those that find the file return, and those that do not wait for
its result. -/
def ensureAll (s : Surroundings) (n : Nat) (w : Shared) : Shared × List Error × List Effect :=
  if n = 0 then (w, [], [])
  else
    let (w, _, e, said) := ensure p b s w
    (w, e.toList, said)

end LanguageClient.Provision
