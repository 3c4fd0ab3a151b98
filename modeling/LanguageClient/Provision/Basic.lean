import LanguageClient.FileSystem

/-! # Downloads of the server binary.

The address of a release, the request made for it, and what can come back. -/

namespace LanguageClient.Provision

/-- Where releases are downloaded from, and how. -/
structure Provisioner where
  /-- What stands before the tag and the name; without slashes at its end. -/
  baseUrl : String
  userAgent : String
  /-- The release to use, which may depend on a file. -/
  versions : FileSystem → Except Error ReleaseVersion
  /-- Whether somebody listens to the log and the messages. -/
  audible : Bool := true

def withoutSlashes (s : String) : String :=
  String.ofList (s.toList.reverse.dropWhile (· == '/')).reverse

/-- What the client calls itself in requests unless told otherwise. -/
def defaultUserAgent : String := "gbnf-client"

def Provisioner.make (baseUrl userAgent : String)
    (versions : FileSystem → Except Error ReleaseVersion) (audible : Bool) : Provisioner :=
  { baseUrl := withoutSlashes baseUrl
    userAgent := if userAgent = "" then defaultUserAgent else userAgent
    versions, audible }

def Provisioner.downloadUrl (p : Provisioner) (v : ReleaseVersion) (name : String) : String :=
  p.baseUrl ++ "/" ++ v.tag ++ "/" ++ name

structure Request where
  method : String := "GET"
  url : String
  userAgent : String
  deriving DecidableEq, Repr

/-- What comes back for a request. -/
inductive Outcome where
  /-- There is no response. -/
  | refused (e : Error)
  /-- A response whose body ends early if there is a failure. -/
  | response (status : Int) (body : Bytes) (failure : Option Error)

/-- What the system refuses although the files would allow it, and why. -/
structure Refusals where
  /-- To change the permissions of a file. -/
  chmod : Option FileReason := none
  /-- To close a file that was written. -/
  close : Option FileReason := none

/-- A request's fate: what others do to the files meanwhile, and what comes back. -/
structure Exchange where
  meanwhile : FileSystem → FileSystem := id
  outcome : Outcome

/-! ### Addresses in requests -/

/-- A host without a colon at its end that no port follows. -/
def withoutEmptyPort (host : Bytes) : Bytes :=
  if host.getLast? == some 0x3A then host.dropLast else host

def requestUrl (u : Url) : Url := { u with host := withoutEmptyPort u.host }

/-- An address as errors show it, without a password. -/
def shownUrl (u : Url) : Bytes :=
  match u.user with
  | some info =>
    match info.password with
    | some _ =>
      let secret := Url.UserInfo.bytes info ++ [0x40]
      let shown := info.name ++ utf8 ":***@"
      match findFirst secret [] u.bytes with
      | some (before, after) => before ++ shown ++ after
      | none => u.bytes
    | none => u.bytes
  | none => u.bytes
where
  /-- What stands before and behind the first occurrence of some octets. -/
  findFirst (what seen : Bytes) : Bytes → Option (Bytes × Bytes)
    | [] => if what.isEmpty then some (seen.reverse, []) else none
    | b :: bs =>
      if what.isPrefixOf (b :: bs) then some (seen.reverse, (b :: bs).drop what.length)
      else findFirst what (b :: seen) bs

/-! ### The binary -/

/-- The permission to execute, for everybody. -/
def executeBits : Nat := 0o111

def executableMode : Nat := 0o755

/-- Whether a binary is there already. Missing execute permissions are
restored, except where there are none. -/
def present (refusals : Refusals) (fs : FileSystem) (b : Binary) : Except Error (Bool × FileSystem) :=
  match fs.stat b.path with
  | .error e =>
    if e.isA .notExist then .ok (false, fs) else .error (.missingBinary b.path (some e))
  | .ok (.file _ mode) =>
    if !b.platform.isWindows && mode &&& executeBits ≠ executeBits then
      match fs.changeMode b.path (mode ||| executableMode) refusals.chmod with
      | .ok fs => .ok (true, fs)
      | .error e =>
        .error (.missingBinary b.path (some (.context "failed to make binary executable" e)))
    else .ok (true, fs)
  | .ok _ => .error (.missingBinary b.path (some (.plain "path is a directory")))

end LanguageClient.Provision
