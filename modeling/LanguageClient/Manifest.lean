import LanguageClient.FileSystem
import LanguageClient.Json.Text
import LanguageClient.Text.Space

/-! # The package manifest.

The release to download is named by the `version` of a JSON file that comes
with the client, unless the configuration names one. The file is read each
time, so that a newly installed client is noticed. -/

namespace LanguageClient

/-- Where the version of the server release is taken from. -/
structure Manifest where
  path : String
  /-- A version that goes before the file's, blanks around it dropped. -/
  override : String := ""
  deriving DecidableEq, Repr

namespace Manifest

/-- The same manifest with a version that goes before the file's. -/
def withOverride (version : String) (m : Manifest) : Manifest :=
  { m with override := Text.trim version }

/-- Resolves the escapes of the inside of a string. An escape behind one for a
surrogate belongs to it, also if the two do not denote a character. -/
def resolve (found : List Char) : List Char → List Char
  | [] => found.reverse
  | '\\' :: 'u' :: a :: b :: c :: d :: rest =>
    let n := Json.unit a b c d
    if Json.isHighSurrogate n || Json.isLowSurrogate n then
      match rest with
      | '\\' :: 'u' :: e :: f :: g :: h :: rest =>
        let m := Json.unit e f g h
        if Json.isHighSurrogate n && Json.isLowSurrogate m then
          resolve (Char.ofNat (0x10000 + (n - 0xD800) * 0x400 + (m - 0xDC00)) :: found) rest
        else resolve (Utf8.replacement :: found) rest
      | rest => resolve (Utf8.replacement :: found) rest
    else resolve (Char.ofNat n :: found) rest
  | '\\' :: c :: rest => resolve (Json.escapeChar c :: found) rest
  | c :: rest => resolve (c :: found) rest

def textOfString (lexeme : Bytes) : String :=
  String.ofList (resolve [] (Utf8.decode (lexeme.drop 1).dropLast))

/-- The text of the first member of an object with a name, if it is a string. -/
def member? (name : String) (ts : List Json.Token) : Option String :=
  match ts with
  | [] => none
  | t :: _ =>
    if t.kind ≠ .openObject then none
    else
      match (Json.members ts).find? fun (n, _) => textOfString n = name with
      | some (_, [v]) => if v.kind = .string then some (textOfString v.lexeme) else none
      | _ => none

def versionIn (path : String) (bs : Bytes) : Except Error ReleaseVersion :=
  match Json.parse? none bs with
  | none => .error (.plain ("manifest " ++ path ++ " is not valid JSON"))
  | some ts =>
    let version := Text.trim ((member? "version" ts).getD "")
    if version = "" then .error (.context path (.condition .noVersion)) else .ok ⟨version⟩

def releaseVersion (fs : FileSystem) (m : Manifest) : Except Error ReleaseVersion :=
  if m.override ≠ "" then .ok ⟨m.override⟩
  else
    match fs.content m.path with
    | .error e => .error (.context "failed to read manifest" e)
    | .ok bs => versionIn m.path bs

end Manifest

end LanguageClient
