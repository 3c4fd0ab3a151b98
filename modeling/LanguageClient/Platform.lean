import LanguageClient.Path

/-! # Platforms and the server binary built for each.

A binary is published for three operating systems and two architectures. Its
canonical name is built from the platform's tags and a base name; the cache
keeps it under that name in one flat directory. -/

namespace LanguageClient

/-- The host an activation runs on, by operating system and architecture tag. -/
structure Platform where
  os : String
  arch : String
  deriving DecidableEq, Repr, Inhabited

namespace Platform

/-- The operating systems a binary is published for. -/
def systems : List String := ["win32", "linux", "darwin"]

def architectures : List String := ["x64", "arm64"]

def isSupportedSystem (os : String) : Bool := systems.contains os

def isSupportedArchitecture (arch : String) : Bool := architectures.contains arch

def isSupported (p : Platform) : Bool :=
  isSupportedSystem p.os && isSupportedArchitecture p.arch

/-- Whether the platform names executables `.exe` and has no permission bits. -/
def isWindows (p : Platform) : Bool := p.os == "win32"

/-- The two tags with a dash between them. -/
def text (p : Platform) : String := p.os ++ "-" ++ p.arch

/-- The tag for an operating system under the name compilers give it; a name
without a tag stands for itself. -/
def systemTag (name : String) : String := if name = "windows" then "win32" else name

/-- The tag for an architecture under the name compilers give it; a name
without a tag stands for itself. -/
def architectureTag (name : String) : String := if name = "amd64" then "x64" else name

/-- The platform for a build target named as compilers name it. -/
def ofTarget (os arch : String) : Platform := ⟨systemTag os, architectureTag arch⟩

/-- What executables are called at the end. -/
def suffix (p : Platform) : String := if p.isWindows then ".exe" else ""

/-- The name of the binary for a platform, `none` if there is none for it. -/
def canonicalName? (p : Platform) (baseName : String) : Option String :=
  if p.isSupported then some (p.os ++ "-" ++ p.arch ++ "-" ++ baseName ++ p.suffix) else none

end Platform

/-- The language server binary an activation uses. -/
structure Binary where
  name : String := ""
  path : String := ""
  platform : Platform := ⟨"", ""⟩
  /-- Set once the file is known to be present and executable. -/
  executable : Bool := false
  deriving DecidableEq, Repr, Inhabited

namespace Binary

/-- The directory below the install root that holds binaries. -/
def directory : String := "bin"

def resolve? (installRoot baseName : String) (p : Platform) : Option Binary :=
  (p.canonicalName? baseName).map fun name =>
    { name, path := Path.join [installRoot, directory, name], platform := p }

end Binary

structure ReleaseVersion where
  text : String
  deriving DecidableEq, Repr

def ReleaseVersion.tag (v : ReleaseVersion) : String := "v" ++ v.text

end LanguageClient
