import LanguageClient.Text.Quoted
import LanguageClient.Text.Case

/-! # URLs.

A URL is read into its parts and written from them. Percent escapes stand for
octets, so every part is an octet string; which octets have to be escaped
depends on the part. A path remembers the spelling it was read with, when
that differs from the one it would be written with. -/

namespace LanguageClient

structure UserInfo where
  name : Bytes
  password : Option Bytes
  deriving DecidableEq, Repr

structure Url where
  scheme : String := ""
  /-- What follows the scheme when it does not start with a slash. -/
  rootless : Bytes := []
  user : Option UserInfo := none
  host : Bytes := []
  path : Bytes := []
  /-- The spelling of the path, if it is not the usual one. -/
  rawPath : Bytes := []
  /-- A scheme and a path without `//` between them. -/
  omitHost : Bool := false
  /-- A question mark with nothing behind it. -/
  forceQuery : Bool := false
  query : Bytes := []
  fragment : Bytes := []
  rawFragment : Bytes := []
  deriving DecidableEq, Repr

namespace Url

/-- Why a text is no URL. -/
inductive ParseError where
  | controlCharacter
  | missingScheme
  | colonInFirstSegment
  | missingBracket
  | badPort (text : Bytes)
  | badEscape (text : Bytes)
  | badHostCharacter (b : UInt8)
  | badUserInfo
  deriving DecidableEq, Repr

def ParseError.message : ParseError → String
  | .controlCharacter => "net/url: invalid control character in URL"
  | .missingScheme => "missing protocol scheme"
  | .colonInFirstSegment => "first path segment in URL cannot contain colon"
  | .missingBracket => "missing ']' in host"
  | .badPort text => "invalid port " ++ Text.quoteSymbols (Utf8.symbols text) ++ " after host"
  | .badEscape text => "invalid URL escape " ++ Text.quoteSymbols (Utf8.symbols text)
  | .badHostCharacter b =>
    "invalid character " ++ Text.quoteSymbols (Utf8.symbols [b]) ++ " in host name"
  | .badUserInfo => "net/url: invalid userinfo"

/-! ### Octet classes -/

/-- The parts of a URL that differ in what they escape. -/
inductive Part where
  | path
  | host
  | zone
  | userPassword
  | fragment
  deriving DecidableEq, Repr

def isLetter (b : UInt8) : Bool := (0x41 ≤ b && b ≤ 0x5A) || (0x61 ≤ b && b ≤ 0x7A)

def isDigit (b : UInt8) : Bool := 0x30 ≤ b && b ≤ 0x39

/-- Whether an octet is one of the ASCII characters of a text. -/
def isOneOf (text : String) (b : UInt8) : Bool := text.toList.any fun c => c.toNat == b.toNat

/-- Whether an octet is escaped when it occurs in a part. -/
def mustEscape (part : Part) (b : UInt8) : Bool :=
  if isLetter b || isDigit b || isOneOf "-_.~" b then false
  else
    match part with
    | .host | .zone => !isOneOf "!$&\x27()*+,;=:[]<>\"" b
    | .path => !isOneOf "$&+,/:;=@" b
    | .userPassword => !isOneOf "$&+,;=" b
    | .fragment => !isOneOf "$&+,/:;=?@!()*" b

def hexValue? (b : UInt8) : Option Nat :=
  if isDigit b then some (b.toNat - 0x30)
  else if 0x61 ≤ b && b ≤ 0x66 then some (b.toNat - 0x61 + 10)
  else if 0x41 ≤ b && b ≤ 0x46 then some (b.toNat - 0x41 + 10)
  else none

def hexPair? (h l : UInt8) : Option UInt8 :=
  match hexValue? h, hexValue? l with
  | some h, some l => some (UInt8.ofNat (h * 16 + l))
  | _, _ => none

/-! ### Escaping -/

def hexUpper (n : Nat) : UInt8 :=
  if n < 10 then UInt8.ofNat (0x30 + n) else UInt8.ofNat (0x41 + (n - 10))

/-- An octet as it is written in a part. -/
def escapeOctet (part : Part) (b : UInt8) : Bytes :=
  if mustEscape part b then [0x25, hexUpper (b.toNat / 16), hexUpper (b.toNat % 16)] else [b]

def escape (part : Part) (bs : Bytes) : Bytes := bs.flatMap (escapeOctet part)

/-- Whether a part takes the escape of an octet. Hosts take escapes of octets
outside ASCII and of the percent sign only, zones also of what could have
been written directly and of the space. -/
def takesEscape (part : Part) (b : UInt8) : Bool :=
  match part with
  | .host => 0x80 ≤ b || b = 0x25
  | .zone => b = 0x25 || b = 0x20 || !mustEscape .host b
  | _ => true

def takesPlain (part : Part) (b : UInt8) : Bool :=
  match part with
  | .host | .zone => 0x80 ≤ b || !mustEscape part b
  | _ => true

def unescape (part : Part) : Bytes → Except ParseError Bytes
  | [] => .ok []
  | b :: rest =>
    if b = 0x25 then
      match rest with
      | h :: l :: r =>
        match hexPair? h l with
        | none => .error (.badEscape [b, h, l])
        | some v =>
          if takesEscape part v then (unescape part r).map (v :: ·)
          else .error (.badEscape [b, h, l])
      | short => .error (.badEscape (b :: short))
    else if takesPlain part b then (unescape part rest).map (b :: ·)
    else .error (.badHostCharacter b)

/-! ### Cutting -/

/-- What stands before and behind the first octet `sep`, if there is one. -/
def cut (sep : UInt8) (bs : Bytes) : Bytes × Option Bytes :=
  match bs.dropWhile (· != sep) with
  | [] => (bs, none)
  | _ :: after => (bs.takeWhile (· != sep), some after)

/-- What stands before and behind the last octet `sep`, if there is one. -/
def cutLast (sep : UInt8) (bs : Bytes) : Option (Bytes × Bytes) :=
  match cut sep bs.reverse with
  | (_, none) => none
  | (after, some before) => some (before.reverse, after.reverse)

/-- The part of `bs` before the first occurrence of `%25`, if there is one,
and the rest from there on. -/
def cutAtPercent (seen : Bytes) : Bytes → Option (Bytes × Bytes)
  | 0x25 :: 0x32 :: 0x35 :: r => some (seen.reverse, 0x25 :: 0x32 :: 0x35 :: r)
  | b :: r => cutAtPercent (b :: seen) r
  | [] => none

/-! ### Reading -/

/-- Scheme and rest. Without a colon behind a possible scheme there is no
scheme. -/
def splitScheme (bs : Bytes) : Except ParseError (Bytes × Bytes) :=
  let isSchemeOctet (b : UInt8) : Bool := isLetter b || isDigit b || isOneOf "+-." b
  let name := bs.takeWhile isSchemeOctet
  match bs.dropWhile isSchemeOctet with
  | 0x3A :: rest =>
    match name with
    | [] => .error .missingScheme
    | b :: _ => if isLetter b then .ok (name, rest) else .ok ([], bs)
  | _ => .ok ([], bs)

/-- Nothing, or a colon and digits. -/
def isOptionalPort : Bytes → Bool
  | [] => true
  | b :: bs => b == 0x3A && bs.all isDigit

def readHost (bs : Bytes) : Except ParseError Bytes :=
  match bs with
  | 0x5B :: _ =>
    match cutLast 0x5D bs with
    | none => .error .missingBracket
    | some (inside, port) =>
      if !isOptionalPort port then .error (.badPort port)
      else
        match cutAtPercent [] inside with
        | none => unescape .host bs
        | some (address, zone) => do
          let address ← unescape .host address
          let zone ← unescape .zone zone
          let tail ← unescape .host (0x5D :: port)
          return address ++ zone ++ tail
  | _ =>
    match cutLast 0x3A bs with
    | some (_, port) =>
      if isOptionalPort (0x3A :: port) then unescape .host bs else .error (.badPort (0x3A :: port))
    | none => unescape .host bs

def isUserInfoSymbol : Symbol → Bool
  | .char c =>
    (c.toNat < 0x80 && c.isAlphanum) || "-._:~!$&\x27()*+,;=%@".toList.contains c
  | .stray _ => false

/-- User and host of an authority. -/
def readAuthority (bs : Bytes) : Except ParseError (Option UserInfo × Bytes) :=
  match cutLast 0x40 bs with
  | none => (readHost bs).map (none, ·)
  | some (info, host) => do
    let host ← readHost host
    if !(Utf8.symbols info).all isUserInfoSymbol then throw .badUserInfo
    let (name, password) := cut 0x3A info
    let name ← unescape .userPassword name
    match password with
    | none => return (some ⟨name, none⟩, host)
    | some p =>
      let p ← unescape .userPassword p
      return (some ⟨name, some p⟩, host)

/-- Sets the path, remembering an unusual spelling. -/
def withPath (url : Url) (spelling : Bytes) : Except ParseError Url :=
  (unescape .path spelling).map fun path =>
    { url with path, rawPath := if escape .path path = spelling then [] else spelling }

/-- A path that may follow an authority. -/
def readHierarchical (url : Url) (rest : Bytes) : Except ParseError Url :=
  let hasScheme := url.scheme ≠ ""
  match rest with
  | 0x2F :: 0x2F :: after =>
    if hasScheme || after.head? != some 0x2F then
      let authority := after.takeWhile (· != 0x2F)
      let path := after.dropWhile (· != 0x2F)
      (readAuthority authority).bind fun (user, host) =>
        withPath { url with user, host } path
    else withPath url rest
  | 0x2F :: _ => withPath { url with omitHost := hasScheme } rest
  | _ => withPath url rest

/-- Splits the query off; a lone question mark at the end is remembered. -/
def splitQuery (rest : Bytes) : Bytes × Bool × Bytes :=
  match cut 0x3F rest with
  | (before, none) => (before, false, [])
  | (before, some []) => (before, true, [])
  | (before, some query) => (before, false, query)

def readWithoutFragment (bs : Bytes) : Except ParseError Url :=
  if bs.any fun b => b < 0x20 || b = 0x7F then .error .controlCharacter
  else if bs = [0x2A] then .ok { path := bs }
  else do
    let (scheme, rest) ← splitScheme bs
    let scheme := (textOf scheme).toLower
    let (rest, forceQuery, query) := splitQuery rest
    let url : Url := { scheme, forceQuery, query }
    if rest.head? = some 0x2F then readHierarchical url rest
    else if scheme ≠ "" then return { url with rootless := rest }
    else if (rest.takeWhile (· != 0x2F)).contains 0x3A then throw .colonInFirstSegment
    else readHierarchical url rest

/-- A text that is no URL: the part of it that was read, and why. -/
structure Malformed where
  text : Bytes
  cause : ParseError
  deriving DecidableEq, Repr

def parseBytes (bs : Bytes) : Except Malformed Url :=
  let (before, fragment) := cut 0x23 bs
  match readWithoutFragment before with
  | .error cause => .error ⟨before, cause⟩
  | .ok url =>
    match fragment with
    | none | some [] => .ok url
    | some f =>
      match unescape .fragment f with
      | .error cause => .error ⟨bs, cause⟩
      | .ok fragment =>
        .ok { url with
          fragment, rawFragment := if escape .fragment fragment = f then [] else f }

def parse (s : String) : Except Malformed Url := parseBytes (utf8 s)

def Malformed.message (m : Malformed) : String :=
  "parse " ++ Text.quoteSymbols (Utf8.symbols m.text) ++ ": " ++ m.cause.message

/-! ### Writing -/

/-- Whether a spelling holds only octets its part may hold unescaped, and
percent signs. -/
def isSpelling (part : Part) (bs : Bytes) : Bool :=
  bs.all fun b => isOneOf "!$&\x27()*+,;=:@[]%" b || !mustEscape part b

/-- A decoded part in the spelling it was read with if that still denotes it,
and escaped otherwise. -/
def spelled (part : Part) (decoded raw : Bytes) : Bytes :=
  let usable : Bool :=
    !raw.isEmpty && isSpelling part raw &&
      (match unescape part raw with
        | .ok d => d = decoded
        | .error _ => false)
  if usable then raw
  else if part = .path && decoded = [0x2A] then decoded
  else escape part decoded

def UserInfo.bytes (u : UserInfo) : Bytes :=
  escape .userPassword u.name ++
    (match u.password with
      | none => []
      | some p => 0x3A :: escape .userPassword p)

/-- The authority with its two slashes, if it is written. -/
def authorityBytes (url : Url) : Bytes :=
  if url.scheme = "" && url.host.isEmpty && url.user.isNone then []
  else if url.omitHost && url.host.isEmpty && url.user.isNone then []
  else
    (if url.host.isEmpty && url.path.isEmpty && url.user.isNone then [] else [0x2F, 0x2F]) ++
      (match url.user with
        | none => []
        | some u => UserInfo.bytes u ++ [0x40]) ++
      escape .host url.host

def bytes (url : Url) : Bytes :=
  let scheme := if url.scheme = "" then [] else utf8 url.scheme ++ [0x3A]
  let middle :=
    if !url.rootless.isEmpty then scheme ++ url.rootless
    else
      let front := scheme ++ url.authorityBytes
      let path := spelled .path url.path url.rawPath
      let front :=
        if !path.isEmpty && path.head? != some 0x2F && !url.host.isEmpty then front ++ [0x2F]
        else front
      let front :=
        if front.isEmpty && (path.takeWhile (· != 0x2F)).contains 0x3A then [0x2E, 0x2F]
        else front
      front ++ path
  middle ++
    (if url.forceQuery || !url.query.isEmpty then 0x3F :: url.query else []) ++
    (if url.fragment.isEmpty then []
      else 0x23 :: spelled .fragment url.fragment url.rawFragment)

def text (url : Url) : String := textOf url.bytes

end Url

end LanguageClient
