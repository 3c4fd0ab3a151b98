import LanguageClient.Error
import LanguageClient.Text.Case
import LanguageClient.Text.Space

/-! # Frames.

Messages travel as frames: header lines, a blank line, and a body whose
length the header `Content-Length` gives. Reading takes one frame off a
stream; every read of a stream that is not empty consumes something, whatever
it returns. Header and body are two separate writes. -/

namespace LanguageClient.Frame

/-- The most octets a body may have. -/
def maxSize : Nat := 64 * Nat.pow 2 20

def lengthName : String := "Content-Length"

/-! ### Writing -/

def header (body : Bytes) : Bytes :=
  utf8 (lengthName ++ ": ") ++ utf8 (String.ofList (Number.natText body.length)) ++
    [0x0D, 0x0A, 0x0D, 0x0A]

def encode (body : Bytes) : Bytes := header body ++ body

/-- Where frames are written to: it takes so many more writes and refuses all
later ones, or takes every write. -/
structure Writer where
  left : Option Nat := none
  deriving DecidableEq, Repr

/-- One write: the writer behind it and whether the octets were taken. -/
def Writer.write (w : Writer) : Writer × Bool :=
  match w.left with
  | none => (w, true)
  | some 0 => (w, false)
  | some (n + 1) => (⟨some n⟩, true)

/-- The error of a refused write. -/
def brokenPipe : Error := .plain "broken pipe"

/-- What writing a frame did: the octets that were taken, and the error if not
all of them were. -/
structure WriteResult where
  writer : Writer
  written : Bytes
  error : Option Error

/-- Writes the header of a frame, then its body. -/
def write (w : Writer) (body : Bytes) : WriteResult :=
  match w.write with
  | (w, false) => ⟨w, [], some (.context "write header" brokenPipe)⟩
  | (w, true) =>
    match w.write with
    | (w, false) => ⟨w, header body, some (.context "write body" brokenPipe)⟩
    | (w, true) => ⟨w, encode body, none⟩

/-! ### Reading -/

/-- Why a frame could not be read. -/
inductive ReadError where
  /-- The stream ended before the headers did. -/
  | endOfStream
  /-- No header gave a length above zero. -/
  | missingLength
  /-- A length header holds no length. -/
  | badLength (value : List Symbol)
  /-- The body would be too large. -/
  | tooLarge (n : Int)
  /-- The stream ended where the body should start. -/
  | missingBody
  /-- The stream ended inside the body. -/
  | shortBody
  deriving DecidableEq, Repr

def ReadError.toError : ReadError → Error
  | .endOfStream => .condition .endOfStream
  | .missingLength => .condition .missingContentLength
  | .badLength value => .plain ("invalid Content-Length " ++ Text.quoteSymbols value)
  | .tooLarge n => .plain ("frame of " ++ Number.intText n ++ " bytes exceeds limit")
  | .missingBody => .context "read body" (.condition .endOfStream)
  | .shortBody => .context "read body" (.condition .unexpectedEnd)

/-- What a header line says about the length of the body. -/
inductive HeaderLine where
  | blank
  | other
  | length (n : Int)
  | badLength (value : List Symbol)
  deriving DecidableEq, Repr

def trimSymbols (l : List Symbol) : List Symbol := Text.trimBoth Symbol.isBlank l

/-- The characters of symbols, `none` if one of them is a stray octet. -/
def chars? : List Symbol → Option (List Char)
  | [] => some []
  | .char c :: l => (chars? l).map (c :: ·)
  | .stray _ :: _ => none

def isLengthName (l : List Symbol) : Bool :=
  match chars? (trimSymbols l) with
  | some cs => Text.sameName cs lengthName.toList
  | none => false

def lengthValue? (value : List Symbol) : Option Int :=
  match (chars? (trimSymbols value)).bind Number.int64? with
  | some n => if n < 0 then none else some n
  | none => none

def readLine (line : Bytes) : HeaderLine :=
  let text := trimSymbols (Utf8.symbols line)
  if text.isEmpty then .blank
  else
    match text.dropWhile (· != .char ':') with
    | [] => .other
    | _ :: value =>
      if isLengthName (text.takeWhile (· != .char ':')) then
        match lengthValue? value with
        | some n => .length n
        | none => .badLength value
      else .other

/-- The first line of a stream, without its line feed, and what follows it;
`none` if no line feed comes. -/
def splitLine (stream : Bytes) : Option (Bytes × Bytes) :=
  match stream.dropWhile (· != 0x0A) with
  | [] => none
  | _ :: rest => some (stream.takeWhile (· != 0x0A), rest)

/-- What a read gives, and the stream behind it. -/
structure ReadResult where
  outcome : Except ReadError Bytes
  rest : Bytes

def readBody (length : Int) (stream : Bytes) : ReadResult :=
  if length ≤ 0 then ⟨.error .missingLength, stream⟩
  else if (maxSize : Int) < length then ⟨.error (.tooLarge length), stream⟩
  else
    let n := length.toNat
    let body := stream.take n
    if body.length = n then ⟨.ok body, stream.drop n⟩
    else if stream.isEmpty then ⟨.error .missingBody, []⟩
    else ⟨.error .shortBody, []⟩

/-- Reads header lines up to a blank one, then the body. `length` is what the
last length header said, `-1` before there is one. Every round takes a line,
so the length of the stream bounds the rounds. -/
def readHeaders : Nat → Int → Bytes → ReadResult
  | 0, _, _ => ⟨.error .endOfStream, []⟩
  | fuel + 1, length, stream =>
    match splitLine stream with
    | none => ⟨.error .endOfStream, []⟩
    | some (line, rest) =>
      match readLine line with
      | .blank => readBody length rest
      | .other => readHeaders fuel length rest
      | .length n => readHeaders fuel n rest
      | .badLength value => ⟨.error (.badLength value), rest⟩

/-- Takes one frame off a stream that has ended behind `stream`. -/
def read (stream : Bytes) : ReadResult := readHeaders (stream.length + 1) (-1) stream

end LanguageClient.Frame
