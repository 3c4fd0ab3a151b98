import LanguageClient.Error

/-! # Session ids.

A session is identified by a UUID in its dashed form, whichever notation it
was given in. -/

namespace LanguageClient

structure SessionId where
  uuid : Uuid
  deriving DecidableEq, Repr

namespace SessionId

def ofOctets (bs : Bytes) : Except Error SessionId :=
  if bs.isEmpty then .error (.plain "session ID cannot be empty")
  else
    match Uuid.parse bs with
    | .ok u => .ok ⟨u⟩
    | .error e =>
      let given := Text.quoteSymbols (Utf8.symbols bs)
      .error (.wrapped ("invalid session ID " ++ given ++ ": ") (some (.uuid e)) "")

def parse (s : String) : Except Error SessionId := ofOctets (utf8 s)

def text (id : SessionId) : String := id.uuid.text

end SessionId

end LanguageClient
