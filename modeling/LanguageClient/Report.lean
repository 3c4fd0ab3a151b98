import LanguageClient.Error

/-! # Reports.

Everything the client says goes one of three ways: a line for the log, a
message for the user, or a message about something that went wrong. -/

namespace LanguageClient

/-- Something the client says. -/
inductive Report where
  | line (text : String)
  /-- A line for the log that is passed on as it came in, and need not be a text. -/
  | octets (bytes : Bytes)
  | info (text : String)
  | error (text : String)
  deriving DecidableEq, Repr

namespace Report

/-- The lines for the log, as they are shown. -/
def lines (rs : List Report) : List String :=
  rs.filterMap fun
    | line text => some text
    | octets bytes => some (textOf bytes)
    | _ => none

/-- The messages for the user. -/
def infos (rs : List Report) : List String :=
  rs.filterMap fun
    | info text => some text
    | _ => none

/-- The messages about what went wrong. -/
def errors (rs : List Report) : List String :=
  rs.filterMap fun
    | error text => some text
    | _ => none

end Report

end LanguageClient
