import LanguageClient.Document
import LanguageClient.Error
import LanguageClient.Json.Writer

/-! # Document events on their way to the server.

A bridge passes on what happens to documents, as one notification for each
event, but only for documents its selector selects. How a notification is sent
is left to a sender, which works on a state of its own. -/

namespace LanguageClient

/-- What happens to a document. -/
inductive DocumentEvent where
  | opened
  | changed
  | saved
  | closed
  deriving DecidableEq, Repr

namespace DocumentEvent

def method : DocumentEvent → String
  | opened => "textDocument/didOpen"
  | changed => "textDocument/didChange"
  | saved => "textDocument/didSave"
  | closed => "textDocument/didClose"

/-- The parameters that go with the method. A change carries the whole text. -/
def params (doc : Document) : DocumentEvent → Bytes
  | opened => Json.object [("textDocument", Json.object
      [("uri", Json.quote doc.uri), ("languageId", Json.quote doc.languageId),
        ("version", Json.integer doc.version), ("text", Json.quoteBytes doc.text)])]
  | changed => Json.object
      [("textDocument", Json.object
          [("uri", Json.quote doc.uri), ("version", Json.integer doc.version)]),
        ("contentChanges", Json.array [Json.object [("text", Json.quoteBytes doc.text)]])]
  | saved => Json.object
      [("textDocument", Json.object [("uri", Json.quote doc.uri)]),
        ("text", Json.quoteBytes doc.text)]
  | closed => Json.object [("textDocument", Json.object [("uri", Json.quote doc.uri)])]

end DocumentEvent

/-- Sends a notification, by its method and parameters. -/
abbrev Sender (σ : Type) := String → Bytes → σ → σ × Option Error

/-- Passes document events on, if there is somebody to send them. -/
structure Bridge (σ : Type) where
  selector : Selector
  sender : Option (Sender σ)

/-- Passes an event on. The result says whether it was. -/
def Bridge.forward (b : Bridge σ) (event : DocumentEvent) (doc : Document) (s : σ) :
    σ × Except Error Bool :=
  if b.selector.selects doc then
    match b.sender with
    | none => (s, .error (.condition .notRunning))
    | some send =>
      match send event.method (event.params doc) s with
      | (s, none) => (s, .ok true)
      | (s, some e) => (s, .error (.context (event.method ++ " " ++ doc.uri) e))
  else (s, .ok false)

end LanguageClient
