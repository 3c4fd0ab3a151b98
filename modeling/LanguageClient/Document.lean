import LanguageClient.Path
import LanguageClient.Url

/-! # Documents.

A document is known to the server by its URI. A selector picks the documents
that are the server's business: those of one language under one URI scheme.
`fileUri` names a file; no two cleaned absolute paths share a URI. -/

namespace LanguageClient

/-- A document as the server sees it. Its text is kept as octets, since a file
can hold anything. -/
structure Document where
  uri : String := ""
  languageId : String := ""
  version : Int := 0
  text : Bytes := []
  deriving DecidableEq, Repr, Inhabited

/-- Which documents reach the server. -/
structure Selector where
  scheme : String
  language : String
  deriving DecidableEq, Repr

namespace Selector

def files (language : String) : Selector := ⟨"file", language⟩

/-- Whether a document has the selector's language and scheme. A text that is
no URI never matches. -/
def selects (s : Selector) (doc : Document) : Bool :=
  doc.languageId == s.language &&
    (match Url.parse doc.uri with
      | .ok url => Text.sameName url.scheme.toList s.scheme.toList
      | .error _ => false)

end Selector

/-- The URI of a file, given the working directory. -/
def fileUri (workingDirectory path : Bytes) : Bytes :=
  ({ scheme := "file", path := Path.absoluteList workingDirectory path } : Url).bytes

end LanguageClient
