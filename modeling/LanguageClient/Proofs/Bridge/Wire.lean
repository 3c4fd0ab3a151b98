import Mathlib.Tactic.Linarith
import LanguageClient.Bridge
import LanguageClient.Proofs.Rpc.RoundTrip

/-! # What a server reads of a document.

A `Notice` is what a server finds in the parameters of a message about a document: each
member that is there with its value. A server that takes the frame of an event off its
input, reads the message in it, and decodes the parameters finds the method of the event,
and of the document what the event tells: its address, its language, its version and its
text (`DocumentEvent.conveyed_frame`). The text is the one of valid octets, and has one
replacement for each octet that is stray (`Utf8.utf8_textOf`).

A frame that is longer than a reader allows is not read at all
(`DocumentEvent.not_conveyed`). -/

namespace LanguageClient

open Json (Token Decoder objectTokens arrayTokens spell)
open Rpc (textToken)

/-! ### Notices -/

/-- What a message says of a document. -/
structure Description where
  uri : Option String := none
  languageId : Option String := none
  version : Option Int := none
  text : Option String := none
  deriving DecidableEq

/-- What a server reads in a message about a document. -/
structure Notice where
  document : Description := {}
  changes : List (Option String) := []
  text : Option String := none
  deriving DecidableEq

def textReader : Decoder (Option String) := Decoder.optional "" Decoder.text

def Description.readers : List (Decoder.FieldReader Description) := [
  ⟨"uri", fun d ts => (textReader d.uri ts).map ({ d with uri := · })⟩,
  ⟨"languageId", fun d ts => (textReader d.languageId ts).map ({ d with languageId := · })⟩,
  ⟨"version", fun d ts =>
    (Decoder.optional 0 Decoder.integer d.version ts).map ({ d with version := · })⟩,
  ⟨"text", fun d ts => (textReader d.text ts).map ({ d with text := · })⟩]

def changeReaders : List (Decoder.FieldReader (Option String)) := [⟨"text", textReader⟩]

def Notice.readers : List (Decoder.FieldReader Notice) := [
  ⟨"textDocument", fun n ts =>
    (Decoder.record Description.readers n.document ts).map ({ n with document := · })⟩,
  ⟨"contentChanges", fun n ts =>
    (Decoder.list none (Decoder.record changeReaders) n.changes ts).map ({ n with changes := · })⟩,
  ⟨"text", fun n ts => (textReader n.text ts).map ({ n with text := · })⟩]

def Notice.decoder : Decoder Notice := Decoder.record Notice.readers

namespace DocumentEvent

def notice (doc : Document) : DocumentEvent → Notice
  | opened =>
    { document := { uri := some doc.uri, languageId := some doc.languageId, version := some doc.version
                    text := some (textOf doc.text) } }
  | changed =>
    { document := { uri := some doc.uri, version := some doc.version }
      changes := [some (textOf doc.text)] }
  | saved => { document := { uri := some doc.uri }, text := some (textOf doc.text) }
  | closed => { document := { uri := some doc.uri } }

/-! ### The tokens of a message -/

def versionToken (n : Int) : Token := ⟨[], .number, Json.integer n⟩

def description (doc : Document) : DocumentEvent → List (String × List Token)
  | opened =>
    [("uri", [textToken doc.uri]), ("languageId", [textToken doc.languageId]),
      ("version", [versionToken doc.version]), ("text", [textToken (textOf doc.text)])]
  | changed => [("uri", [textToken doc.uri]), ("version", [versionToken doc.version])]
  | saved | closed => [("uri", [textToken doc.uri])]

/-- The members that stand beside the description. -/
def contents (doc : Document) : DocumentEvent → List (String × List Token)
  | changed => [("contentChanges", arrayTokens [objectTokens [("text", [textToken (textOf doc.text)])]])]
  | saved => [("text", [textToken (textOf doc.text)])]
  | opened | closed => []

def members (event : DocumentEvent) (doc : Document) : List (String × List Token) :=
  ("textDocument", objectTokens (event.description doc)) :: event.contents doc

variable {event : DocumentEvent} {doc : Document}

/-- The parameters are spelled by their tokens. -/
theorem params_eq_spell (event : DocumentEvent) (doc : Document) :
    event.params doc = spell (objectTokens (event.members doc)) := by
  have htext (s : String) : spell [textToken s] = Json.quote s := List.append_nil _
  have hversion (n : Int) : spell [versionToken n] = Json.integer n := List.append_nil _
  cases event <;>
    simp only [params, members, description, contents, Json.spell_objectTokens, Json.spell_arrayTokens,
      List.map_cons, List.map_nil, htext, hversion, Json.quoteBytes_eq]

theorem isValue_scalar {t : Token} (h : t.kind = .string ∨ t.kind = .number) (limit : Option Nat) :
    Json.isValue limit [t] = true := by
  obtain ⟨space, kind, lexeme⟩ := t
  rcases h with rfl | rfl <;> rfl

theorem isValue_text (s : String) (limit : Option Nat) : Json.isValue limit [textToken s] = true :=
  isValue_scalar (Or.inl rfl) limit

/-- The members of a description are texts and numbers. -/
theorem mem_description {m : String × List Token} (h : m ∈ event.description doc) :
    (∃ s, m.2 = [textToken s]) ∨ ∃ n, m.2 = [versionToken n] := by
  cases event <;> simp only [description, List.mem_cons, List.not_mem_nil, or_false] at h <;> grind

theorem isValue_description (n : Nat) :
    ∀ m ∈ event.description doc, Json.isValue (some n) m.2 = true := by
  intro m hm
  rcases mem_description hm with ⟨s, hs⟩ | ⟨k, hk⟩
  · rw [hs]
    exact isValue_text s _
  · rw [hk]
    exact isValue_scalar (Or.inr rfl) _

theorem description_ne_nil : event.description doc ≠ [] := by
  cases event <;> simp [description]

theorem isValue_change (doc : Document) (n : Nat) :
    ∀ e ∈ [objectTokens [("text", [textToken (textOf doc.text)])]],
      Json.isValue (some (n + 1)) e = true := by
  rw [List.forall_mem_singleton]
  apply Json.isValue_objectTokens (List.cons_ne_nil _ _)
  rw [List.forall_mem_singleton]
  exact isValue_text _ _

/-- All members of the parameters are values. -/
theorem isValue_members (event : DocumentEvent) (doc : Document) (n : Nat) :
    ∀ m ∈ event.members doc, Json.isValue (some (n + 2)) m.2 = true := by
  have hdescription : Json.isValue (some (n + 2)) (objectTokens (event.description doc)) = true :=
    Json.isValue_objectTokens description_ne_nil (isValue_description (n + 1))
  rw [members, List.forall_mem_cons]
  refine ⟨hdescription, ?_⟩
  cases event with
  | opened | closed => simp [contents]
  | saved =>
      rw [contents, List.forall_mem_singleton]
      exact isValue_text _ _
  | changed =>
      rw [contents, List.forall_mem_singleton]
      exact Json.isValue_arrayTokens (isValue_change doc n)

theorem plain_text (s : String) : ∀ t ∈ [textToken s], t.Plain := by
  rw [List.forall_mem_singleton]
  exact Json.plain_textToken s

theorem plain_members (event : DocumentEvent) (doc : Document) :
    ∀ t ∈ objectTokens (event.members doc), t.Plain := by
  apply Json.plain_objectTokens
  rw [members, List.forall_mem_cons]
  constructor
  · apply Json.plain_objectTokens
    intro m hm
    rcases mem_description hm with ⟨s, hs⟩ | ⟨n, hn⟩
    · rw [hs]
      exact plain_text s
    · rw [hn, List.forall_mem_singleton]
      exact Json.plain_integerToken n
  · cases event with
    | opened | closed => simp [contents]
    | saved =>
        rw [contents, List.forall_mem_singleton]
        exact plain_text _
    | changed =>
        rw [contents, List.forall_mem_singleton]
        apply Json.plain_arrayTokens
        rw [List.forall_mem_singleton]
        apply Json.plain_objectTokens
        rw [List.forall_mem_singleton]
        exact plain_text _

/-! ### Reading the members -/

theorem read_text (current : Option String) (s : String) :
    textReader current [textToken s] = some (some s) := by
  simp [textReader, Decoder.optional, Decoder.isNull, Decoder.text, textToken, Json.unquote_quote]

theorem read_version (current : Option Int) {n : Int} (h : Number.fitsInt64 n = true) :
    Decoder.optional 0 Decoder.integer current [versionToken n] = some (some n) := by
  simp [Decoder.optional, Decoder.isNull, Decoder.integer, versionToken, Json.integerOf?_integer h]

section
open Json (membersInto_of_update)

/-- The description of a document is read as it was written. -/
theorem read_description (event : DocumentEvent) (hversion : Number.fitsInt64 doc.version = true) :
    Decoder.record Description.readers {} (objectTokens (event.description doc)) =
      some (event.notice doc).document := by
  -- How each member is read, whatever has been read before.
  have huri (d : Description) (s : String) (rest : List (Bytes × List Token)) :
      Decoder.membersInto Description.readers d ((Json.quote "uri", [textToken s]) :: rest) =
        Decoder.membersInto Description.readers { d with uri := some s } rest :=
    membersInto_of_update (f := ⟨"uri", _⟩) rfl (by simp only [read_text, Option.map_some]) rest
  have hlanguage (d : Description) (s : String) (rest : List (Bytes × List Token)) :
      Decoder.membersInto Description.readers d ((Json.quote "languageId", [textToken s]) :: rest) =
        Decoder.membersInto Description.readers { d with languageId := some s } rest :=
    membersInto_of_update (f := ⟨"languageId", _⟩) rfl (by simp only [read_text, Option.map_some]) rest
  have hcount (d : Description) (rest : List (Bytes × List Token)) :
      Decoder.membersInto Description.readers d ((Json.quote "version", [versionToken doc.version]) :: rest) =
        Decoder.membersInto Description.readers { d with version := some doc.version } rest :=
    membersInto_of_update (f := ⟨"version", _⟩) rfl
      (by simp only [read_version _ hversion, Option.map_some]) rest
  have htext (d : Description) (s : String) (rest : List (Bytes × List Token)) :
      Decoder.membersInto Description.readers d ((Json.quote "text", [textToken s]) :: rest) =
        Decoder.membersInto Description.readers { d with text := some s } rest :=
    membersInto_of_update (f := ⟨"text", _⟩) rfl (by simp only [read_text, Option.map_some]) rest
  rw [Json.record_objectTokens _ _ description_ne_nil (isValue_description 0)]
  cases event with
  | opened =>
      simp only [description, List.map_cons, List.map_nil, huri, hlanguage, hcount, htext]
      rfl
  | changed =>
      simp only [description, List.map_cons, List.map_nil, huri, hcount]
      rfl
  | saved | closed =>
      simp only [description, List.map_cons, List.map_nil, huri]
      rfl

/-- A change is read as the text it was written with. -/
theorem read_change (current : Option String) (s : String) :
    Decoder.record changeReaders current (objectTokens [("text", [textToken s])]) = some (some s) := by
  have hvalue : ∀ m ∈ [("text", [textToken s])], Json.isValue (some 0) m.2 = true := by
    rw [List.forall_mem_singleton]
    exact isValue_text _ _
  have hread : Decoder.membersInto changeReaders current [(Json.quote "text", [textToken s])] =
      Decoder.membersInto changeReaders (some s) [] :=
    membersInto_of_update (f := ⟨"text", textReader⟩) rfl (read_text current s) []
  rw [Json.record_objectTokens _ _ (List.cons_ne_nil _ _) hvalue]
  exact hread

/-- What stands beside the description is read as it was written. -/
theorem read_contents (event : DocumentEvent) (doc : Document) (d : Description) :
    Decoder.membersInto Notice.readers { document := d }
        ((event.contents doc).map fun m => (Json.quote m.1, m.2)) =
      some { event.notice doc with document := d } := by
  have htext (n : Notice) (s : String) (rest : List (Bytes × List Token)) :
      Decoder.membersInto Notice.readers n ((Json.quote "text", [textToken s]) :: rest) =
        Decoder.membersInto Notice.readers { n with text := some s } rest :=
    membersInto_of_update (f := ⟨"text", _⟩) rfl (by simp only [read_text, Option.map_some]) rest
  cases event with
  | opened | closed => rfl
  | saved =>
      simp only [contents, List.map_cons, List.map_nil, htext]
      rfl
  | changed =>
      have hchanges : Decoder.list none (Decoder.record changeReaders) []
          (arrayTokens [objectTokens [("text", [textToken (textOf doc.text)])]]) =
            some [some (textOf doc.text)] := by
        rw [Json.list_arrayTokens _ _ _ (isValue_change doc 0)]
        simp only [Decoder.listFrom, List.headD_nil, read_change]
        rfl
      simp only [contents, List.map_cons, List.map_nil]
      refine (membersInto_of_update (f := ⟨"contentChanges", _⟩) rfl ?_ []).trans rfl
      simp only [hchanges, Option.map_some]
      rfl

/-- **The parameters of a message are read as what it tells.** -/
theorem read_params (event : DocumentEvent) (hversion : Number.fitsInt64 doc.version = true) :
    Notice.decoder.run {} (event.params doc) = .ok (event.notice doc) := by
  have hne : event.members doc ≠ [] := List.cons_ne_nil _ _
  have htokens : Json.parse? (some Json.maxDepth) (event.params doc) =
      some (objectTokens (event.members doc)) := by
    rw [params_eq_spell]
    exact Json.parse?_spell (fun t ht => (plain_members event doc t ht).proper)
      (Json.isValue_objectTokens hne (isValue_members event doc 9997))
  have hread : Notice.decoder {} (objectTokens (event.members doc)) = some (event.notice doc) := by
    have hdocument (rest : List (Bytes × List Token)) :
        Decoder.membersInto Notice.readers {}
            ((Json.quote "textDocument", objectTokens (event.description doc)) :: rest) =
          Decoder.membersInto Notice.readers { document := (event.notice doc).document } rest :=
      membersInto_of_update (f := ⟨"textDocument", _⟩) rfl
        (by simp only [read_description event hversion, Option.map_some]) rest
    rw [Notice.decoder, Json.record_objectTokens _ _ hne (isValue_members event doc 0)]
    exact (hdocument _).trans (read_contents event doc _)
  rw [Decoder.run, htokens]
  dsimp only
  rw [hread]

end

/-! ### Frames -/

def body (event : DocumentEvent) (doc : Document) : Bytes :=
  (Rpc.Outgoing.notification event.method (some (event.params doc))).bytes

def frame (event : DocumentEvent) (doc : Document) : Bytes := Frame.encode (event.body doc)

/-- A frame is read as what the event tells of the document, whatever comes behind it. -/
def Conveyed (event : DocumentEvent) (doc : Document) (frame : Bytes) : Prop :=
  ∃ body m, (∀ rest, (Frame.read (frame ++ rest)).outcome = .ok body ∧ (Frame.read (frame ++ rest)).rest = rest) ∧
    Rpc.parse body = .ok m ∧ m.kind = .notification ∧ m.method = event.method ∧
    m.params.map (Notice.decoder.run {}) = some (.ok (event.notice doc))

theorem method_ne_empty (event : DocumentEvent) : event.method ≠ "" := by
  cases event <;> decide

/-- The message of an event asks for nothing but to be heard. -/
theorem body_eq_asking (event : DocumentEvent) (doc : Document) :
    event.body doc = (Rpc.asking none event.method (some (objectTokens (event.members doc)))).bytes := by
  rw [body, params_eq_spell, ← Json.compact_of_plain (plain_members event doc)]
  rfl

theorem body_ne_nil (event : DocumentEvent) (doc : Document) : (event.body doc).isEmpty = false := by
  rw [body, Rpc.Outgoing.bytes, Json.object]
  rfl

/-- **The frame of an event is read as what the event tells of the document.** -/
theorem conveyed_frame (event : DocumentEvent) (doc : Document)
    (hversion : Number.fitsInt64 doc.version = true)
    (hsize : (event.body doc).length ≤ Frame.maxSize) :
    event.Conveyed doc (event.frame doc) := by
  have hread : Rpc.parse (event.body doc) =
      .ok (Rpc.asked none event.method (some (objectTokens (event.members doc)))) := by
    rw [body_eq_asking]
    apply Rpc.parse_asking (method_ne_empty event)
    · rintro ts ⟨⟩ t ht
      exact (plain_members event doc t ht).proper.2
    · rintro ts ⟨⟩
      exact Json.isValue_objectTokens (List.cons_ne_nil _ _) (isValue_members event doc 9996)
  refine ⟨_, _, fun rest => ?_, hread, rfl, rfl, ?_⟩
  · rw [frame, Frame.read_encode_append hsize, Frame.received, body_ne_nil]
    exact ⟨rfl, rfl⟩
  · simp only [Rpc.asked, Option.map_some, Json.compact_of_plain (plain_members event doc),
      ← params_eq_spell, read_params event hversion]

/-- A frame that is longer than a reader allows is not read. -/
theorem not_conveyed (event : DocumentEvent) (doc : Document)
    (hsize : Frame.maxSize < (event.body doc).length)
    (hfits : ((event.body doc).length : Int) ≤ Number.int64Max) :
    ¬ event.Conveyed doc (event.frame doc) := by
  rintro ⟨body, m, hread, -⟩
  have hlarge : (Frame.read (event.frame doc ++ [])).outcome =
      .error (.tooLarge (event.body doc).length) := by
    rw [frame, Frame.encode, List.append_assoc, Frame.read_header_append hfits, Frame.readBody,
      if_neg (by omega), if_pos (by omega)]
  rw [(hread []).1] at hlarge
  cases hlarge

/-! ### Long documents -/

/-- A document of so many letters. -/
def lettered (n : Nat) : Document :=
  { uri := "file:///a.gbnf", languageId := "gbnf", version := 1, text := List.replicate n 0x61 }

theorem quoteBytes_letters (n : Nat) :
    Json.quoteBytes (List.replicate n 0x61) = 0x22 :: (List.replicate n 0x61 ++ [0x22]) := by
  have hencode : Utf8.encode (List.replicate n 'a') = List.replicate n 0x61 := by
    rw [Utf8.encode, List.flatMap_replicate]
    exact List.flatten_replicate_singleton
  have hquoted : (List.replicate n 'a').flatMap Json.quotedChar = List.replicate n 'a' := by
    rw [List.flatMap_replicate]
    exact List.flatten_replicate_singleton
  have hdecode : (textOf (List.replicate n 0x61)).toList = List.replicate n 'a' := by
    rw [textOf, String.toList_ofList, ← hencode, ← List.append_nil (Utf8.encode _), Json.decode_append_encode]
    exact List.append_nil _
  rw [Json.quoteBytes_eq, Json.quote_eq, hdecode, hquoted, hencode]

/-- How long the message about a document of letters is. -/
theorem length_body_lettered (n : Nat) : (opened.body (lettered n)).length = n + 142 := by
  have hletters : (Json.quoteBytes (List.replicate n 0x61)).length = n + 2 := by
    rw [quoteBytes_letters]
    simp
  -- all but the text is as long as it is for no letters
  have hnone : (opened.body (lettered 0)).length = 142 := by decide +kernel
  have hempty : (Json.quoteBytes (List.replicate 0 0x61)).length = 2 := rfl
  simp only [body, Rpc.Outgoing.bytes, Rpc.Outgoing.notification, method, params, lettered, Json.object,
    Json.separated, Json.optionalMember, Option.map_none, String.reduceEq, if_false, List.map_cons, List.map_nil,
    List.append_nil, List.cons_append, List.nil_append, List.length_cons, List.length_append,
    List.length_nil] at hnone ⊢
  rw [hempty] at hnone
  rw [hletters]
  linarith

end DocumentEvent

end LanguageClient
