import Mathlib.Data.List.Forall2
import LanguageClient.Proofs.Rpc.MemberOrder
import LanguageClient.Proofs.Rpc.RoundTrip

/-! # A refusal is read back by whoever made the request.

The id of a request may be any value but `null`, and it is sent back as it was understood,
not as it was written: its tokens stay, the white space between them does not, and markup
in its strings is escaped. The peer reads the refusal as an error for this id
(`parse_refusal`), and the id it finds there is the same value it had put into the request:
the same brackets and literals, the same texts, and numbers digit for digit, whether or not
they fit into any number type (`SameValue`).

An id is one level inside its message (`isFragment_id`), and so is it inside the refusal,
so no refusal is nested more deeply than messages may be. -/

namespace LanguageClient.Json

/-! ### The same value -/

structure Token.Same (t t' : Token) : Prop where
  kind : t'.kind = t.kind
  text : t.kind = .string → unquote t'.lexeme = unquote t.lexeme
  digits : t.kind = .number → t'.lexeme = t.lexeme

def SameValue (ts ts' : List Token) : Prop := List.Forall₂ Token.Same ts ts'

theorem same_squeeze {t : Token} (h : Spells t.kind t.lexeme) : t.Same t.squeeze := by
  obtain ⟨space, kind, lexeme⟩ := t
  constructor
  · rfl
  · rintro rfl
    exact unquote_escapeMarkup h
  · rintro rfl
    cases h with
    | number hn => exact escapeMarkup_numeral hn

theorem sameValue_squeeze {ts : List Token} (h : ∀ t ∈ ts, Spells t.kind t.lexeme) :
    SameValue ts (ts.map Token.squeeze) := by
  apply List.forall₂_map_right_iff.mpr
  exact List.forall₂_same.mpr fun t ht => same_squeeze (h t ht)

/-- What is read from a fragment is the value again, with nothing before it. -/
theorem IsFragment.exists_tokens {n : Nat} {text : Bytes} (h : IsFragment n text) :
    ∃ ts, parse? (some n) text = some ts ∧ isValue (some n) ts = true ∧
      (∀ t ∈ ts, Spells t.kind t.lexeme) ∧ fragment ts = text := by
  obtain ⟨ts, hparse, htext⟩ := h
  obtain ⟨htokens, hvalue⟩ := parse?_eq_some.mp hparse
  exact ⟨ts, hparse, hvalue, spells_of_tokens? htokens, htext⟩

/-- Only `null` is written as `null`. -/
theorem compact_ne_null {n : Nat} {text : Bytes} {ts : List Token} (h : parse? (some n) text = some ts)
    (hfragment : fragment ts = text) (hne : text ≠ null) : compact ts ≠ null := by
  intro hnull
  obtain ⟨htokens, -⟩ := parse?_eq_some.mp h
  have hcompact := (parse?_eq_some.mp (parse?_compact h)).1
  rw [hnull] at hcompact
  have hone : tokens? null = some [⟨[], .null, [0x6E, 0x75, 0x6C, 0x6C]⟩] := by decide +kernel
  rw [hone] at hcompact
  obtain ⟨t, rfl, hsqueeze⟩ := List.map_eq_singleton_iff.mp (Option.some.inj hcompact).symm
  have hkind : t.kind = .null := congrArg Token.kind hsqueeze
  have hspells := spells_of_tokens? htokens t List.mem_cons_self
  have hlexeme : t.lexeme = [0x6E, 0x75, 0x6C, 0x6C] := hspells.eq_mark (by rw [hkind]; rfl)
  have hone' : null = [0x6E, 0x75, 0x6C, 0x6C] := by decide +kernel
  apply hne
  rw [← hfragment, fragment, List.flatMap_nil, List.append_nil, hlexeme, hone']

end LanguageClient.Json

namespace LanguageClient.Rpc

open Json (Token compact parse? maxDepth IsFragment SameValue)
open Json.Decoder

/-! ### The id of a request -/

/-- A reader of a message gives it the id that stands there, or leaves its id alone. -/
theorem id_of_update {f : FieldReader Members} (hf : f ∈ memberReaders) {m next : Members}
    {ts : List Token} (h : f.update m ts = some next) :
    next.id = m.id ∨ next.id = some (Json.fragment ts) := by
  revert f
  simp only [memberReaders, List.forall_mem_cons, List.not_mem_nil, false_implies, implies_true, and_true]
  refine ⟨?_, ?_, ?_, ?_, ?_, ?_⟩
  all_goals
    intro h
    obtain ⟨x, hx, rfl⟩ := Option.map_eq_some_iff.mp h
  case refine_3 =>
    cases hx
    exact Or.inr rfl
  all_goals exact Or.inl rfl

def Members.message (read : Members) (kind : MessageKind) (raw : Bytes) : Message where
  kind
  method := read.method
  id := presentId read.id
  params := read.params
  result := read.result
  error := read.error
  raw

/-- A body is a message exactly if its members can be read, their version is known, and they make up
some kind. -/
theorem parse_eq_ok_iff {raw : Bytes} {m : Message} : parse raw = .ok m ↔ ∃ read kind,
    membersDecoder.run {} raw = .ok read ∧ read.version = version ∧ classify read = some kind ∧
      m = read.message kind raw := by
  rw [parse]
  cases hrun : membersDecoder.run {} raw with
  | error e => simp
  | ok read =>
      dsimp only
      by_cases hversion : read.version = version
      · rw [if_neg (by simpa using hversion)]
        cases hkind : classify read with
        | none => simp [hkind]
        | some kind => grind [Members.message]
      · rw [if_pos hversion]
        grind

/-- Members of a message come from an object. -/
theorem readMembers_of_run {raw : Bytes} {read : Members} (h : membersDecoder.run {} raw = .ok read)
    (hversion : read.version = version) :
    ∃ ms, Json.ObjectText memberDepth ms raw ∧ readMembers ms = some read := by
  have hobject : ∃ ts, parse? (some maxDepth) raw = some ts ∧ Json.IsObject ts := by
    unfold run at h
    split at h
    · cases h
    · next ts hparse =>
        refine ⟨ts, hparse, ?_⟩
        cases ts with
        | nil => cases h
        | cons t rest =>
            refine ⟨t, rest, rfl, ?_⟩
            -- nothing else gives a version
            cases hkind : t.kind <;> simp [membersDecoder, record, hkind] at h
            · rfl
            · rw [← h] at hversion
              exact absurd hversion (by decide)
  obtain ⟨ts, hparse, hobject⟩ := hobject
  have htext := Json.objectText_of_parse? (n := memberDepth) hparse hobject
  refine ⟨_, htext, ?_⟩
  rw [run_of_objectText htext] at h
  cases hread : readMembers ((Json.members ts).map Json.Member.ofTokens) with
  | none =>
      rw [hread] at h
      cases h
  | some read' =>
      rw [hread] at h
      cases h
      rfl

/-- What has been read has a fragment for its id, if it has an id. -/
def IdRead (r : Option Members) : Prop := ∀ read ∈ r, ∀ id ∈ read.id, IsFragment memberDepth id

theorem IdRead.noteMember {r : Option Members} (hr : IdRead r) {m : Json.Member}
    (hm : IsFragment memberDepth m.value) :
    IdRead (noteMember memberReaders r (m.tokens memberDepth)) := by
  intro next hnext id hid
  unfold Json.Decoder.noteMember at hnext
  split at hnext
  · exact hr next hnext id hid
  · next f hf =>
      obtain ⟨read, hread, hupdate⟩ := Option.bind_eq_some_iff.mp hnext
      rcases id_of_update (List.mem_of_find?_eq_some hf) hupdate with hsame | hnew
      · exact hr read hread id (hsame ▸ hid)
      · have hvalue : Json.fragment (m.tokens memberDepth).2 = m.value :=
          congrArg Json.Member.value hm.ofTokens_tokens
        rw [hnew, hvalue] at hid
        cases hid
        exact hm

theorem IdRead.foldl {ms : List Json.Member} {r : Option Members} (hr : IdRead r)
    (hms : ∀ m ∈ ms, IsFragment memberDepth m.value) :
    IdRead ((ms.map (Json.Member.tokens memberDepth)).foldl (Json.Decoder.noteMember memberReaders) r) := by
  induction ms generalizing r with
  | nil => exact hr
  | cons m ms ih =>
      obtain ⟨hm, hms⟩ := List.forall_mem_cons.mp hms
      rw [List.map_cons, List.foldl_cons]
      exact ih (hr.noteMember hm) hms

/-- **The id of a message is a value that is nested less deeply than messages may be.** -/
theorem isFragment_id {body : Bytes} {m : Message} (h : parse body = .ok m) :
    ∀ id ∈ m.id, IsFragment memberDepth id ∧ id ≠ Json.null := by
  obtain ⟨read, kind, hrun, hversion, -, rfl⟩ := parse_eq_ok_iff.mp h
  obtain ⟨ms, htext, hread⟩ := readMembers_of_run hrun hversion
  intro id hid
  obtain ⟨hid, hnull⟩ := Option.filter_eq_some_iff.mp hid
  have hempty : IdRead (some {}) := by
    intro read hread id hid
    cases hread
    cases hid
  have hfragment := hempty.foldl htext.isFragment
  exact ⟨hfragment read hread id hid, by simpa using hnull⟩

/-! ### The members of a refusal -/

def refusalError (method : String) : RpcError where
  code := methodNotFound
  message := "method not found: " ++ method

/-- Its members, by their tokens. -/
def errorMembers (method : String) : List (String × List Token) := [
  ("code", [⟨[], .number, Json.integer methodNotFound⟩]),
  ("message", [textToken ("method not found: " ++ method)])]

def refusalMembers (ts : List Token) (method : String) : List (String × List Token) := [
  ("jsonrpc", [textToken version]), ("id", ts.map Token.squeeze),
  ("error", Json.objectTokens (errorMembers method))]

section
variable {id : Bytes} {ts : List Token} {n : Nat} {method : String}

/-- An id is sent back in compact form. -/
theorem echo_eq_compact (h : parse? (some n) id = some ts) : Outgoing.echo id = compact ts := by
  rw [Outgoing.echo, (Json.parse?_eq_some.mp h).1]

theorem spell_errorMembers (method : String) :
    Json.spell (Json.objectTokens (errorMembers method)) = errorBytes (refusalError method) := by
  rw [Json.spell_objectTokens]
  simp [errorMembers, errorBytes, refusalError, Json.spell, textToken]

/-- A refusal is written as its members, one behind the other. -/
theorem bytes_refusal (h : parse? (some n) id = some ts) : (Outgoing.refusal id method).bytes =
    Json.object ((refusalMembers ts method).map fun m => (m.1, Json.spell m.2)) := by
  rw [refusalMembers, List.map_cons, List.map_cons, List.map_cons, Json.spell_map_squeeze,
    spell_errorMembers, ← echo_eq_compact h]
  simp [Outgoing.bytes, Outgoing.refusal, Json.optionalMember, refusalError, Json.spell, textToken]

theorem errorMembers_ne_nil (method : String) : errorMembers method ≠ [] := List.cons_ne_nil _ _

theorem refusalMembers_ne_nil (ts : List Token) (method : String) : refusalMembers ts method ≠ [] :=
  List.cons_ne_nil _ _

theorem isValue_errorMembers (method : String) :
    ∀ m ∈ errorMembers method, Json.isValue (some n) m.2 = true := by
  intro m hm
  rcases List.mem_pair.mp hm with rfl | rfl <;> rfl

theorem isValue_refusalMembers (h : Json.isValue (some (n + 1)) ts = true) :
    ∀ m ∈ refusalMembers ts method, Json.isValue (some (n + 1)) m.2 = true := by
  simp only [refusalMembers, List.forall_mem_cons, List.not_mem_nil, false_implies, implies_true, and_true]
  refine ⟨rfl, ?_, Json.isValue_objectTokens (errorMembers_ne_nil method) (isValue_errorMembers method)⟩
  rwa [Json.isValue_map_squeeze]

theorem proper_refusalMembers (h : ∀ t ∈ ts, Json.Spells t.kind t.lexeme) :
    ∀ m ∈ refusalMembers ts method, ∀ t ∈ m.2, t.Proper := by
  simp only [refusalMembers, List.forall_mem_cons, List.not_mem_nil, false_implies, implies_true, and_true]
  refine ⟨proper_textToken _, Json.proper_map_squeeze h, ?_⟩
  apply Json.proper_objectTokens
  simp only [errorMembers, List.forall_mem_cons, List.not_mem_nil, false_implies, implies_true, and_true]
  exact ⟨⟨rfl, .number (Json.numeral_integer _)⟩, proper_textToken _⟩

/-! ### What a refusal is read as -/

/-- The error is read as it was written. -/
theorem errorDecoder_errorMembers (method : String) :
    errorDecoder {} (Json.objectTokens (errorMembers method)) = some (refusalError method) := by
  have hcode : integer 0 [⟨[], .number, Json.integer methodNotFound⟩] = some methodNotFound :=
    Json.integerOf?_integer (by decide)
  have hmessage (s : String) : text "" [textToken s] = some s := congrArg some (Json.unquote_quote s)
  rw [errorDecoder, Json.record_objectTokens (n := 0) _ _ (errorMembers_ne_nil method)
    (isValue_errorMembers method)]
  simp only [errorMembers, List.map_cons, List.map_nil]
  rw [Json.membersInto_quote (f := ⟨"code", _⟩) rfl]
  simp only [hcode, Option.map_some, Option.bind_some]
  rw [Json.membersInto_quote (f := ⟨"message", _⟩) rfl]
  simp only [hmessage, Option.map_some, Option.bind_some]
  rfl

theorem membersInto_error (m : Members) (hnone : m.error = none) (method : String)
    (rest : List (Bytes × List Token)) :
    membersInto memberReaders m ((Json.quote "error", Json.objectTokens (errorMembers method)) :: rest) =
      membersInto memberReaders { m with error := some (refusalError method) } rest := by
  apply Json.membersInto_of_update (f := ⟨"error", _⟩) rfl
  have hread : Json.Decoder.optional {} errorDecoder none (Json.objectTokens (errorMembers method)) =
      some (some (refusalError method)) := by
    rw [Json.Decoder.optional, Option.getD_none, errorDecoder_errorMembers]
    rfl
  simp only [hnone, hread, Option.map_some]

def refused (id : Bytes) (method : String) : Message where
  kind := .error
  method := ""
  id := some (Outgoing.echo id)
  params := none
  result := none
  error := some (refusalError method)
  raw := (Outgoing.refusal id method).bytes

/-- **A refusal is read as an error for the id of the request.** -/
theorem parse_refusal (h : IsFragment memberDepth id) (hne : id ≠ Json.null) (method : String) :
    parse (Outgoing.refusal id method).bytes = .ok (refused id method) := by
  obtain ⟨ts, hparse, hvalue, hspells, hfragment⟩ := h.exists_tokens
  have hmembers : ∀ m ∈ refusalMembers ts method, Json.isValue (some memberDepth) m.2 = true :=
    isValue_refusalMembers (n := memberDepth - 1) hvalue
  have htokens : parse? (some maxDepth) (Outgoing.refusal id method).bytes =
      some (Json.objectTokens (refusalMembers ts method)) := by
    rw [bytes_refusal hparse]
    exact Json.parse?_object (n := memberDepth) (refusalMembers_ne_nil ts method)
      (proper_refusalMembers hspells) hmembers
  -- The refusal is an object with three members, and each is read back.
  have hread : membersDecoder {} (Json.objectTokens (refusalMembers ts method)) =
      some { version, id := some (Outgoing.echo id), error := some (refusalError method) } := by
    rw [membersDecoder, Json.record_objectTokens _ _ (refusalMembers_ne_nil ts method) hmembers]
    simp only [refusalMembers, List.map_cons, List.map_nil]
    rw [membersInto_version, membersInto_id, membersInto_error _ rfl, membersInto_nil,
      Json.fragment_map_squeeze, echo_eq_compact hparse]
  have hpresent : presentId (some (Outgoing.echo id)) = some (Outgoing.echo id) := by
    have hecho := Json.compact_ne_null hparse hfragment hne
    rw [← echo_eq_compact hparse] at hecho
    simp [presentId, hecho]
  apply parse_eq_ok_iff.mpr
  refine ⟨{ version, id := some (Outgoing.echo id), error := some (refusalError method) }, .error, ?_, rfl,
    rfl, ?_⟩
  · rw [run, htokens]
    dsimp only
    rw [hread]
  · simp [Members.message, refused, hpresent]

end

end LanguageClient.Rpc
