import LanguageClient.Proofs.Json.Compact
import LanguageClient.Proofs.Json.Writer
import LanguageClient.Proofs.Rpc.Senders

/-! # Messages are read back as they were sent.

A message that asks for something is an object with two to four members, and each
member is spelled in tokens of its own (`bytes_asking`). So a receiver finds the
tokens of the members again, and reads from them what the sender put in
(`parse_asking`): the method and the id are the same, and the parameters are the
compact form of the value that was sent, which decodes to that value.

The body is one level deeper than its parameters. Parameters that are as deep as a
text may be can therefore be sent, but nobody reads them (`deepest_params_unread`). -/

namespace LanguageClient.Rpc

open Json (Token compact isDigit_of_mem_integer decode_integer numeral_integer)

/-! ### Ids -/

/-- An id is never taken for a missing one. -/
theorem presentId_integer (n : Nat) : presentId (some (Json.integer n)) = some (Json.integer n) := by
  have hne : Json.integer n ≠ Json.null := by
    intro hnull
    have hletter : (0x6E : UInt8) ∈ Json.integer n := by
      rw [hnull]
      decide
    exact absurd (isDigit_of_mem_integer hletter) (by decide)
  simp [presentId, hne]

/-! ### The members of a message -/

def textToken (s : String) : Token := ⟨[], .string, Json.quote s⟩

def idToken (n : Nat) : Token := ⟨[], .number, Json.integer n⟩

theorem proper_textToken (s : String) : (textToken s).Proper := ⟨rfl, Json.spells_quote s⟩

theorem proper_idToken (n : Nat) : (idToken n).Proper := ⟨rfl, .number (numeral_integer n)⟩

/-- A message that asks for something: a request if it has an id, else a notification. -/
def asking (id : Option Nat) (method : String) (value : Option (List Token)) : Outgoing :=
  { id := id.map fun n : Nat => Json.integer n, method, params := value.map compact }

/-- The members of such a message, by their tokens. -/
def askingMembers (id : Option Nat) (method : String) (value : Option (List Token)) :
    List (String × List Token) :=
  ("jsonrpc", [textToken version]) :: ((id.map fun n => ("id", [idToken n])).toList ++
    ("method", [textToken method]) :: (value.map fun ts => ("params", ts.map Token.squeeze)).toList)

/-- What a receiver reads from them. -/
def askedMembers (id : Option Nat) (method : String) (value : Option (List Token)) : Members :=
  { version, method, id := id.map fun n : Nat => Json.integer n, params := value.map compact }

variable {id : Option Nat} {method : String} {value : Option (List Token)}

theorem bytes_asking (hmethod : method ≠ "") : (asking id method value).bytes =
    Json.object ((askingMembers id method value).map fun m => (m.1, Json.spell m.2)) := by
  cases id <;> cases value <;>
    simp [asking, askingMembers, Outgoing.bytes, hmethod, Json.optionalMember, Json.spell,
      textToken, idToken, compact, List.flatMap_map, Token.squeeze]

theorem askingMembers_ne_nil (id : Option Nat) (method : String) (value : Option (List Token)) :
    askingMembers id method value ≠ [] := List.cons_ne_nil _ _

theorem mem_askingMembers {m : String × List Token} (h : m ∈ askingMembers id method value) :
    (∃ s, m.2 = [textToken s]) ∨ (∃ n, m.2 = [idToken n]) ∨
      ∃ ts ∈ value, m.2 = ts.map Token.squeeze := by
  simp only [askingMembers, List.mem_cons, List.mem_append, Option.mem_toList,
    Option.map_eq_some_iff] at h
  rcases h with rfl | ⟨n, -, rfl⟩ | rfl | ⟨ts, hts, rfl⟩
  · exact Or.inl ⟨version, rfl⟩
  · exact Or.inr (Or.inl ⟨n, rfl⟩)
  · exact Or.inl ⟨method, rfl⟩
  · exact Or.inr (Or.inr ⟨ts, hts, rfl⟩)

theorem proper_askingMembers (hspells : ∀ ts ∈ value, ∀ t ∈ ts, Json.Spells t.kind t.lexeme) :
    ∀ m ∈ askingMembers id method value, ∀ t ∈ m.2, t.Proper := by
  intro m hm t ht
  rcases mem_askingMembers hm with ⟨s, hs⟩ | ⟨n, hn⟩ | ⟨ts, hts, hm⟩
  · rw [hs, List.mem_singleton] at ht
    rw [ht]
    exact proper_textToken s
  · rw [hn, List.mem_singleton] at ht
    rw [ht]
    exact proper_idToken n
  · rw [hm] at ht
    exact Json.proper_map_squeeze (hspells ts hts) t ht

theorem isValue_askingMembers {n : Nat} (hdepth : ∀ ts ∈ value, Json.isValue (some n) ts = true) :
    ∀ m ∈ askingMembers id method value, Json.isValue (some n) m.2 = true := by
  intro m hm
  rcases mem_askingMembers hm with ⟨s, hs⟩ | ⟨n, hn⟩ | ⟨ts, hts, hm⟩
  · rw [hs]
    rfl
  · rw [hn]
    rfl
  · rw [hm, Json.isValue_map_squeeze]
    exact hdepth ts hts

/-- **The body of a message is read as the tokens of its members.** -/
theorem parse?_asking {n : Nat} (hmethod : method ≠ "")
    (hspells : ∀ ts ∈ value, ∀ t ∈ ts, Json.Spells t.kind t.lexeme)
    (hdepth : ∀ ts ∈ value, Json.isValue (some n) ts = true) :
    Json.parse? (some (n + 1)) (asking id method value).bytes =
      some (Json.objectTokens (askingMembers id method value)) := by
  rw [bytes_asking hmethod]
  apply Json.parse?_object
  · exact askingMembers_ne_nil id method value
  · exact proper_askingMembers hspells
  · exact isValue_askingMembers hdepth

/-! ### What the members are read as -/

section
open Json.Decoder (membersInto)

variable (m : Members) (rest : List (Bytes × List Token))

theorem membersInto_nil : membersInto memberReaders m [] = some m := rfl

theorem membersInto_version (text : String) :
    membersInto memberReaders m ((Json.quote "jsonrpc", [textToken text]) :: rest) =
      membersInto memberReaders { m with version := text } rest := by
  rw [Json.membersInto_quote (f := ⟨"jsonrpc", _⟩) rfl]
  simp [Json.Decoder.text, textToken, Json.unquote_quote]

theorem membersInto_method (text : String) :
    membersInto memberReaders m ((Json.quote "method", [textToken text]) :: rest) =
      membersInto memberReaders { m with method := text } rest := by
  rw [Json.membersInto_quote (f := ⟨"method", _⟩) rfl]
  simp [Json.Decoder.text, textToken, Json.unquote_quote]

theorem membersInto_id (ts : List Token) :
    membersInto memberReaders m ((Json.quote "id", ts) :: rest) =
      membersInto memberReaders { m with id := some (Json.fragment ts) } rest := by
  rw [Json.membersInto_quote (f := ⟨"id", _⟩) rfl]
  rfl

theorem membersInto_params (ts : List Token) :
    membersInto memberReaders m ((Json.quote "params", ts) :: rest) =
      membersInto memberReaders { m with params := some (Json.fragment ts) } rest := by
  rw [Json.membersInto_quote (f := ⟨"params", _⟩) rfl]
  rfl

theorem fragment_idToken (n : Nat) : Json.fragment [idToken n] = Json.integer n := List.append_nil _

/-- The members of a message are read back as they were put in. -/
theorem membersInto_asking (id : Option Nat) (method : String) (value : Option (List Token)) :
    membersInto memberReaders {} ((askingMembers id method value).map fun m => (Json.quote m.1, m.2)) =
      some (askedMembers id method value) := by
  cases id <;> cases value <;>
    simp only [askingMembers, Option.map, Option.toList, List.map, List.cons_append, List.nil_append,
      membersInto_version, membersInto_id, membersInto_method, membersInto_params, membersInto_nil,
      Json.fragment_map_squeeze, fragment_idToken, askedMembers]

end

/-- The message a receiver gets. -/
def asked (id : Option Nat) (method : String) (value : Option (List Token)) : Message where
  kind := if id.isSome then .request else .notification
  method
  id := id.map fun n : Nat => Json.integer n
  params := value.map compact
  result := none
  error := none
  raw := (asking id method value).bytes

theorem presentId_asked (id : Option Nat) : presentId (id.map fun n : Nat => Json.integer n) =
    id.map fun n : Nat => Json.integer n := by
  cases id with
  | none => rfl
  | some n => exact presentId_integer n

theorem classify_askedMembers (hmethod : method ≠ "") :
    classify (askedMembers id method value) = some (asked id method value).kind := by
  simp only [classify, askedMembers, presentId_asked]
  cases id <;> simp [asked, hmethod]

/-- **What was put into a message is read from it.** -/
theorem parse_asking (hmethod : method ≠ "")
    (hspells : ∀ ts ∈ value, ∀ t ∈ ts, Json.Spells t.kind t.lexeme)
    (hdepth : ∀ ts ∈ value, Json.isValue (some (Json.maxDepth - 1)) ts = true) :
    parse (asking id method value).bytes = .ok (asked id method value) := by
  -- The members are one level inside the object, so the limit for them is one less.
  have htokens : Json.parse? (some (Json.maxDepth - 1 + 1)) (asking id method value).bytes =
      some (Json.objectTokens (askingMembers id method value)) := parse?_asking hmethod hspells hdepth
  have hmembers : membersDecoder {} (Json.objectTokens (askingMembers id method value)) =
      some (askedMembers id method value) := by
    rw [membersDecoder, Json.record_objectTokens _ _ (askingMembers_ne_nil id method value)
      (isValue_askingMembers hdepth)]
    exact membersInto_asking id method value
  have hrun : membersDecoder.run {} (asking id method value).bytes =
      .ok (askedMembers id method value) := by
    rw [Json.Decoder.run, show Json.maxDepth = Json.maxDepth - 1 + 1 from rfl, htokens]
    dsimp only
    rw [hmembers]
  rw [parse, hrun]
  dsimp only
  rw [classify_askedMembers hmethod]
  simp only [askedMembers, presentId_asked, ne_eq, not_true_eq_false, if_false]
  rfl

theorem intId_asked {n : Nat} (h : (n : Int) ≤ Number.int64Max) :
    (asked (some n) method value).intId = some (n : Int) := by
  simp only [Message.intId, asked, Option.map_some, Option.bind_some, decode_integer,
    Number.toList_intText]
  exact Number.int64?_natText h

/-! ### Sending -/

theorem encode_ofTokens (value : Option (List Token)) :
    (Params.ofTokens value).encode = .ok (value.map compact) := by
  cases value <;> rfl

theorem submit_call (c : Connection) (id : Nat) (method : String) (value : Option (List Token)) :
    c.submit (.call id method (.ofTokens value)) = c.send (asking (some id) method value) := by
  rw [Connection.submit, Job.message, encode_ofTokens]
  rfl

theorem submit_notify (c : Connection) (method : String) (value : Option (List Token)) :
    c.submit (.notify method (.ofTokens value)) = c.send (asking none method value) := by
  rw [Connection.submit, Job.message, encode_ofTokens]
  rfl

/-- What a call writes, and the id it waits under once all of it is written. -/
theorem call_asking {c : Connection} (hopen : c.closed = false) (method : String)
    (value : Option (List Token)) (abandoned : Option Condition) :
    octets (c.call method (.ofTokens value) abandoned).2.1 =
        (Frame.write c.writer (asking (some (c.issued + 1)) method value).bytes).written ∧
      ((Frame.write c.writer (asking (some (c.issued + 1)) method value).bytes).error = none →
        (c.call method (.ofTokens value) abandoned).2.2 = .ok (c.issued + 1)) := by
  obtain ⟨c', returned, hreturned, hcall⟩ :=
    Connection.call_eq_submit hopen method (.ofTokens value) abandoned
  rw [submit_call] at hcall
  rw [hcall]
  constructor
  · have happend : ∀ effects, octets (effects ++ returned) = octets effects := by
      intro effects
      rw [octets, List.flatMap_append]
      exact (congrArg (octets effects ++ ·) hreturned).trans (List.append_nil _)
    rw [happend, octets_send]
  · intro hwritten
    simp only [Connection.send, hwritten]

/-- What a notification writes. -/
theorem notify_asking {c : Connection} (hopen : c.closed = false) (method : String)
    (value : Option (List Token)) :
    octets (c.notify method (.ofTokens value) none).2.1 =
      (Frame.write c.writer (asking none method value).bytes).written := by
  rw [Connection.notify_eq_submit hopen, submit_notify, octets_send]

/-- The parameters of a message are a value in its compact form, and decode to what
the text it was given in decodes to. -/
def Message.Carries (m : Message) (text : Option Bytes) (value : Option (List Token)) : Prop :=
  m.params = value.map compact ∧
    m.params.map (Json.Decoder.any.run .null) = text.map (Json.Decoder.any.run .null)

/-- The message that is read carries the parameters that were sent. -/
theorem asked_carries {text : Option Bytes}
    (hvalue : text.mapM (Json.parse? (some Json.maxDepth)) = some value) :
    (asked id method value).Carries text value := by
  refine ⟨rfl, ?_⟩
  cases text with
  | none =>
      cases hvalue
      rfl
  | some text =>
      obtain ⟨ts, hts, rfl⟩ := Option.map_eq_some_iff.mp hvalue
      exact congrArg some (Json.run_any_compact hts .null)

theorem spells_of_mapM {text : Option Bytes}
    (hvalue : text.mapM (Json.parse? (some Json.maxDepth)) = some value) :
    ∀ ts ∈ value, ∀ t ∈ ts, Json.Spells t.kind t.lexeme := by
  intro ts hts
  cases text with
  | none =>
      cases hvalue
      cases hts
  | some text =>
      obtain ⟨ts', hts', rfl⟩ := Option.map_eq_some_iff.mp hvalue
      cases hts
      exact Json.spells_of_tokens? (Json.parse?_eq_some.mp hts').1

/-- **What a connection sends is read back**: a call as a request with its method, its
parameters and the id the call waits under, and a notification as one with its method
and parameters and without an id. Parameters may be nested one level less deeply than
a text, and ids are numbers of 64 bits. -/
theorem sent_reads_back (c : Connection) (method : String) (text : Option Bytes)
    (value : Option (List Token)) (abandoned : Option Condition) (hopen : c.closed = false)
    (hid : (c.issued : Int) < Number.int64Max) (hmethod : method ≠ "")
    (hvalue : text.mapM (Json.parse? (some Json.maxDepth)) = some value)
    (hdepth : ∀ ts ∈ value, Json.isValue (some (Json.maxDepth - 1)) ts = true) :
    (∃ body m,
      octets (c.call method (.ofTokens value) abandoned).2.1 = (Frame.write c.writer body).written ∧
      ((Frame.write c.writer body).error = none →
        (c.call method (.ofTokens value) abandoned).2.2 = .ok (c.issued + 1)) ∧
      parse body = .ok m ∧ m.kind = .request ∧ m.method = method ∧
      m.intId = some ((c.issued + 1 : Nat) : Int) ∧ m.Carries text value) ∧
    ∃ body m,
      octets (c.notify method (.ofTokens value) none).2.1 = (Frame.write c.writer body).written ∧
      parse body = .ok m ∧ m.kind = .notification ∧ m.method = method ∧ m.id = none ∧
      m.Carries text value := by
  have hspells := spells_of_mapM hvalue
  constructor
  · obtain ⟨hwritten, hreturns⟩ := call_asking hopen method value abandoned
    refine ⟨_, asked (some (c.issued + 1)) method value, hwritten, hreturns,
      parse_asking hmethod hspells hdepth, rfl, rfl, ?_, asked_carries hvalue⟩
    apply intId_asked
    omega
  · exact ⟨_, asked none method value, notify_asking hopen method value,
      parse_asking hmethod hspells hdepth, rfl, rfl, rfl, asked_carries hvalue⟩

/-- A text with blanks, markup and a line separator in it. -/
def markupText : Bytes := utf8 " [1, \"<&\u2028>\" ]"

def markupTokens : List Token := [
  ⟨[0x20], .openArray, [0x5B]⟩, ⟨[], .number, [0x31]⟩, ⟨[], .comma, [0x2C]⟩,
  ⟨[0x20], .string, utf8 "\"<&\u2028>\""⟩, ⟨[0x20], .closeArray, [0x5D]⟩]

/-- Markup in the method and in the parameters is read back. -/
theorem markup_reads_back :
    (some markupText).mapM (Json.parse? (some Json.maxDepth)) = some (some markupTokens) ∧
    (∃ body m,
      octets (({} : Connection).call "a\"<b" (.ofTokens (some markupTokens)) none).2.1 =
        Frame.encode body ∧
      (({} : Connection).call "a\"<b" (.ofTokens (some markupTokens)) none).2.2 = .ok 1 ∧
      parse body = .ok m ∧ m.kind = .request ∧ m.method = "a\"<b" ∧ m.intId = some 1 ∧
      m.Carries (some markupText) (some markupTokens)) ∧
    ∃ body m,
      octets (({} : Connection).notify "a\"<b" (.ofTokens (some markupTokens)) none).2.1 =
        Frame.encode body ∧
      parse body = .ok m ∧ m.kind = .notification ∧ m.method = "a\"<b" ∧ m.id = none ∧
      m.Carries (some markupText) (some markupTokens) := by
  have hvalue : (some markupText).mapM (Json.parse? (some Json.maxDepth)) =
      some (some markupTokens) := by decide +kernel
  have hdepth : ∀ ts ∈ some markupTokens, Json.isValue (some (Json.maxDepth - 1)) ts = true := by
    intro ts hts
    cases hts
    rfl
  obtain ⟨⟨body, m, hwritten, hreturns, hparse, hm⟩, hnotify⟩ :=
    sent_reads_back {} "a\"<b" (some markupText) (some markupTokens) none rfl (by decide) (by decide)
      hvalue hdepth
  exact ⟨hvalue, ⟨body, m, hwritten, hreturns rfl, hparse, hm⟩, hnotify⟩

/-! ### Parameters that are too deep -/

/-- A number inside so many arrays. -/
def nested : Nat → List Token
  | 0 => [idToken 0]
  | n + 1 => ⟨[], .openArray, [0x5B]⟩ :: (nested n ++ [⟨[], .closeArray, [0x5D]⟩])

theorem proper_nested (n : Nat) : ∀ t ∈ nested n, t.Proper := by
  induction n with
  | zero =>
      intro t ht
      rw [List.mem_singleton.mp ht]
      exact proper_idToken 0
  | succ n ih =>
      intro t ht
      rcases List.mem_cons.mp ht with rfl | ht
      · exact ⟨rfl, .openArray⟩
      rcases List.mem_append.mp ht with ht | ht
      · exact ih t ht
      · rw [List.mem_singleton.mp ht]
        exact ⟨rfl, .closeArray⟩

theorem map_squeeze_nested (n : Nat) : (nested n).map Token.squeeze = nested n := by
  induction n with
  | zero => rfl
  | succ n ih =>
      rw [nested, List.map_cons, List.map_append, ih]
      rfl

/-- Behind an opening bracket the array goes on with an element. -/
theorem run_nested_valueOrClose (limit : Option Nat) (b : Json.Bracket) (stack : List Json.Bracket)
    (n : Nat) (rest : List Token) :
    Json.run limit (.valueOrClose, b :: stack) (nested n ++ rest) =
      Json.run limit (.value, b :: stack) (nested n ++ rest) := by
  cases n <;> rfl

/-- A number inside `n` arrays is a value that is `n` deep. -/
theorem isValue_nested (n : Nat) : Json.isValue (some n) (nested n) = true := by
  induction n with
  | zero => rfl
  | succ n ih =>
      have hrun : Json.run (some n) (.value, []) (nested n) = some (.nothing, []) := by
        simpa [Json.isValue] using ih
      have hlift : Json.run (some (n + 1)) (.value, [.array]) (nested n) =
          some (.commaOrClose, [.array]) := Json.run_lift hrun [.array]
      have hopen : Json.run (some (n + 1)) (.value, []) (nested (n + 1)) =
          Json.run (some (n + 1)) (.valueOrClose, [.array])
            (nested n ++ [⟨[], .closeArray, [0x5D]⟩]) := by
        simp [nested, Json.run, Json.step, Json.stepValue, Json.pushBracket]
      rw [Json.isValue, hopen, run_nested_valueOrClose, Json.run_append hlift]
      rfl

/-- Arrays that are nested more deeply than the limit are refused. -/
theorem run_nested_eq_none {limit n : Nat} {stack : List Json.Bracket}
    (h : limit < stack.length + n) (hn : n ≠ 0) (rest : List Token) :
    Json.run (some limit) (.value, stack) (nested n ++ rest) = none := by
  induction n generalizing stack rest with
  | zero => exact absurd rfl hn
  | succ n ih =>
      -- The stack grows by one with each bracket, and the sum stays above the limit.
      by_cases hdeep : limit < stack.length + 1
      · simp [nested, Json.run, Json.step, Json.stepValue, Json.pushBracket, hdeep]
      · have hpush : Json.run (some limit) (.value, stack) (nested (n + 1) ++ rest) =
            Json.run (some limit) (.valueOrClose, .array :: stack)
              (nested n ++ ([⟨[], .closeArray, [0x5D]⟩] ++ rest)) := by
          simp [nested, Json.run, Json.step, Json.stepValue, Json.pushBracket, hdeep]
        rw [hpush, run_nested_valueOrClose]
        apply ih
        · rw [List.length_cons]
          omega
        · omega

/-- A request is one level deeper than its parameters. -/
theorem run_request (n : Nat) (method : String) (ts : List Token) :
    Json.run (some Json.maxDepth) (.value, [])
        (Json.objectTokens (askingMembers (some n) method (some ts))) =
      Json.run (some Json.maxDepth) (.value, [.object])
        (ts.map Token.squeeze ++ [⟨[], .closeObject, [0x7D]⟩]) := rfl

/-- **A request whose parameters are as deep as a text may be is not read.** -/
theorem parse_nested {n : Nat} (h : Json.maxDepth ≤ n) (hmethod : method ≠ "") (k : Nat) :
    parse (asking (some k) method (some (nested n))).bytes = .error (.json .malformed) := by
  -- With a higher limit the text would be read, so it is the depth that is refused.
  have htokens : Json.parse? (some (n + 1)) (asking (some k) method (some (nested n))).bytes =
      some (Json.objectTokens (askingMembers (some k) method (some (nested n)))) := by
    apply parse?_asking hmethod
    · intro ts hts t ht
      cases hts
      exact (proper_nested n t ht).2
    · intro ts hts
      cases hts
      exact isValue_nested n
  have hpositive : 0 < Json.maxDepth := by decide
  have hrefused : Json.isValue (some Json.maxDepth)
      (Json.objectTokens (askingMembers (some k) method (some (nested n)))) = false := by
    rw [Json.isValue, run_request, map_squeeze_nested, run_nested_eq_none]
    · rfl
    · rw [List.length_singleton]
      omega
    · omega
  rw [parse, Json.Decoder.run, Json.parse?, (Json.parse?_eq_some.mp htokens).1]
  simp only [hrefused, Bool.false_eq_true, if_false]

theorem octets_call_opened (method : String) (value : Option (List Token)) :
    octets (({} : Connection).call method (.ofTokens value) none).2.1 =
      Frame.encode (asking (some 1) method value).bytes := (call_asking rfl method value none).1

/-- **Parameters as deep as a text may be are sent, and nobody reads them.** -/
theorem deepest_params_unread :
    Json.parse? (some Json.maxDepth) (Json.spell (nested Json.maxDepth)) =
        some (nested Json.maxDepth) ∧
      ∃ body,
        octets (({} : Connection).call "m" (.ofTokens (some (nested Json.maxDepth))) none).2.1 =
          Frame.encode body ∧
        parse body = .error (.json .malformed) := by
  constructor
  · exact Json.parse?_spell (proper_nested _) (isValue_nested _)
  · exact ⟨_, octets_call_opened "m" _, parse_nested (Nat.le_refl _) (by decide) 1⟩

end LanguageClient.Rpc
