import LanguageClient.Proofs.Rpc.Closing
import LanguageClient.Proofs.Rpc.Noise
import LanguageClient.Proofs.Rpc.Reception
import LanguageClient.Proofs.Rpc.Refusal

/-! # Every request of the peer is refused once.

The read loop does not wait for the refusals of requests to be written: each has a sender
of its own, which gets to it at some time. A `Desk` is a connection at work (`Traffic`)
with the refusals that are due, and `play?` makes moves in any order, with the senders
among them.

What one move adds is said in `Adds`: a refusal falls due for each request that was
received and for nothing else, and handlers are called with notifications that were
received and with nothing else (`step?_adds`). So at any time the refusals that were
written and those that are due are one for each request, and no call was completed by a
request, whatever id it has (`requests_refused_once`). -/

namespace LanguageClient.Rpc

/-! ### What is received -/

def messages (bodies : List Bytes) : List Message := bodies.filterMap fun body => (parse body).toOption

def requests (bodies : List Bytes) : List Message := (messages bodies).filter (·.isRequest)

/-- The notifications among them, by what a handler gets of them. -/
def notifications (bodies : List Bytes) : List (String × Option Bytes) :=
  ((messages bodies).filter (·.isNotification)).map fun m => (m.method, m.params)

def Message.refusal (m : Message) : Outgoing := .refusal (m.id.getD []) m.method

def Message.refusalFrame (m : Message) : Bytes := Frame.encode m.refusal.bytes

theorem requests_append (before after : List Bytes) :
    requests (before ++ after) = requests before ++ requests after := by
  rw [requests, messages, List.filterMap_append, List.filter_append]
  rfl

theorem notifications_append (before after : List Bytes) :
    notifications (before ++ after) = notifications before ++ notifications after := by
  rw [notifications, messages, List.filterMap_append, List.filter_append, List.map_append]
  rfl

theorem mem_requests {bodies : List Bytes} {m : Message} :
    m ∈ requests bodies ↔ (∃ body ∈ bodies, parse body = .ok m) ∧ m.kind = .request := by
  have hparse : ∀ body, (parse body).toOption = some m ↔ parse body = .ok m := by
    intro body
    cases parse body <;> simp [Except.toOption]
  simp [requests, messages, Message.isRequest, hparse]

/-- What a handler was called with. -/
def Effect.handled? : Effect → Option (String × Option Bytes)
  | .notified _ method params => some (method, params)
  | _ => none

/-! ### Refusals on their way -/

/-- A connection at work, with the frames of the refusals that have not been written. -/
structure Desk where
  traffic : Traffic
  due : List Bytes := []

/-- What is seen of a desk, in the order in which it happens. -/
structure Sightings where
  notes : List Note := []
  /-- What handlers were called with. -/
  handled : List (String × Option Bytes) := []
  /-- The refusals that were written. -/
  refused : List Bytes := []

namespace Sightings

/-- What is seen first, and then what is seen later. -/
def append (seen more : Sightings) : Sightings where
  notes := seen.notes ++ more.notes
  handled := seen.handled ++ more.handled
  refused := seen.refused ++ more.refused

instance : Append Sightings := ⟨append⟩

@[simp] theorem notes_append (seen more : Sightings) : (seen ++ more).notes = seen.notes ++ more.notes := rfl

@[simp] theorem handled_append (seen more : Sightings) :
    (seen ++ more).handled = seen.handled ++ more.handled := rfl

@[simp] theorem refused_append (seen more : Sightings) :
    (seen ++ more).refused = seen.refused ++ more.refused := rfl

/-- The bodies of the frames that were received. -/
def received (seen : Sightings) : List Bytes := bodies seen.notes

@[simp] theorem received_append (seen more : Sightings) :
    (seen ++ more).received = seen.received ++ more.received := bodies_append _ _

end Sightings

/-- What can happen to a desk in one go. -/
inductive Desk.Move where
  /-- Something happens to the connection or to a call. -/
  | traffic (m : Rpc.Move)
  /-- A sender gets to the refusal at this place. -/
  | answer (place : Nat)

/-- Whether a move leaves it to the writer to take everything. -/
def Desk.Move.sparesWriter : Desk.Move → Bool
  | .traffic (.limit left) => left.isNone
  | _ => true

/-- The refusals that fall due in a move. -/
def Traffic.refusals (σ : Traffic) : Move → List Bytes
  | .read => (σ.effects .read).filterMap Effect.frame?
  | _ => []

namespace Desk

def opened (hasCloser : Bool) : Desk := { traffic := .opened hasCloser }

/-- What a move leads to, and what is seen of it; `none` if it cannot be made. -/
def step? (d : Desk) : Desk.Move → Option (Desk × Sightings)
  | .traffic m =>
    (d.traffic.step? m).map fun (τ, notes) =>
      (⟨τ, d.due ++ d.traffic.refusals m⟩,
        { notes, handled := (d.traffic.effects m).filterMap Effect.handled? })
  | .answer place =>
    d.due[place]?.map fun frame => ({ d with due := d.due.eraseIdx place }, { refused := [frame] })

def play? : List Desk.Move → Desk → Option (Desk × Sightings)
  | [], d => some (d, {})
  | m :: ms, d =>
    (d.step? m).bind fun (e, seen) => (play? ms e).map fun (f, more) => (f, seen ++ more)

theorem play?_cons_eq_some {m : Desk.Move} {ms : List Desk.Move} {d f : Desk} {all : Sightings} :
    play? (m :: ms) d = some (f, all) ↔ ∃ e seen more,
      d.step? m = some (e, seen) ∧ play? ms e = some (f, more) ∧ all = seen ++ more := by
  constructor
  · intro h
    obtain ⟨⟨e, seen⟩, hm, h⟩ := Option.bind_eq_some_iff.mp h
    obtain ⟨⟨f', more⟩, hms, he⟩ := Option.map_eq_some_iff.mp h
    cases he
    exact ⟨e, seen, more, hm, hms, rfl⟩
  · rintro ⟨e, seen, more, hm, hms, rfl⟩
    simp only [play?, hm, Option.bind_some, hms, Option.map_some]

end Desk

/-! ### A writer that takes everything -/

namespace Connection

/-- A writer that takes every write. -/
def Writes (c : Connection) : Prop := c.writer.left = none

variable {c c' : Connection} {es : List Effect}

/-- A writer that takes everything takes a message as one frame. -/
theorem send_of_writes (h : c.Writes) (m : Outgoing) :
    c.send m = (c, [.wrote (Frame.encode m.bytes)], none) := by
  have hwrite : Frame.write c.writer m.bytes = ⟨c.writer, Frame.encode m.bytes, none⟩ := by
    have hleft : c.writer.left = none := h
    simp [Frame.write, Frame.Writer.write, hleft]
  have hne : (Frame.encode m.bytes).isEmpty = false := by simp [Frame.encode, Frame.header]
  simp [send, hwrite, hne]

/-- What sending leads to reaches no handler. -/
theorem handled_send (c : Connection) (m : Outgoing) : (c.send m).2.1.filterMap Effect.handled? = [] := by
  simp only [send]
  split <;> rfl

theorem writes_shutdown (h : c.Writes) (reason : Option Error) : (c.shutdown reason).Writes := by
  unfold shutdown
  split <;> exact h

theorem writes_loopTop (h : c.Writes) : c.loopTop.Writes := by
  unfold loopTop
  split
  · exact writes_shutdown h _
  · split <;> exact h

theorem writes_deliver (h : c.Writes) (m : Message) : (c.deliver m).Writes := by
  obtain ⟨pending, waiting, hc⟩ := exists_deliver m c
  rw [hc]
  exact h

/-- A notification is sent like any message, or nothing is done. -/
theorem notify_cases (method : String) (params : Params) (abandoned : Option Condition) (c : Connection) :
    (∃ e, c.notify method params abandoned = (c, [], e)) ∨
      ∃ m, c.notify method params abandoned = c.send m := by
  unfold notify
  split
  · exact Or.inl ⟨_, rfl⟩
  · split
    · exact Or.inl ⟨_, rfl⟩
    · split
      · exact Or.inl ⟨_, rfl⟩
      · exact Or.inr ⟨_, rfl⟩

/-! ### What a message leads to -/

/-- What is seen of a round of the read loop that has received some bodies: a refusal for
each request, and calls of handlers with notifications at most. -/
structure Sees (received : List Bytes) (es : List Effect) : Prop where
  frames : es.filterMap Effect.frame? = (requests received).map Message.refusalFrame
  handled : (es.filterMap Effect.handled?).Sublist (notifications received)

/-- A request is refused and a notification handed on; nothing else can be seen of a message. -/
theorem dispatch_sees (h : c.Writes) {body : Bytes} {m : Message} (hparse : parse body = .ok m) :
    (c.dispatch m).1.Writes ∧ Sees [body] (c.dispatch m).2 := by
  have hmessages : messages [body] = [m] := by simp [messages, hparse, Except.toOption]
  -- Both facts are about the one message, which is parsed once.
  have hsees : ∀ es, es.filterMap Effect.frame? =
        ([m].filter (·.isRequest)).map Message.refusalFrame →
      (es.filterMap Effect.handled?).Sublist
        (([m].filter (·.isNotification)).map fun m => (m.method, m.params)) → Sees [body] es := by
    intro es hframes hhandled
    constructor
    · rw [hframes, requests, hmessages]
    · rwa [notifications, hmessages]
  cases hk : m.kind <;> simp only [dispatch, hk]
  case response | error =>
    refine ⟨writes_deliver h m, hsees _ ?_ ?_⟩ <;>
      simp [Message.isRequest, Message.isNotification, hk]
  case notification =>
    cases c.handlerFor m.method with
    | none =>
        refine ⟨h, hsees _ ?_ ?_⟩ <;> simp [Message.isRequest, hk]
    | some label =>
        refine ⟨h, hsees _ ?_ ?_⟩ <;>
          simp [Message.isRequest, Message.isNotification, hk, Effect.frame?, Effect.handled?]
  -- A request is refused, whatever its method.
  case request =>
    rw [send_of_writes h]
    refine ⟨h, hsees _ ?_ ?_⟩
    · simp [Message.isRequest, hk, Effect.frame?, Message.refusalFrame, Message.refusal]
    · exact List.nil_sublist _

/-- **What a round of the read loop leads to**: the refusal of the request it received, or
a call of the handler for the notification it received. -/
theorem readStep_sees (h : c.Writes) (hstep : c.readStep = some (c', es)) :
    c'.Writes ∧ Sees c.frame?.toList es := by
  have hconsume : c.consume.Writes := h
  have hnothing : Sees [] [] := ⟨rfl, List.Sublist.refl _⟩
  cases readStep_round hstep with
  | skipped read =>
      rw [frame?_of_error read]
      exact ⟨writes_loopTop hconsume, hnothing⟩
  | broken read =>
      rw [frame?_of_error read]
      exact ⟨writes_shutdown hconsume _, hnothing⟩
  | @unparsed body e read parsed =>
      have hmessages : messages [body] = [] := by simp [messages, parsed, Except.toOption]
      rw [frame?_of_ok read]
      refine ⟨writes_loopTop hconsume, ?_, ?_⟩
      · rw [Option.toList_some, requests, hmessages]
        rfl
      · exact List.nil_sublist _
  | @acted body m read parsed =>
      rw [frame?_of_ok read]
      obtain ⟨hwrites, hsees⟩ := dispatch_sees hconsume parsed
      exact ⟨writes_loopTop hwrites, hsees⟩

end Connection

/-! ### What a move leads to -/

/-- Whether a move is a round of the read loop. -/
def Move.reads : Move → Bool
  | .read => true
  | _ => false

namespace Traffic

variable {σ τ : Traffic} {m : Move} {notes : List Note}

/-- The writer takes everything for as long as nobody limits it. -/
theorem writes_of_step? (h : σ.step? m = some (τ, notes)) (hσ : σ.connection.Writes)
    (hm : (Desk.Move.traffic m).sparesWriter = true) : τ.connection.Writes := by
  cases m with
  | send id method params =>
      obtain ⟨w, -, h⟩ := Option.bind_eq_some_iff.mp h
      split at h
      · split at h
        · cases h
          exact hσ
        · rw [Connection.send_of_writes hσ] at h
          cases h
          exact hσ
      · cases h
  | wake id choice =>
      obtain ⟨w, -, h⟩ := Option.bind_eq_some_iff.mp h
      split at h
      · cases h
      · obtain ⟨o, -, he⟩ := Option.map_eq_some_iff.mp h
        cases he
        exact hσ
  | leave id =>
      obtain ⟨p, -, he⟩ := Option.map_eq_some_iff.mp h
      cases he
      exact hσ
  | read =>
      obtain ⟨⟨c, es⟩, hc, he⟩ := Option.map_eq_some_iff.mp h
      cases he
      exact (Connection.readStep_sees hσ hc).1
  | close =>
      cases h
      exact Connection.writes_shutdown hσ none
  | notify method params abandoned =>
      cases h
      show (σ.connection.notify method params abandoned).1.Writes
      rcases Connection.notify_cases method params abandoned σ.connection with ⟨e, he⟩ | ⟨m, hm⟩
      · rwa [he]
      · rwa [hm, Connection.send_of_writes hσ]
  -- A limit is set only if it is no limit.
  | limit left =>
      cases h
      exact Option.isNone_iff_eq_none.mp hm
  | _ =>
      cases h
      exact hσ

/-- Nothing is received where nothing is read. -/
theorem bodies_of_step? (h : σ.step? m = some (τ, notes)) (hm : m.reads = false) : bodies notes = [] := by
  cases takes_of_step? h with
  | round read => cases hm
  | _ => rfl

/-- No handler is called where nothing is read. -/
theorem handled_effects (σ : Traffic) (hm : m.reads = false) :
    (σ.effects m).filterMap Effect.handled? = [] := by
  cases m with
  | read => cases hm
  | send id method params =>
      simp only [effects]
      split
      · split
        · exact Connection.handled_send _ _
        · rfl
      · rfl
  | leave id =>
      simp only [effects]
      cases σ.leaving.find? (·.1 == id) <;> rfl
  | notify method params abandoned =>
      rw [effects]
      rcases Connection.notify_cases method params abandoned σ.connection with ⟨e, he⟩ | ⟨m, hm⟩
      · rw [he]
        rfl
      · rw [hm]
        exact Connection.handled_send _ _
  | _ => rfl

/-- What is seen of a move. -/
theorem sees_of_step? (h : σ.step? m = some (τ, notes)) (hσ : σ.connection.Writes) :
    σ.refusals m = (requests (bodies notes)).map Message.refusalFrame ∧
      ((σ.effects m).filterMap Effect.handled?).Sublist (notifications (bodies notes)) := by
  cases hreads : m.reads with
  | false =>
      have hrefusals : σ.refusals m = [] := by
        cases m with
        | read => cases hreads
        | _ => rfl
      rw [bodies_of_step? h hreads, handled_effects σ hreads, hrefusals]
      exact ⟨rfl, List.Sublist.refl _⟩
  -- One round reads at most one frame, and acts on it.
  | true =>
      obtain rfl : m = .read := by
        cases m with
        | read => rfl
        | _ => cases hreads
      obtain ⟨⟨c, es⟩, hc, he⟩ := Option.map_eq_some_iff.mp h
      cases he
      have hbodies : bodies (σ.connection.frame?.toList.map .received) = σ.connection.frame?.toList := by
        cases σ.connection.frame? <;> rfl
      have heffects : σ.effects .read = es := by
        rw [effects, hc]
        rfl
      obtain ⟨-, hframes, hhandled⟩ := Connection.readStep_sees hσ hc
      rw [hbodies, refusals, heffects]
      exact ⟨hframes, hhandled⟩

end Traffic

namespace Desk

/-- What is seen between two states of a desk: refusals fall due for the requests that
were received and are written from among those that are due, and handlers are called with
notifications that were received. -/
structure Adds (d e : Desk) (seen : Sightings) : Prop where
  writes : e.traffic.connection.Writes
  refusals : (seen.refused ++ e.due).Perm (d.due ++ (requests seen.received).map Message.refusalFrame)
  handled : seen.handled.Sublist (notifications seen.received)

theorem Adds.trans {d e f : Desk} {seen more : Sightings} (h : Adds d e seen) (h' : Adds e f more) :
    Adds d f (seen ++ more) where
  writes := h'.writes
  refusals := by
    -- what was due in between has been written since, or is due still
    have hlater := h'.refusals.append_left seen.refused
    have hearlier := h.refusals.append_right ((requests more.received).map Message.refusalFrame)
    rw [← List.append_assoc, ← List.append_assoc] at hlater
    rw [Sightings.received_append, Sightings.refused_append, requests_append, List.map_append,
      ← List.append_assoc]
    exact hlater.trans hearlier
  handled := by
    rw [Sightings.received_append, notifications_append]
    exact h.handled.append h'.handled

/-- **What a move adds.** -/
theorem step?_adds {d e : Desk} {m : Desk.Move} {seen : Sightings} (h : d.step? m = some (e, seen))
    (hd : d.traffic.connection.Writes) (hm : m.sparesWriter = true) : Adds d e seen := by
  cases m with
  | answer place =>
      obtain ⟨frame, hframe, he⟩ := Option.map_eq_some_iff.mp h
      cases he
      obtain ⟨hplace, rfl⟩ := List.getElem?_eq_some_iff.mp hframe
      refine ⟨hd, ?_, List.Sublist.refl _⟩
      show (d.due[place] :: d.due.eraseIdx place).Perm (d.due ++ [])
      rw [List.append_nil]
      exact List.getElem_cons_eraseIdx_perm hplace
  | traffic m =>
      obtain ⟨⟨τ, notes⟩, hstep, he⟩ := Option.map_eq_some_iff.mp h
      cases he
      have hwrites := Traffic.writes_of_step? hstep hd hm
      obtain ⟨hrefusals, hhandled⟩ := Traffic.sees_of_step? hstep hd
      refine ⟨hwrites, ?_, hhandled⟩
      show (d.due ++ d.traffic.refusals m).Perm (d.due ++ (requests (bodies notes)).map Message.refusalFrame)
      rw [hrefusals]

/-- **What a run adds.** -/
theorem play?_adds {ms : List Desk.Move} {d e : Desk} {seen : Sightings} (h : play? ms d = some (e, seen))
    (hd : d.traffic.connection.Writes) (hms : ∀ m ∈ ms, m.sparesWriter = true) : Adds d e seen := by
  induction ms generalizing d seen with
  | nil =>
      obtain ⟨rfl, rfl⟩ := Prod.mk.inj (Option.some.inj h)
      refine ⟨hd, ?_, List.Sublist.refl _⟩
      show d.due.Perm (d.due ++ [])
      rw [List.append_nil]
  | cons m ms ih =>
      obtain ⟨hm, hms⟩ := List.forall_mem_cons.mp hms
      obtain ⟨f, first, more, hstep, hplay, rfl⟩ := play?_cons_eq_some.mp h
      have hadds := step?_adds hstep hd hm
      exact hadds.trans (ih hplay hadds.writes hms)

/-- The connection of a desk is at work like any other. -/
theorem exists_traffic {ms : List Desk.Move} {d e : Desk} {seen : Sightings}
    (h : play? ms d = some (e, seen)) :
    ∃ moves, Traffic.play? moves d.traffic = some (e.traffic, seen.notes) := by
  induction ms generalizing d seen with
  | nil =>
      cases h
      exact ⟨[], rfl⟩
  | cons m ms ih =>
      obtain ⟨f, first, more, hstep, hplay, rfl⟩ := play?_cons_eq_some.mp h
      obtain ⟨moves, hmoves⟩ := ih hplay
      cases m with
      | answer place =>
          obtain ⟨frame, -, he⟩ := Option.map_eq_some_iff.mp hstep
          cases he
          exact ⟨moves, hmoves⟩
      | traffic m =>
          obtain ⟨⟨τ, notes⟩, hm, he⟩ := Option.map_eq_some_iff.mp hstep
          cases he
          refine ⟨m :: moves, ?_⟩
          simp only [Traffic.play?, hm, Option.bind_some, hmoves, Option.map_some]
          rfl

/-- Senders can always write what is due, one after the other. -/
theorem play?_answers (d : Desk) : play? (List.replicate d.due.length (.answer 0)) d =
    some ({ d with due := [] }, { refused := d.due }) := by
  obtain ⟨σ, due⟩ := d
  induction due with
  | nil => rfl
  | cons frame due ih =>
      have hstep : step? ⟨σ, frame :: due⟩ (.answer 0) = some (⟨σ, due⟩, { refused := [frame] }) := rfl
      rw [List.length_cons, List.replicate_succ]
      exact play?_cons_eq_some.mpr ⟨_, _, _, hstep, ih, rfl⟩

end Desk

/-! ### Requests -/

/-- **The refusal of a request is read as an error for its id**, which is sent back in
compact form and is the same value. -/
theorem refusal_read_back {body : Bytes} {m : Message} (hparse : parse body = .ok m)
    (hrequest : m.kind = .request) :
    ∃ id ts ts' answer, m.id = some id ∧ Json.parse? (some memberDepth) id = some ts ∧
      parse m.refusal.bytes = .ok answer ∧ answer.kind = .error ∧
      answer.error = some { code := -32601, message := "method not found: " ++ m.method } ∧
      answer.id = some (Json.compact ts) ∧
      Json.parse? (some memberDepth) (Json.compact ts) = some ts' ∧ Json.SameValue ts ts' := by
  obtain ⟨read, kind, -, -, hkind, rfl⟩ := parse_eq_ok_iff.mp hparse
  -- A request is a message with an id.
  obtain ⟨id, hid⟩ : ∃ id, presentId read.id = some id := by
    obtain rfl : kind = .request := hrequest
    apply Option.isSome_iff_exists.mp
    rw [classify] at hkind
    grind
  -- The id stands in the refusal as it stood in the request, compacted.
  obtain ⟨hfragment, hne⟩ := isFragment_id hparse id hid
  obtain ⟨ts, htokens, -, hspells, -⟩ := hfragment.exists_tokens
  have hrefusal : (read.message kind body).refusal = .refusal id read.method := by
    show Outgoing.refusal ((presentId read.id).getD []) read.method = _
    rw [hid]
    rfl
  refine ⟨id, ts, ts.map Json.Token.squeeze, refused id read.method, hid, htokens, ?_, rfl, rfl, ?_,
    Json.parse?_compact htokens, Json.sameValue_squeeze hspells⟩
  · rw [hrefusal]
    exact parse_refusal hfragment hne read.method
  · exact congrArg some (echo_eq_compact htokens)

/-- **A request reaches no handler and no call.** -/
theorem request_reaches_nobody {σ τ : Traffic} {notes : List Note} {body : Bytes} {m : Message}
    (hstep : σ.step? .read = some (τ, notes)) (hframe : σ.connection.frame? = some body)
    (hparse : parse body = .ok m) (hrequest : m.kind = .request) :
    (σ.effects .read).filterMap Effect.handled? = [] ∧ σ.connection.SameCalls τ.connection ∧
      τ.leaving = σ.leaving := by
  obtain ⟨⟨c, es⟩, hc, he⟩ := Option.map_eq_some_iff.mp hstep
  cases he
  have hunheard : es.filterMap Effect.handled? = [] := by
    cases Connection.readStep_round hc with
    | @acted body' m' read parsed =>
        cases (Connection.frame?_of_ok read).symm.trans hframe
        cases parsed.symm.trans hparse
        simp only [Connection.dispatch, hrequest]
        exact Connection.handled_send _ _
    | _ => rfl
  refine ⟨?_, ?_, rfl⟩
  · simp only [Traffic.effects, hc, Option.map_some, Option.getD_some, hunheard]
  · rcases Connection.readStep_calls hc with ⟨body', m', id, hframe', hparse', hexpects, -⟩ | ⟨hsame, -⟩
    · cases hframe.symm.trans hframe'
      cases hparse.symm.trans hparse'
      have hresponse := hexpects.1
      simp [Message.isResponse, hrequest] at hresponse
    · exact hsame

/-- **Every request is refused once, with its own id.** Whatever is received, by a
connection that is free to write, and whenever the senders of refusals get to them: the
refusals that were written and those that are due are one for each request that was
received, and what is due can be written. Each is read as an error for the id of its
request, as a value the same one. Handlers are called with notifications that were
received, in their order, and calls return with responses. A request leaves the calls as
they are, even one that is expected under the same id. -/
theorem requests_refused_once {hasCloser : Bool} {ms : List Desk.Move} {d : Desk} {seen : Sightings}
    (h : Desk.play? ms (.opened hasCloser) = some (d, seen)) (hms : ∀ m ∈ ms, m.sparesWriter = true) :
    (seen.refused ++ d.due).Perm ((requests seen.received).map fun m => Frame.encode m.refusal.bytes) ∧
    Desk.play? (List.replicate d.due.length (.answer 0)) d =
      some ({ d with due := [] }, { refused := d.due }) ∧
    (∀ m ∈ requests seen.received, ∃ id ts ts' answer,
      m.id = some id ∧ Json.parse? (some memberDepth) id = some ts ∧
      parse m.refusal.bytes = .ok answer ∧ answer.kind = .error ∧
      answer.error = some { code := -32601, message := "method not found: " ++ m.method } ∧
      answer.id = some (Json.compact ts) ∧
      Json.parse? (some memberDepth) (Json.compact ts) = some ts' ∧ Json.SameValue ts ts') ∧
    seen.handled.Sublist (notifications seen.received) ∧
    (∀ id m, .returned id (.response m) ∈ seen.notes → m.isResponse = true) ∧
    ∀ τ notes body m, d.traffic.step? .read = some (τ, notes) →
      d.traffic.connection.frame? = some body → parse body = .ok m → m.kind = .request →
      (d.traffic.effects .read).filterMap Effect.handled? = [] ∧
        d.traffic.connection.SameCalls τ.connection ∧ τ.leaving = d.traffic.leaving := by
  -- What the run adds up to, and that its calls are kept in order.
  have hadds := Desk.play?_adds h rfl hms
  obtain ⟨moves, hmoves⟩ := Desk.exists_traffic h
  have hcalls : Invariant d.traffic.books seen.notes := invariant_of_opened hmoves
  refine ⟨hadds.refusals, Desk.play?_answers d, ?_, hadds.handled, ?_, ?_⟩
  · intro m hm
    obtain ⟨⟨body, -, hparse⟩, hrequest⟩ := mem_requests.mp hm
    exact refusal_read_back hparse hrequest
  · intro id m hreturned
    obtain ⟨before, after, hsplit⟩ := List.append_of_mem hreturned
    obtain ⟨-, body, -, -, ⟨-, -, hresponse, -⟩, -⟩ := hcalls.returns before after id (.response m) hsplit
    exact hresponse
  · intro τ notes body m hstep hframe hparse hrequest
    exact request_reaches_nobody hstep hframe hparse hrequest

/-- A peer makes a request under the id of a call that waits, and one whose id is a list
with a number that is too large for any number type, and sends a notification. The second
request is refused first. -/
def clashingMoves : List Desk.Move := [
  .traffic (.handle "*" (some "all")), .traffic (.begin none), .traffic (.send 1 "initialize" .absent),
  .traffic (.arrive (Frame.encode (utf8 "\x7b\"jsonrpc\":\"2.0\",\"id\":1,\"method\":\"m\"\x7d"))),
  .traffic .read,
  .traffic (.arrive (Frame.encode
    (utf8 "\x7b\"jsonrpc\":\"2.0\",\"id\":[1e999, \"<\"],\"method\":\"m\"\x7d"))),
  .traffic (.arrive statusFrame), .traffic .read, .traffic .read, .answer 1]

theorem clashingMoves_played :
    ∃ p, Desk.play? clashingMoves (.opened true) = some p ∧
      ((requests p.2.received).map (·.id), p.1.traffic.connection.pending, p.2.refused.length) =
        ([some (utf8 "1"), some (utf8 "[1e999, \"<\"]")], [1], 1) :=
  Option.map_eq_some_iff.mp (by decide +kernel)

/-- Requests are refused also when their ids clash with that of a pending call, which stays pending. -/
theorem clashing_requests_refused :
    ∃ d seen, Desk.play? clashingMoves (.opened true) = some (d, seen) ∧
      (∀ m ∈ clashingMoves, m.sparesWriter = true) ∧
      (requests seen.received).map (·.id) = [some (utf8 "1"), some (utf8 "[1e999, \"<\"]")] ∧
      d.traffic.connection.pending = [1] ∧ seen.refused.length = 1 ∧
      (seen.refused ++ d.due).Perm ((requests seen.received).map fun m => Frame.encode m.refusal.bytes) ∧
      ∀ m ∈ requests seen.received, ∃ ts answer, parse m.refusal.bytes = .ok answer ∧
        answer.kind = .error ∧ answer.id = some (Json.compact ts) := by
  obtain ⟨⟨d, seen⟩, hplay, hfacts⟩ := clashingMoves_played
  obtain ⟨hids, hfacts⟩ := Prod.mk.inj hfacts
  obtain ⟨hpending, hlength⟩ := Prod.mk.inj hfacts
  have hwriter : ∀ m ∈ clashingMoves, m.sparesWriter = true := by decide
  obtain ⟨hrefused, -, hanswers, -⟩ := requests_refused_once hplay hwriter
  refine ⟨d, seen, hplay, hwriter, hids, hpending, hlength, hrefused, ?_⟩
  intro m hm
  obtain ⟨_, ts, _, answer, -, -, hparse, hkind, -, hid, -⟩ := hanswers m hm
  exact ⟨ts, answer, hparse, hkind, hid⟩

end LanguageClient.Rpc
