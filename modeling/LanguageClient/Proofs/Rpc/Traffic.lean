import LanguageClient.Rpc.Connection

/-! # A connection at work.

Many callers share a connection with its read loop, and none of them waits for
the others. `Traffic` is a connection together with the calls that are on their
way in or out, a `Move` is what one of them, the peer or the owner of the
connection does in one go, and `play?` makes moves in any order. A call takes
several moves: it gets its id and is expected, it sends its request, it finds
out how it ends, and it is no longer expected and returns. `paced?` lets everything
settle before somebody does something again.

What can happen to the calls is said once, in `Shift`, in terms of the `Books`
that are kept on them; every move does one of these things (`step?_shifts`). -/

namespace LanguageClient.Rpc

/-- A connection, and the calls that are between two steps of their own. -/
structure Traffic where
  connection : Connection := {}
  /-- The calls that have an id and have not tried to send their request. -/
  unsent : List Nat := []
  /-- The calls that know how they end and have not returned. -/
  leaving : List (Nat × Outcome) := []

/-- What is noted while a connection works, in the order in which it happens. -/
inductive Note where
  /-- A call got its id. -/
  | began (id : Nat)
  /-- The read loop took the frame with this body off the stream. -/
  | received (body : Bytes)
  /-- A call returned. -/
  | returned (id : Nat) (outcome : Outcome)

/-- What can happen to a connection in one go. -/
inductive Move where
  /-- Somebody makes a call, and may have given up already. The connection may
  have been closed after the caller looked. -/
  | begin (abandoned : Option Condition)
  /-- A call tries to send its request. -/
  | send (id : Nat) (method : String) (params : Params)
  /-- A call that waits finds out how it ends: in the `choice`th of the ways in
  which it may return now. -/
  | wake (id choice : Nat)
  /-- A call is no longer expected to be answered and returns. -/
  | leave (id : Nat)
  /-- The caller of a waiting call gives up. -/
  | abandon (id : Nat) (why : Condition)
  /-- The read loop makes one round. -/
  | read
  /-- Octets arrive. -/
  | arrive (bytes : Bytes)
  /-- The stream ends. -/
  | hangup
  /-- The read loop is asked to end. -/
  | cancelLoop
  /-- The connection is closed by request. -/
  | close
  | handle (method : String) (h : Handler)
  | notify (method : String) (params : Params) (abandoned : Option Condition)
  /-- The peer takes so many more writes, or all of them. -/
  | limit (left : Option Nat)

namespace Connection

/-- The body of the frame that stands at the front of the stream. -/
def frame? (c : Connection) : Option Bytes := (Frame.read c.stream).outcome.toOption

/-- The connection once what stands at the front of the stream has been read. -/
def consume (c : Connection) : Connection := { c with stream := (Frame.read c.stream).rest }

/-- The calls that wait, each with the response it was given. -/
def calls (c : Connection) : List (Nat × Option Message) := c.waiting.map fun w => (w.id, w.response)

/-- The call with an id, if it waits. -/
def call? (c : Connection) (id : Nat) : Option Waiting := c.waiting.find? (·.id == id)

end Connection

namespace Traffic

/-- Something happens to the connection alone. -/
def change (f : Connection → Connection) (σ : Traffic) : Traffic :=
  { σ with connection := f σ.connection }

/-- A call has found out how it ends. -/
def retire (id : Nat) (o : Outcome) (σ : Traffic) : Traffic where
  connection := { σ.connection with waiting := σ.connection.waiting.filter (·.id != id) }
  unsent := σ.unsent.filter (· != id)
  leaving := σ.leaving ++ [(id, o)]

/-- The error of a call whose request could not be sent. -/
def sendFailure (method : String) (e : Error) : Outcome := .failed (.context ("send " ++ method) e)

/-- What a move leads to and what is noted of it; `none` if it cannot be made. -/
def step? (σ : Traffic) : Move → Option (Traffic × List Note)
  | .begin abandoned =>
    let id := σ.connection.issued + 1
    some ({ σ with
        connection := { σ.connection with
          issued := id, pending := σ.connection.pending ++ [id]
          waiting := σ.connection.waiting ++ [{ id, abandoned }] }
        unsent := σ.unsent ++ [id] }, [.began id])
  | .send id method params =>
    (σ.connection.call? id).bind fun _ =>
      if σ.unsent.contains id then
        match params.encode with
        | .error e => some (σ.retire id (sendFailure method e), [])
        | .ok params =>
          let (c, _, failure) := σ.connection.send (.request id method params)
          match failure with
          | some e => some ({ σ with connection := c }.retire id (sendFailure method e), [])
          | none => some ({ σ with connection := c, unsent := σ.unsent.filter (· != id) }, [])
      else none
  | .wake id choice =>
    (σ.connection.call? id).bind fun w =>
      if σ.unsent.contains id then none
      else (σ.connection.ready w)[choice]?.map fun o => (σ.retire id o, [])
  | .leave id =>
    (σ.leaving.find? (·.1 == id)).map fun (_, o) =>
      ({ σ with
          connection := { σ.connection with pending := σ.connection.pending.filter (· != id) }
          leaving := σ.leaving.filter (·.1 != id) }, [.returned id o])
  | .read =>
    σ.connection.readStep.map fun (c, _) =>
      ({ σ with connection := c }, σ.connection.frame?.toList.map .received)
  | .abandon id why =>
    some (σ.change fun c => { c with
      waiting := c.waiting.map fun w => if w.id = id then { w with abandoned := some why } else w }, [])
  | .arrive bytes => some (σ.change fun c => { c with stream := c.stream ++ bytes }, [])
  | .hangup => some (σ.change fun c => { c with ended := true }, [])
  | .cancelLoop => some (σ.change Connection.cancelLoop, [])
  | .close => some (σ.change (Connection.shutdown none), [])
  | .handle method h => some (σ.change (Connection.handle method h), [])
  | .notify method params abandoned =>
    some (σ.change fun c => (c.notify method params abandoned).1, [])
  | .limit left => some (σ.change fun c => { c with writer := { c.writer with left } }, [])

def play? : List Move → Traffic → Option (Traffic × List Note)
  | [], σ => some (σ, [])
  | m :: ms, σ =>
    (σ.step? m).bind fun (τ, notes) => (play? ms τ).map fun (υ, more) => (υ, notes ++ more)

def opened (hasCloser : Bool) : Traffic := { connection := { hasCloser } }

/-- Nothing can move of itself: every call waits, and so does the read loop. -/
structure Settled (σ : Traffic) : Prop where
  unsent : σ.unsent = []
  leaving : σ.leaving = []
  reader : σ.connection.readStep = none
  calls : ∀ w ∈ σ.connection.waiting, σ.connection.ready w = []

theorem settled_iff (σ : Traffic) : σ.Settled ↔
    σ.unsent.isEmpty = true ∧ σ.leaving.isEmpty = true ∧ σ.connection.readStep.isNone = true ∧
      (σ.connection.waiting.all fun w => (σ.connection.ready w).isEmpty) = true := by
  simp only [List.isEmpty_iff, Option.isNone_iff_eq_none, List.all_eq_true]
  exact ⟨fun h => ⟨h.unsent, h.leaving, h.reader, h.calls⟩, fun ⟨hu, hl, hr, hc⟩ => ⟨hu, hl, hr, hc⟩⟩

instance (σ : Traffic) : Decidable σ.Settled := decidable_of_iff' _ (settled_iff σ)

end Traffic

/-! ### Runs that settle

Many things may happen at the same time in `play?`. In `paced?` whatever somebody does
is followed by what comes of it, in any order, until nothing can move. -/

/-- Whether a move is one that calls and the read loop make of themselves. -/
def Move.ofItself : Move → Bool
  | .send .. | .wake .. | .leave .. | .read => true
  | _ => false

def Move.begins : Move → Bool
  | .begin _ => true
  | _ => false

namespace Traffic

/-- A move comes of itself, or somebody makes it once everything has settled. A call on a
closed connection fails before it has an id, and so none begins there. -/
def Due (σ : Traffic) (m : Move) : Prop :=
  m.ofItself = true ∨ σ.Settled ∧ (m.begins = true → σ.connection.closed = false)

instance (σ : Traffic) (m : Move) : Decidable (σ.Due m) := inferInstanceAs (Decidable (_ ∨ _ ∧ _))

/-- Makes moves one after the other, each of which has to be due. -/
def paced? : List Move → Traffic → Option (Traffic × List Note)
  | [], σ => some (σ, [])
  | m :: ms, σ =>
    if σ.Due m then
      (σ.step? m).bind fun (τ, notes) => (paced? ms τ).map fun (υ, more) => (υ, notes ++ more)
    else none

theorem paced?_cons_eq_some {m : Move} {ms : List Move} {σ υ : Traffic} {notes : List Note} :
    paced? (m :: ms) σ = some (υ, notes) ↔ ∃ τ first rest,
      σ.Due m ∧ σ.step? m = some (τ, first) ∧ paced? ms τ = some (υ, rest) ∧
        notes = first ++ rest := by
  constructor
  · intro h
    obtain ⟨hdue, h⟩ := Option.ite_none_right_eq_some.mp h
    obtain ⟨⟨τ, first⟩, hm, h⟩ := Option.bind_eq_some_iff.mp h
    obtain ⟨⟨υ', rest⟩, hrest, he⟩ := Option.map_eq_some_iff.mp h
    cases he
    exact ⟨τ, first, rest, hdue, hm, hrest, rfl⟩
  · rintro ⟨τ, first, rest, hdue, hm, hrest, rfl⟩
    simp only [paced?, if_pos hdue, hm, Option.bind_some, hrest, Option.map_some]

/-- A paced run is a run. -/
theorem play?_of_paced? {moves : List Move} {σ τ : Traffic} {notes : List Note}
    (h : paced? moves σ = some (τ, notes)) : play? moves σ = some (τ, notes) := by
  induction moves generalizing σ notes with
  | nil => exact h
  | cons m moves ih =>
      obtain ⟨υ, first, rest, -, hm, hrest, rfl⟩ := paced?_cons_eq_some.mp h
      simp only [play?, hm, Option.bind_some, ih hrest, Option.map_some]

/-- What every move that is due keeps holds behind a run. -/
theorem paced?_preserves {P : Traffic → List Note → Prop}
    (step : ∀ {σ τ : Traffic} {m : Move} {notes new : List Note}, P σ notes → σ.Due m →
      σ.step? m = some (τ, new) → P τ (notes ++ new))
    {moves : List Move} {σ τ : Traffic} {notes new : List Note} (hσ : P σ notes)
    (h : paced? moves σ = some (τ, new)) : P τ (notes ++ new) := by
  induction moves generalizing σ notes new with
  | nil =>
      cases h
      rwa [List.append_nil]
  | cons m moves ih =>
      obtain ⟨υ, first, rest, hdue, hm, hrest, rfl⟩ := paced?_cons_eq_some.mp h
      rw [← List.append_assoc]
      exact ih (step hσ hdue hm) hrest

end Traffic

/-! ### The read loop -/

namespace Connection

/-- One state of a connection has the calls of another, unless it was closed in
between and expects none. -/
structure SameCalls (c c' : Connection) : Prop where
  issued : c'.issued = c.issued
  calls : c'.calls = c.calls
  pending : c'.pending = c.pending ∧ c'.closed = c.closed ∨ c'.pending = [] ∧ c'.closed = true

theorem SameCalls.refl (c : Connection) : SameCalls c c := ⟨rfl, rfl, Or.inl ⟨rfl, rfl⟩⟩

theorem SameCalls.trans {a b c : Connection} (h : SameCalls a b) (h' : SameCalls b c) :
    SameCalls a c where
  issued := h'.issued.trans h.issued
  calls := h'.calls.trans h.calls
  pending := by
    rcases h'.pending with ⟨hp, hc⟩ | hshut
    · rw [hp, hc]
      exact h.pending
    · exact Or.inr hshut

theorem shutdown_sameCalls (reason : Option Error) (c : Connection) :
    SameCalls c (c.shutdown reason) := by
  unfold shutdown
  split
  · exact SameCalls.refl c
  · exact ⟨rfl, rfl, Or.inr ⟨rfl, rfl⟩⟩

theorem loopTop_sameCalls (c : Connection) : SameCalls c c.loopTop := by
  unfold loopTop
  split
  · exact (c.shutdown_sameCalls _).trans ⟨rfl, rfl, Or.inl ⟨rfl, rfl⟩⟩
  · split
    · exact ⟨rfl, rfl, Or.inl ⟨rfl, rfl⟩⟩
    · exact SameCalls.refl c

/-- Whether a message answers a call that is expected to be answered. -/
def Expects (c : Connection) (m : Message) (id : Nat) : Prop :=
  m.isResponse = true ∧ m.intId = some (id : Int) ∧ id ∈ c.pending

/-- A response that nobody expects is dropped. -/
theorem deliver_unexpected {c : Connection} {m : Message}
    (h : ∀ id : Nat, m.intId = some (id : Int) → id ∉ c.pending) : c.deliver m = c := by
  unfold deliver
  split
  · rfl
  · next k hk =>
      split
      · next hany =>
          obtain ⟨id, hmem, hid⟩ := List.any_eq_true.mp hany
          rw [decide_eq_true_eq] at hid
          exact absurd hmem (h id (hid ▸ hk))
      · rfl

/-- A response that is expected goes to its call, which is expected no longer. -/
theorem deliver_expected {c : Connection} {m : Message} {id : Nat} (hid : m.intId = some (id : Int))
    (h : id ∈ c.pending) :
    c.deliver m = { c with
      pending := c.pending.filter (· != id)
      waiting := c.waiting.map fun w => if w.id = id then { w with response := some m } else w } := by
  have hany : (c.pending.any fun p => (p : Int) = (id : Int)) = true := by
    rw [List.any_eq_true]
    exact ⟨id, h, by simp⟩
  have hfilter : (c.pending.filter fun p : Nat => (p : Int) ≠ (id : Int)) =
      c.pending.filter (· != id) := by
    apply List.filter_congr
    intro p _
    rw [Bool.eq_iff_iff, decide_eq_true_eq, bne_iff_ne, ne_eq, Int.natCast_inj]
  simp only [deliver, hid]
  rw [if_pos hany, hfilter]
  simp only [Int.natCast_inj]

/-- What does not answer a call changes no call. -/
theorem dispatch_sameCalls {c : Connection} {m : Message} (h : ∀ id, ¬ c.Expects m id) :
    SameCalls c (c.dispatch m).1 := by
  have hdeliver : m.isResponse = true → c.deliver m = c := by
    intro hm
    apply deliver_unexpected
    intro id hid hmem
    exact h id ⟨hm, hid, hmem⟩
  unfold dispatch
  split
  · next hk => rw [hdeliver (by simp [Message.isResponse, hk])]; exact SameCalls.refl c
  · next hk => rw [hdeliver (by simp [Message.isResponse, hk])]; exact SameCalls.refl c
  · split <;> exact SameCalls.refl c
  · exact ⟨rfl, rfl, Or.inl ⟨rfl, rfl⟩⟩

theorem dispatch_response {c : Connection} {m : Message} (h : m.isResponse = true) :
    c.dispatch m = (c.deliver m, []) := by
  unfold dispatch
  unfold Message.isResponse at h
  split <;> simp_all

/-- A response is handed over, and is expected no longer. -/
theorem exists_deliver (m : Message) (c : Connection) :
    ∃ pending waiting, c.deliver m = { c with pending := pending, waiting := waiting } := by
  unfold deliver
  split
  · exact ⟨c.pending, c.waiting, rfl⟩
  · split
    · exact ⟨_, _, rfl⟩
    · exact ⟨c.pending, c.waiting, rfl⟩

/-- Acting on a message has to do with the calls and with what is written, and with nothing else. -/
theorem exists_dispatch (m : Message) (c : Connection) :
    ∃ pending waiting writer,
      (c.dispatch m).1 = { c with pending := pending, waiting := waiting, writer := writer } := by
  obtain ⟨pending, waiting, hdeliver⟩ := exists_deliver m c
  have hresponse : c.deliver m = { c with pending := pending, waiting := waiting, writer := c.writer } :=
    hdeliver
  cases hk : m.kind <;> simp only [dispatch, hk]
  case response => exact ⟨_, _, _, hresponse⟩
  case error => exact ⟨_, _, _, hresponse⟩
  case request => exact ⟨c.pending, c.waiting, _, rfl⟩
  case notification => split <;> exact ⟨c.pending, c.waiting, c.writer, rfl⟩

theorem consume_sameCalls (c : Connection) : SameCalls c c.consume := ⟨rfl, rfl, Or.inl ⟨rfl, rfl⟩⟩

/-- What a round of the read loop can do. -/
inductive Round (c : Connection) : Connection → List Effect → Prop where
  /-- There is no body. -/
  | skipped (read : (Frame.read c.stream).outcome = .error .missingLength) :
      Round c c.consume.loopTop []
  /-- Nothing can be read any more. -/
  | broken {e : Frame.ReadError} (read : (Frame.read c.stream).outcome = .error e) :
      Round c { c.consume.shutdown (some e.toError) with loopDone := true } []
  /-- The body is no message. -/
  | unparsed {body : Bytes} {e : ParseError} (read : (Frame.read c.stream).outcome = .ok body)
      (parsed : parse body = .error e) : Round c c.consume.loopTop []
  /-- A message is acted on. -/
  | acted {body : Bytes} {m : Message} (read : (Frame.read c.stream).outcome = .ok body)
      (parsed : parse body = .ok m) :
      Round c (c.consume.dispatch m).1.loopTop (c.consume.dispatch m).2

/-- A round of the read loop is one of those there are. -/
theorem readStep_round {c c' : Connection} {es : List Effect} (h : c.readStep = some (c', es)) :
    Round c c' es := by
  unfold readStep at h
  split at h
  · cases h
  · simp only at h
    split at h
    · next e he =>
        split at h
        · cases h
        · split at h
          · next hmissing =>
              cases h
              exact .skipped (hmissing ▸ he)
          · cases h
            exact .broken he
    · next body hbody =>
        split at h
        · next e he =>
            cases h
            exact .unparsed hbody he
        · next m hm =>
            cases h
            exact .acted hbody hm

theorem frame?_of_ok {c : Connection} {body : Bytes}
    (h : (Frame.read c.stream).outcome = .ok body) : c.frame? = some body := by
  rw [frame?, h]
  rfl

theorem frame?_of_error {c : Connection} {e : Frame.ReadError}
    (h : (Frame.read c.stream).outcome = .error e) : c.frame? = none := by
  rw [frame?, h]
  rfl

/-- **What a round of the read loop does to the calls.** Either it takes the
response to a call off the stream and hands it over, or it changes no call. -/
theorem readStep_calls {c c' : Connection} {es : List Effect} (h : c.readStep = some (c', es)) :
    (∃ body m id, c.frame? = some body ∧ parse body = .ok m ∧ c.Expects m id ∧
        SameCalls (c.deliver m) c') ∨
      (SameCalls c c' ∧ ∀ body m id, c.frame? = some body → parse body = .ok m → ¬ c.Expects m id) := by
  cases readStep_round h with
  | skipped read =>
      refine Or.inr ⟨c.consume_sameCalls.trans (loopTop_sameCalls _), ?_⟩
      simp [frame?_of_error read]
  | @broken e read =>
      have hshut := c.consume_sameCalls.trans (shutdown_sameCalls (some e.toError) _)
      refine Or.inr ⟨⟨hshut.issued, hshut.calls, hshut.pending⟩, ?_⟩
      simp [frame?_of_error read]
  | unparsed read parsed =>
      refine Or.inr ⟨c.consume_sameCalls.trans (loopTop_sameCalls _), ?_⟩
      intro body m id hf hm
      cases (frame?_of_ok read).symm.trans hf
      cases parsed.symm.trans hm
  | @acted body m read parsed =>
      -- A response nobody waits for changes no call, like everything that is no response.
      by_cases hex : ∃ id, c.Expects m id
      · obtain ⟨id, hresp, hid, hmem⟩ := hex
        refine Or.inl ⟨body, m, id, frame?_of_ok read, parsed, ⟨hresp, hid, hmem⟩, ?_⟩
        have hlater : SameCalls (c.deliver m) (c.consume.deliver m) := by
          rw [deliver_expected hid hmem, deliver_expected (c := c.consume) hid hmem]
          exact ⟨rfl, rfl, Or.inl ⟨rfl, rfl⟩⟩
        rw [dispatch_response hresp]
        exact hlater.trans (loopTop_sameCalls _)
      · have hno : ∀ id, ¬ c.Expects m id := fun id hid => hex ⟨id, hid⟩
        refine Or.inr ⟨?_, ?_⟩
        · exact (c.consume_sameCalls.trans (dispatch_sameCalls (c := c.consume) hno)).trans
            (loopTop_sameCalls _)
        · intro body' m' id hf hm'
          cases (frame?_of_ok read).symm.trans hf
          cases parsed.symm.trans hm'
          exact hno id

/-- Calls are left out of the list by their id. -/
theorem calls_filter (id : Nat) (c : Connection) :
    { c with waiting := c.waiting.filter (·.id != id) }.calls = c.calls.filter (·.1 != id) := by
  rw [calls, calls, List.filter_map]
  rfl

theorem call?_eq_some {c : Connection} {id : Nat} {w : Waiting} (h : c.call? id = some w) :
    w ∈ c.waiting ∧ w.id = id :=
  ⟨List.mem_of_find?_eq_some h, by simpa using List.find?_some h⟩

theorem send_sameCalls (m : Outgoing) (c : Connection) : SameCalls c (c.send m).1 :=
  ⟨rfl, rfl, Or.inl ⟨rfl, rfl⟩⟩

theorem notify_sameCalls (method : String) (params : Params) (abandoned : Option Condition)
    (c : Connection) : SameCalls c (c.notify method params abandoned).1 := by
  unfold notify
  split
  · exact SameCalls.refl c
  · split
    · exact SameCalls.refl c
    · split
      · exact SameCalls.refl c
      · exact c.send_sameCalls _

end Connection

/-! ### What a move does to the calls -/

/-- An error of a call that no response has caused. -/
inductive Unanswered : Error → Prop where
  | condition (c : Condition) : Unanswered (.condition c)
  | send (method : String) (e : Error) : Unanswered (.context ("send " ++ method) e)

/-- A way in which a call may end: by itself, or with the response it was given. -/
inductive Ends : Option Message → Outcome → Prop where
  | failed {given : Option Message} {e : Error} (h : Unanswered e) : Ends given (.failed e)
  | response (m : Message) : Ends (some m) (.response m)

/-- What a call can return fits the response it was given. -/
theorem ends_of_mem_ready {c : Connection} {w : Waiting} {o : Outcome} (h : o ∈ c.ready w) :
    Ends w.response o := by
  unfold Connection.ready at h
  rcases List.mem_append.mp h with h | h
  · rcases List.mem_append.mp h with h | h
    · obtain ⟨m, hm, rfl⟩ := List.mem_map.mp h
      rw [Option.mem_toList.mp hm]
      exact .response m
    · obtain ⟨e, _, rfl⟩ := List.mem_map.mp h
      exact .failed (.condition e)
  · split at h
    · rw [List.mem_singleton.mp h]
      exact .failed (.condition _)
    · cases h

/-- A call goes on waiting as long as nothing has happened to it. -/
theorem Connection.ready_eq_nil {c : Connection} {w : Waiting} :
    c.ready w = [] ↔ w.abandoned = none ∧ c.closed = false ∧ w.response = none := by
  simp [ready, and_assoc, and_comm, and_left_comm]

/-- What is known of the calls on a connection. -/
structure Books where
  /-- How many ids were given out. -/
  issued : Nat := 0
  /-- The calls that wait, each with the response it was given. -/
  calls : List (Nat × Option Message) := []
  /-- The ids whose response is still expected. -/
  pending : List Nat := []
  closed : Bool := false
  /-- The calls that know how they end and have not returned. -/
  leaving : List (Nat × Outcome) := []

/-- The calls of a connection, with those on their way out. -/
def Connection.books (c : Connection) (leaving : List (Nat × Outcome)) : Books :=
  ⟨c.issued, c.calls, c.pending, c.closed, leaving⟩

def Traffic.books (σ : Traffic) : Books := σ.connection.books σ.leaving

/-- What can happen to the calls in one go, with what is noted of it. -/
inductive Shift (b : Books) : List Note → Books → Prop where
  | quiet : Shift b [] b
  /-- The connection is closed, and nothing is expected any more. -/
  | shut : Shift b [] { b with pending := [], closed := true }
  /-- A frame is read that answers no call that is expected. -/
  | ignored {body : Bytes}
      (unexpected : ∀ (m : Message) (id : Nat), parse body = .ok m → m.isResponse = true →
        m.intId = some (id : Int) → id ∉ b.pending) : Shift b [.received body] b
  /-- A frame answers a call. -/
  | answered {body : Bytes} {m : Message} {id : Nat} (read : parse body = .ok m)
      (response : m.isResponse = true) (named : m.intId = some (id : Int))
      (expected : id ∈ b.pending) :
      Shift b [.received body] { b with
        pending := b.pending.filter (· != id)
        calls := b.calls.map fun p => if p.1 = id then (p.1, some m) else p }
  /-- A call begins. -/
  | began :
      Shift b [.began (b.issued + 1)] { b with
        issued := b.issued + 1
        pending := b.pending ++ [b.issued + 1]
        calls := b.calls ++ [(b.issued + 1, none)] }
  /-- A call has found out how it ends. -/
  | retired {id : Nat} {given : Option Message} {o : Outcome} (here : (id, given) ∈ b.calls)
      (ends : Ends given o) :
      Shift b [] { b with
        calls := b.calls.filter (·.1 != id)
        leaving := b.leaving ++ [(id, o)] }
  /-- A call returns. -/
  | returned {id : Nat} {o : Outcome} (here : (id, o) ∈ b.leaving) :
      Shift b [.returned id o] { b with
        pending := b.pending.filter (· != id)
        leaving := b.leaving.filter (·.1 != id) }

/-- A connection with the same calls has the same books. -/
theorem Connection.SameCalls.shift {c c' : Connection} (h : c.SameCalls c')
    (leaving : List (Nat × Outcome)) : Shift (c.books leaving) [] (c'.books leaving) := by
  rcases h.pending with ⟨hp, hc⟩ | ⟨hp, hc⟩
  · have he : c'.books leaving = c.books leaving := by
      simp only [books, h.issued, h.calls, hp, hc]
    rw [he]
    exact .quiet
  · have he : c'.books leaving = { c.books leaving with pending := [], closed := true } := by
      simp only [books, h.issued, h.calls, hp, hc]
    rw [he]
    exact .shut

/-- A response that is expected goes into the books. -/
theorem Connection.books_deliver {c : Connection} {m : Message} {id : Nat}
    (hid : m.intId = some (id : Int)) (h : id ∈ c.pending) (leaving : List (Nat × Outcome)) :
    (c.deliver m).books leaving = { c.books leaving with
      pending := c.pending.filter (· != id)
      calls := c.calls.map fun p => if p.1 = id then (p.1, some m) else p } := by
  have hcalls : (c.waiting.map fun w => if w.id = id then { w with response := some m } else w).map
      (fun w => (w.id, w.response)) =
        c.calls.map fun p => if p.1 = id then (p.1, some m) else p := by
    rw [calls, List.map_map, List.map_map]
    apply List.map_congr_left
    intro w _
    simp only [Function.comp_apply]
    split <;> rfl
  rw [deliver_expected hid h]
  simp only [books, calls] at hcalls ⊢
  rw [hcalls]

/-- A move that is one thing after the other, the second of which is not noted. -/
def Traffic.Shifts (σ τ : Traffic) (notes : List Note) : Prop :=
  ∃ b, Shift σ.books notes b ∧ Shift b [] τ.books

/-- A call that returns is struck from the books. -/
theorem shifts_retire {σ τ : Traffic} {w : Waiting} {o : Outcome}
    (hs : σ.connection.SameCalls τ.connection) (hl : τ.leaving = σ.leaving)
    (hw : w ∈ τ.connection.waiting) (he : Ends w.response o) : σ.Shifts (τ.retire w.id o) [] := by
  have hbooks : Shift σ.books [] τ.books := by
    rw [Traffic.books, Traffic.books, hl]
    exact hs.shift σ.leaving
  have hretire : (τ.retire w.id o).books = { τ.books with
      calls := τ.books.calls.filter (·.1 != w.id)
      leaving := τ.books.leaving ++ [(w.id, o)] } := by
    simp only [Traffic.books, Connection.books, Traffic.retire, Connection.calls_filter]
  refine ⟨τ.books, hbooks, ?_⟩
  rw [hretire]
  exact .retired (List.mem_map.mpr ⟨w, hw, rfl⟩) he

/-- **Every move does one of these things to the calls.** -/
theorem step?_shifts {σ τ : Traffic} {m : Move} {notes : List Note}
    (h : σ.step? m = some (τ, notes)) : σ.Shifts τ notes := by
  -- Most moves concern the connection alone, and no call on it.
  have hchange : ∀ f : Connection → Connection, σ.connection.SameCalls (f σ.connection) →
      σ.Shifts (σ.change f) [] := fun _ hs => ⟨_, hs.shift σ.leaving, .quiet⟩
  cases m with
  | begin abandoned =>
      cases h
      have hcalls : ∀ w : Waiting, (σ.connection.waiting ++ [w]).map (fun w => (w.id, w.response)) =
          σ.connection.calls ++ [(w.id, w.response)] := fun _ => List.map_append
      refine ⟨_, .began, ?_⟩
      simp only [Traffic.books, Connection.books, Connection.calls, hcalls]
      exact .quiet
  | send id method params =>
      obtain ⟨w, hw, h⟩ := Option.bind_eq_some_iff.mp h
      obtain ⟨hmem, rfl⟩ := Connection.call?_eq_some hw
      split at h
      · split at h
        · cases h
          exact shifts_retire (Connection.SameCalls.refl _) rfl hmem (.failed (.send _ _))
        · simp only at h
          split at h <;> cases h
          · exact shifts_retire (σ.connection.send_sameCalls _) rfl hmem (.failed (.send _ _))
          · exact ⟨_, (σ.connection.send_sameCalls _).shift σ.leaving, .quiet⟩
      · cases h
  | wake id choice =>
      obtain ⟨w, hw, h⟩ := Option.bind_eq_some_iff.mp h
      obtain ⟨hmem, rfl⟩ := Connection.call?_eq_some hw
      split at h
      · cases h
      · obtain ⟨o, ho, he⟩ := Option.map_eq_some_iff.mp h
        cases he
        exact shifts_retire (Connection.SameCalls.refl _) rfl hmem
          (ends_of_mem_ready (List.mem_of_getElem? ho))
  | leave id =>
      obtain ⟨⟨id', o⟩, ho, he⟩ := Option.map_eq_some_iff.mp h
      have hid : id' = id := by simpa using List.find?_some ho
      subst hid
      cases he
      exact ⟨_, .returned (List.mem_of_find?_eq_some ho), .quiet⟩
  | read =>
      obtain ⟨⟨c, es⟩, hc, he⟩ := Option.map_eq_some_iff.mp h
      cases he
      rcases Connection.readStep_calls hc with ⟨body, m, id, hframe, hm, hex, hsame⟩ | ⟨hsame, hno⟩
      · obtain ⟨hresp, hid, hmem⟩ := hex
        rw [hframe]
        refine ⟨(σ.connection.deliver m).books σ.leaving, ?_, hsame.shift σ.leaving⟩
        rw [Connection.books_deliver hid hmem]
        exact .answered hm hresp hid hmem
      · cases hframe : σ.connection.frame? with
        | none => exact ⟨_, hsame.shift σ.leaving, .quiet⟩
        | some body =>
            refine ⟨σ.books, .ignored ?_, hsame.shift σ.leaving⟩
            intro m id hm hresp hid hmem
            exact hno body m id hframe hm ⟨hresp, hid, hmem⟩
  | abandon id why =>
      cases h
      refine hchange _ ⟨rfl, ?_, Or.inl ⟨rfl, rfl⟩⟩
      rw [Connection.calls, List.map_map]
      apply List.map_congr_left
      intro w _
      rw [Function.comp_apply]
      split <;> rfl
  | arrive bytes | hangup | cancelLoop => cases h; exact hchange _ ⟨rfl, rfl, Or.inl ⟨rfl, rfl⟩⟩
  | close => cases h; exact hchange _ (σ.connection.shutdown_sameCalls none)
  | handle method hd => cases h; exact hchange _ ⟨rfl, rfl, Or.inl ⟨rfl, rfl⟩⟩
  | notify method params abandoned =>
      cases h
      exact hchange _ (σ.connection.notify_sameCalls method params abandoned)
  | limit left => cases h; exact hchange _ ⟨rfl, rfl, Or.inl ⟨rfl, rfl⟩⟩

end LanguageClient.Rpc
