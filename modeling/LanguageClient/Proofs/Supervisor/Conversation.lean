import LanguageClient.Proofs.Rpc.Reception
import LanguageClient.Proofs.Supervisor.System

/-! # The conversation with a server.

`converse?` plays a run of a supervisor and writes down what the server sends and
what the client writes, in this order, each message of the client with its purpose:
a thread writes at few of its points, and what it writes elsewhere are refusals of
requests.

`Traced` ties the state of the supervisor to the conversation so far: whatever was
answered to a call was sent by the server behind the request. The operations on the
connection keep it, those that let it go on (`Listens`) as well as those that send
a message (`notify_traced`, `call_traced`). -/

namespace LanguageClient.Supervisor

open Rpc (Outgoing Answered Refusal Sends)

/-- What a message of the client is for. -/
inductive Purpose where
  | greeting
  | acknowledgement
  | shutdown
  | exit
  /-- It is what the caller of a notification asked for. -/
  | passed (method : String) (params : Rpc.Params)
  deriving DecidableEq

/-- The body of the notification that the server may be used. -/
def acknowledgementBody : Bytes := (Outgoing.notification "initialized" (some (Json.object []))).bytes

def Purpose.Body (g : Settings) : Purpose → Bytes → Prop
  | .greeting, body => ∃ mode, body = (Outgoing.request 1 "initialize"
      (some (greetingParams g.processId g.client g.rootUri mode))).bytes
  | .acknowledgement, body => body = acknowledgementBody
  | .shutdown, body => ∃ id, body = (Outgoing.request id "shutdown" none).bytes
  | .exit, body => body = (Outgoing.notification "exit" none).bytes
  | .passed method params, body =>
    ∃ p, params.encode = .ok p ∧ body = (Outgoing.notification method p).bytes

/-- What a shutdown writes where it stands. -/
def ShutdownPoint.purpose? : ShutdownPoint → Option Purpose
  | .request => some .shutdown
  | .exit => some .exit
  | _ => none

def Task.purpose? : Task → Option Purpose
  | .start _ .greet => some .greeting
  | .start _ (.acknowledge _) => some .acknowledgement
  | .start _ (.shutdown q) | .stop (.shutdown q) => q.purpose?
  | .notify method params .send => some (.passed method params)
  | _ => none

/-! ### Conversations -/

/-- One contribution to a conversation. -/
inductive Line where
  /-- The server sends octets. -/
  | received (bytes : Bytes)
  /-- The client refuses a request. -/
  | refused (frame : Bytes)
  | said (purpose : Purpose) (frame : Bytes)

/-- What is written is said on purpose or refuses a request. -/
def Line.ofFrame : Option Purpose → Bytes → Line
  | some purpose, frame => .said purpose frame
  | none, frame => .refused frame

/-- The octets that were written to the server. -/
def Effect.frame? : Effect → Option Bytes
  | .wrote frame => some frame
  | _ => none

def written (purpose : Option Purpose) (es : List Effect) : List Line :=
  (es.filterMap Effect.frame?).map (Line.ofFrame purpose)

/-- What is written in an event is for. -/
def Event.purpose? (σ : System) : Event → Option Purpose
  | .advance i => σ.threads[i]?.bind (·.task.purpose?)
  | _ => none

/-- What the server sends in an event, if there is somebody to read it. -/
def Event.heard (σ : System) : Event → List Line
  | .deed (.send bytes) => if σ.state.connection.isSome then [.received bytes] else []
  | _ => []

/-- Lets some events happen, one after the other, and writes down the conversation. -/
def converse? (g : Settings) : List Event → System → Option (System × List Line)
  | [], σ => some (σ, [])
  | e :: events, σ =>
    ((Run.begin σ).happen? g e).bind fun r =>
      (converse? g events r.system).map fun (τ, more) =>
        (τ, e.heard σ ++ written (e.purpose? σ) r.effects ++ more)

def received (lines : List Line) : Bytes :=
  lines.flatMap fun
    | .received bytes => bytes
    | _ => []

/-- The messages of the client that refuse no request, by their purpose. -/
def purposes (lines : List Line) : List Purpose :=
  lines.filterMap fun
    | .said purpose _ => some purpose
    | _ => none

@[simp] theorem received_nil : received [] = [] := rfl

@[simp] theorem received_append (lines more : List Line) :
    received (lines ++ more) = received lines ++ received more := List.flatMap_append

@[simp] theorem purposes_nil : purposes [] = [] := rfl

@[simp] theorem purposes_append (lines more : List Line) :
    purposes (lines ++ more) = purposes lines ++ purposes more := List.filterMap_append

theorem mem_purposes {purpose : Purpose} {lines : List Line} :
    purpose ∈ purposes lines ↔ ∃ frame, .said purpose frame ∈ lines := by
  unfold purposes
  rw [List.mem_filterMap]
  constructor
  · rintro ⟨line, hm, he⟩
    cases line with
    | said purpose' frame =>
        cases he
        exact ⟨frame, hm⟩
    | _ => cases he
  · rintro ⟨frame, hm⟩
    exact ⟨_, hm, rfl⟩

@[simp] theorem received_written (purpose : Option Purpose) (es : List Effect) :
    received (written purpose es) = [] := by
  unfold received written
  rw [List.flatMap_eq_nil_iff]
  intro line hline
  obtain ⟨frame, -, rfl⟩ := List.mem_map.mp hline
  cases purpose <;> rfl

@[simp] theorem purposes_written_none (es : List Effect) : purposes (written none es) = [] := by
  unfold purposes written
  rw [List.filterMap_eq_nil_iff]
  intro line hline
  obtain ⟨frame, -, rfl⟩ := List.mem_map.mp hline
  rfl

theorem purposes_received {heard : List Line} (h : ∀ line ∈ heard, ∃ bytes, line = .received bytes) :
    purposes heard = [] := by
  unfold purposes
  rw [List.filterMap_eq_nil_iff]
  intro line hline
  obtain ⟨bytes, rfl⟩ := h line hline
  rfl

/-! ### Answers -/

/-- A request was written that asks for something. -/
def Requested (lines : List Line) (purpose : Purpose) (id : Nat) : Prop :=
  ∃ method params, .said purpose (Frame.encode (Outgoing.request id method params).bytes) ∈ lines

/-- The server has sent a response to a request behind it. -/
def Responded (lines : List Line) (purpose : Purpose) (id : Nat) (m : Rpc.Message) : Prop :=
  ∃ before bytes after, lines = before ++ .received bytes :: after ∧ Requested before purpose id ∧
    Answered (received before ++ bytes) bytes.length id m

/-- The server has sent a response without an error to a request behind it. -/
def Granted (lines : List Line) (purpose : Purpose) : Prop :=
  ∃ id m, Responded lines purpose id m ∧ m.error = none

section Append

variable {lines : List Line} {purpose : Purpose} {id : Nat} {m : Rpc.Message}

theorem Requested.append (h : Requested lines purpose id) (more : List Line) :
    Requested (lines ++ more) purpose id := by
  obtain ⟨method, params, hm⟩ := h
  exact ⟨method, params, List.mem_append_left more hm⟩

theorem Responded.append (h : Responded lines purpose id m) (more : List Line) :
    Responded (lines ++ more) purpose id m := by
  obtain ⟨before, bytes, after, rfl, h⟩ := h
  exact ⟨before, bytes, after ++ more, by simp, h⟩

theorem Granted.append (h : Granted lines purpose) (more : List Line) :
    Granted (lines ++ more) purpose := by
  obtain ⟨id, m, h, hm⟩ := h
  exact ⟨id, m, h.append more, hm⟩

theorem Granted.mem_purposes (h : Granted lines purpose) : purpose ∈ purposes lines := by
  obtain ⟨id, m, ⟨before, bytes, after, rfl, ⟨method, params, hr⟩, _⟩, _⟩ := h
  exact Supervisor.mem_purposes.mpr ⟨_, List.mem_append_left _ hr⟩

end Append

/-! ### The state of a supervisor and its conversation -/

/-- What the call with an id asks for: the greeting is the first call. -/
def asked (id : Nat) : Purpose := if id = 1 then .greeting else .shutdown

/-- What is known of a connection by what has been said over it. -/
structure Wired (lines : List Line) (c : Rpc.Connection) : Prop where
  boundary : c.loopDone = false → Frame.Boundary (received lines) c.stream
  blocked : c.readStep = none
  requested : ∀ id ∈ c.calls.map (·.1), Requested lines (asked id) id
  known : ∀ id m, (id, some m) ∈ c.calls → Responded lines (asked id) id m
  issued : .greeting ∈ purposes lines → c.issued ≠ 0

/-- What is known of a supervisor by what has been said. -/
structure Traced (lines : List Line) (s : State) : Prop where
  silent : s.connection = none → lines = []
  wired : ∀ c, s.connection = some c → Wired lines c
  answers : ∀ id m, (id, .response m) ∈ s.answers → Responded lines (asked id) id m

theorem traced_initial : Traced [] {} where
  silent := fun _ => rfl
  wired := by simp
  answers := by simp

/-- A connection as it is when a server was spawned. -/
theorem wired_connect : Wired [] connect where
  boundary := fun _ => .start
  blocked := rfl
  requested := by intro id h; cases h
  known := by intro id m h; cases h
  issued := by simp

/-- What is kept and what is shown of an operation on the connection. -/
theorem withConnection_eq (c : Rpc.Connection) (es : List Rpc.Effect) (s : State) :
    (s.withConnection c es).1.connection = some c ∧
    (∀ id o, (id, o) ∈ (s.withConnection c es).1.answers ↔ (id, o) ∈ s.answers ∨ .returned id o ∈ es) ∧
    (s.withConnection c es).2.filterMap Effect.frame? = es.filterMap Rpc.Effect.frame? := by
  refine ⟨rfl, ?_, ?_⟩
  · intro id o
    simp only [State.withConnection, List.mem_append, List.mem_filterMap]
    refine or_congr_right ⟨?_, ?_⟩
    · rintro ⟨e, he, ho⟩
      cases e <;> cases ho
      exact he
    · exact fun h => ⟨_, h, rfl⟩
  · simp only [State.withConnection]
    induction es with
    | nil => rfl
    -- Each effect of the connection becomes effects of the supervisor, in order.
    | cons e es ih =>
        rw [List.flatMap_cons, List.filterMap_append, ih]
        cases e with
        | wrote frame => rfl
        | returned id o => rfl
        | notified label method params =>
            have hnone : ((reportsOf label method params).map Effect.report).filterMap Effect.frame? = [] := by
              rw [List.filterMap_map]
              exact List.filterMap_eq_nil_iff.mpr fun _ _ => rfl
            rw [hnone]
            rfl

/-! ### Listening -/

/-- An operation that lets the connection go on, with what the server sends in it. -/
structure Listens (lines heard : List Line) (s : State) (r : State × List Effect) : Prop where
  traced : Traced (lines ++ heard ++ written none r.2) r.1
  connected : r.1.connection = none ↔ s.connection = none
  issued : ∀ c', r.1.connection = some c' → ∃ c, s.connection = some c ∧ c'.issued = c.issued
  refused : ∀ frame ∈ r.2.filterMap Effect.frame?, Refusal frame
  received : ∀ line ∈ heard, ∃ bytes, line = .received bytes

theorem Wired.append {lines more : List Line} {c : Rpc.Connection} (h : Wired lines c)
    (hr : received more = []) (hp : purposes more = []) : Wired (lines ++ more) c where
  boundary := by
    rw [received_append, hr, List.append_nil]
    exact h.boundary
  blocked := h.blocked
  requested := fun id hid => (h.requested id hid).append more
  known := fun id m hm => (h.known id m hm).append more
  issued := by
    rw [purposes_append, hp, List.append_nil]
    exact h.issued

section Listening

variable {lines : List Line} {s s' : State} {es : List Effect}

/-- Nothing happens to the connection. -/
theorem Traced.listens (ht : Traced lines s) (hc : s'.connection = s.connection)
    (ha : s'.answers = s.answers) (hes : es.filterMap Effect.frame? = []) :
    Listens lines [] s (s', es) where
  traced := by
    simp only [written, hes, List.map_nil, List.append_nil]
    exact ⟨hc ▸ ht.silent, hc ▸ ht.wired, ha ▸ ht.answers⟩
  connected := by rw [hc]
  issued := fun c' hc' => ⟨c', hc ▸ hc', rfl⟩
  refused := by simp [hes]
  received := by simp

/-- What else happens in an operation does not matter. -/
theorem Listens.congr {heard : List Line} {s₁ s₂ s₃ : State} {es' : List Effect}
    (h : Listens lines heard s₁ (s₂, es)) (hs : s₁.connection = s.connection)
    (hs' : s₃.connection = s₂.connection ∧ s₃.answers = s₂.answers)
    (hes : es'.filterMap Effect.frame? = es.filterMap Effect.frame?) :
    Listens lines heard s (s₃, es') := by
  obtain ⟨htraced, hconnected, hissued, hrefused, hreceived⟩ := h
  have hwritten : written none es' = written none es := by rw [written, hes, written]
  refine ⟨?_, ?_, ?_, ?_, hreceived⟩
  · rw [hwritten]
    exact ⟨hs'.1 ▸ htraced.silent, hs'.1 ▸ htraced.wired, hs'.2 ▸ htraced.answers⟩
  · rw [hs'.1, ← hs]
    exact hconnected
  · rw [hs'.1, ← hs]
    exact hissued
  · rw [hes]
    exact hrefused

/-- **An operation that hears what the server sends.** -/
theorem Traced.hears {c : Rpc.Connection} {r : Rpc.Connection × List Rpc.Effect}
    (ht : Traced lines s) (hc : s.connection = some c) (heard : List Line)
    (hheard : heard = [] ∨ ∃ bytes, heard = [.received bytes])
    (h : c.Hears (received lines ++ received heard) (received heard).length r) :
    Listens lines heard s (s.withConnection r.1 r.2) := by
  obtain ⟨hconn, hanswers, hframes⟩ := withConnection_eq r.1 r.2 s
  have hw := ht.wired c hc
  have hreceived : ∀ line ∈ heard, ∃ bytes, line = .received bytes := by
    rcases hheard with rfl | ⟨bytes, rfl⟩
    · simp
    · exact fun line hline => ⟨bytes, List.mem_singleton.mp hline⟩
  have hrequested : ∀ id ∈ r.1.calls.map (·.1), Requested lines (asked id) id :=
    fun id hid => hw.requested id (h.ids hid)
  have hknows : ∀ id m, c.Knows (received lines ++ received heard) (received heard).length id m →
      Responded (lines ++ heard) (asked id) id m := by
    rintro id m (hm | ⟨hid, hanswered⟩)
    · exact (hw.known id m hm).append heard
    · rcases hheard with rfl | ⟨bytes, rfl⟩
      · -- nothing can have been read, since nothing was sent
        obtain ⟨_, _, _, _, _, hlt, _⟩ := hanswered
        cases hlt
      · have hall : received [Line.received bytes] = bytes := List.append_nil bytes
        rw [hall] at hanswered
        exact ⟨lines, bytes, [], rfl, hw.requested id hid, hanswered⟩
  refine ⟨⟨?_, ?_, ?_⟩, ?_, ?_, ?_, hreceived⟩
  · rw [hconn]
    simp
  · intro c' hc'
    rw [hconn] at hc'
    obtain rfl := Option.some.inj hc'
    apply Wired.append _ (received_written none _) (purposes_written_none _)
    refine ⟨?_, h.blocked, fun id hid => (hrequested id hid).append heard,
      fun id m hm => hknows id m (h.learned id m hm), ?_⟩
    · rw [received_append]
      exact h.boundary
    · rw [purposes_append, purposes_received hreceived, List.append_nil, h.issued]
      exact hw.issued
  · intro id m hm
    rcases (hanswers id _).mp hm with hm | hm
    · rw [List.append_assoc]
      exact (ht.answers id m hm).append _
    · exact (hknows id m (h.returned id m hm)).append _
  · rw [hconn, hc]
    simp
  · intro c' hc'
    rw [hconn] at hc'
    exact ⟨c, hc, (Option.some.inj hc') ▸ h.issued⟩
  · rw [hframes]
    intro frame hframe
    obtain ⟨e, he, hf⟩ := List.mem_filterMap.mp hframe
    cases e <;> cases hf
    exact h.refused frame he

/-- An operation on the connection with nothing new to be read. -/
theorem Traced.onConnection {f : Rpc.Connection → Rpc.Connection × List Rpc.Effect}
    (ht : Traced lines s) (hf : ∀ c, Wired lines c → c.Hears (received lines) 0 (f c)) :
    Listens lines [] s (s.onConnection f) := by
  unfold State.onConnection
  cases hc : s.connection with
  | none => exact ht.listens rfl rfl rfl
  | some c =>
      refine ht.hears hc [] (Or.inl rfl) ?_
      rw [received_nil, List.append_nil]
      exact hf c (ht.wired c hc)

theorem Traced.closeConnection (ht : Traced lines s) : Listens lines [] s s.closeConnection :=
  ht.onConnection fun _ hw => Rpc.Connection.close_hears hw.boundary hw.blocked

theorem Traced.hangup (ht : Traced lines s) :
    Listens lines [] s (s.onConnection Rpc.Connection.hangup) :=
  ht.onConnection fun _ hw => Rpc.Connection.hangup_hears hw.boundary hw.blocked

theorem Traced.release (ht : Traced lines s) (task : Task) (why : Condition) :
    Listens lines [] s (s.release task why) := by
  unfold State.release
  split
  · exact ht.listens rfl rfl rfl
  · exact ht.onConnection fun _ hw => Rpc.Connection.abandon_hears hw.boundary hw.blocked _ _

theorem frames_reports (reports : List Report) :
    (reports.map Effect.report).filterMap Effect.frame? = [] := by
  rw [List.filterMap_map]
  exact List.filterMap_eq_nil_iff.mpr fun _ _ => rfl

/-- The end of the process is silent, and heard as the end of the stream. -/
theorem Traced.exit (ht : Traced lines s) (code : Int) : Listens lines [] s (s.exit code) := by
  unfold State.exit
  cases s.process with
  | none => exact ht.listens rfl rfl rfl
  | some p =>
      by_cases hr : p.isRunning
      · simp only [hr, if_true]
        have hended : Traced lines { s with process := some { p with
            exitCode := some code, errorOutput := p.errorOutput.finish.1 } } :=
          ⟨ht.silent, ht.wired, ht.answers⟩
        refine hended.hangup.congr rfl ⟨rfl, rfl⟩ ?_
        rw [List.filterMap_append, frames_reports, List.nil_append]
        rfl
      · simp only [hr]
        exact ht.listens rfl rfl rfl

theorem Traced.kill (ht : Traced lines s) (g : Settings) : Listens lines [] s (s.kill g) := by
  unfold State.kill
  cases s.process with
  | none => exact ht.listens rfl rfl rfl
  | some p =>
      have hkilled : Traced lines { s with process := some { p with kills := p.kills + 1 } } :=
        ⟨ht.silent, ht.wired, ht.answers⟩
      have hlog (es more : List Effect) (hmore : more.filterMap Effect.frame? = []) :
          (Effect.killed :: es ++ more).filterMap Effect.frame? = es.filterMap Effect.frame? := by
        rw [List.filterMap_append, hmore, List.append_nil]
        rfl
      cases g.killError with
      | none | some e =>
          cases g.killCode with
          | none => exact (hkilled.listens rfl rfl rfl).congr rfl ⟨rfl, rfl⟩ (hlog [] _ rfl)
          | some code => exact (hkilled.exit code).congr rfl ⟨rfl, rfl⟩ (hlog _ _ rfl)

/-- **What the server does of its own accord is heard.** -/
theorem Traced.deed (ht : Traced lines s) (d : Deed) (threads : List Thread) :
    Listens lines ((Event.deed d).heard ⟨s, threads⟩) s (d.act s) := by
  cases d with
  | exit code => exact ht.exit code
  | hangup => exact ht.hangup
  | accept left =>
      -- A limit on the writer changes nothing of what is read.
      refine ht.onConnection (f := fun c => (limitWrites left c, [])) fun c hw => ?_
      exact ⟨hw.boundary, Rpc.Connection.readStep_eq_none_congr (c := c) rfl rfl rfl hw.blocked, rfl,
        fun _ h => h, fun _ _ h => Or.inl h, by simp, by simp⟩
  | complain bytes =>
      simp only [Deed.act, State.receiveErrors, Event.heard]
      split
      · exact ht.listens rfl rfl rfl
      · exact ht.listens rfl rfl (frames_reports _)
  | send bytes =>
      simp only [Deed.act, State.onConnection, Event.heard]
      cases hc : s.connection with
      | none => exact ht.listens rfl rfl rfl
      | some c =>
          have hw := ht.wired c hc
          have hall : received [Line.received bytes] = bytes := List.append_nil bytes
          refine ht.hears hc [.received bytes] (Or.inr ⟨bytes, rfl⟩) ?_
          rw [hall]
          exact Rpc.Connection.receive_hears hw.boundary hw.blocked bytes

end Listening

/-! ### Speaking -/

/-- An operation that sends a message, and whether it succeeds. -/
structure Speaks (g : Settings) (lines : List Line) (purpose : Purpose) (s : State) (done : Bool)
    (r : State × List Effect) : Prop where
  traced : Traced (lines ++ written (some purpose) r.2) r.1
  connected : r.1.connection = none ↔ s.connection = none
  sends : Sends (purpose.Body g) done (r.2.filterMap Effect.frame?)

section Speaking

variable {g : Settings} {lines : List Line} {purpose : Purpose} {s : State} {c : Rpc.Connection}
  {method : String} {params : Rpc.Params}

/-- Nothing but the one message is said, and it is said as a whole if that succeeds. -/
theorem written_of_sends (purpose : Purpose) {bodies : Bytes → Prop} {done : Bool} {es : List Effect}
    (h : Sends bodies done (es.filterMap Effect.frame?)) :
    done = false ∧ written (some purpose) es = [] ∨
      ∃ body frame, written (some purpose) es = [.said purpose frame] ∧ bodies body ∧
        Frame.Written body frame ∧ (done = true → frame = Frame.encode body) := by
  unfold written
  generalize es.filterMap Effect.frame? = frames at h
  cases h with
  | nothing => exact Or.inl ⟨rfl, rfl⟩
  | part h hw => exact Or.inr ⟨_, _, rfl, h, hw, by simp⟩
  | whole h => exact Or.inr ⟨_, _, rfl, h, Or.inr rfl, fun _ => rfl⟩

/-- What is shown besides does not matter. -/
theorem Speaks.congr {done : Bool} {s' : State} {es es' : List Effect}
    (h : Speaks g lines purpose s done (s', es))
    (hes : es'.filterMap Effect.frame? = es.filterMap Effect.frame?) :
    Speaks g lines purpose s done (s', es') := by
  obtain ⟨htraced, hconnected, hsends⟩ := h
  refine ⟨?_, hconnected, hes ▸ hsends⟩
  rw [written, hes]
  exact htraced

theorem Wired.say {es : List Effect} (h : Wired lines c) (hp : purpose ≠ .greeting) :
    Wired (lines ++ written (some purpose) es) c where
  boundary := by
    rw [received_append, received_written, List.append_nil]
    exact h.boundary
  blocked := h.blocked
  requested := fun id hid => (h.requested id hid).append _
  known := fun id m hm => (h.known id m hm).append _
  issued := by
    rw [purposes_append, List.mem_append]
    rintro (hm | hm)
    · exact h.issued hm
    · obtain ⟨frame, hm⟩ := mem_purposes.mp hm
      obtain ⟨frame', -, he⟩ := List.mem_map.mp hm
      exact absurd (Line.said.inj he).1 hp

/-- **Sending a notification.** -/
theorem Traced.notify (ht : Traced lines s) (purpose : Purpose) (hc : s.connection = some c)
    {r : Rpc.Connection × List Rpc.Effect × Option Error} (h : c.Notifies method params r)
    (hp : purpose ≠ .greeting) (hb : ∀ body, (∃ p, params.encode = .ok p ∧
      body = (Outgoing.notification method p).bytes) → purpose.Body g body) :
    Speaks g lines purpose s r.2.2.isNone (s.withConnection r.1 r.2.1) ∧ r.1.issued = c.issued := by
  obtain ⟨⟨writer, hr⟩, hreturned, hsends⟩ := h
  obtain ⟨hconn, hanswers, hframes⟩ := withConnection_eq r.1 r.2.1 s
  have hw := ht.wired c hc
  refine ⟨⟨⟨?_, ?_, ?_⟩, ?_, ?_⟩, by rw [hr]⟩
  · rw [hconn]
    simp
  · intro c' hc'
    rw [hconn, hr] at hc'
    obtain rfl := Option.some.inj hc'
    -- Nothing new can be read because of a write.
    have hblocked : ({ c with writer } : Rpc.Connection).readStep = none :=
      Rpc.Connection.readStep_eq_none_congr (c := c) rfl rfl rfl hw.blocked
    exact Wired.say ⟨hw.boundary, hblocked, hw.requested, hw.known, hw.issued⟩ hp
  · intro id m hm
    rcases (hanswers id _).mp hm with hm | hm
    · exact (ht.answers id m hm).append _
    · exact absurd hm (hreturned id _)
  · rw [hconn, hc]
    simp
  · rw [hframes]
    exact hsends.mono hb

/-- **Making a call.** -/
theorem Traced.call (ht : Traced lines s) (purpose : Purpose) (hc : s.connection = some c)
    {r : Rpc.Connection × List Rpc.Effect × Except Error Nat} (h : c.Calls method params r)
    (hp : asked (c.issued + 1) = purpose) (hb : ∀ body, (∃ p, params.encode = .ok p ∧
      body = (Outgoing.request (c.issued + 1) method p).bytes) → purpose.Body g body) :
    Speaks g lines purpose s r.2.2.isOk (s.withConnection r.1 r.2.1) := by
  obtain ⟨hconn, hanswers, hframes⟩ := withConnection_eq r.1 r.2.1 s
  have hw := ht.wired c hc
  have hsends : Sends _ _ ((s.withConnection r.1 r.2.1).2.filterMap Effect.frame?) := hframes ▸ h.sends
  have hold : ∀ id m, (id, some m) ∈ c.calls →
      Responded (lines ++ written (some purpose) (s.withConnection r.1 r.2.1).2) (asked id) id m :=
    fun id m hm => (hw.known id m hm).append _
  refine ⟨⟨?_, ?_, ?_⟩, ?_, hsends.mono hb⟩
  · rw [hconn]
    simp
  · intro c' hc'
    rw [hconn] at hc'
    obtain rfl := Option.some.inj hc'
    obtain ⟨hstream, hdone, hended⟩ := h.stream
    refine ⟨?_, ?_, ?_, fun id m hm => hold id m (h.learned id m hm), ?_⟩
    · rw [received_append, received_written, List.append_nil, hstream, hdone]
      exact hw.boundary
    · exact Rpc.Connection.readStep_eq_none_congr hdone hstream hended hw.blocked
    · intro id hid
      obtain ⟨p, hp', rfl⟩ := List.mem_map.mp hid
      rcases h.ids p hp' with hid | hok
      · exact (hw.requested p.1 hid).append _
      · -- the new call has written its request as a whole
        have hid := h.id p.1 hok
        rcases written_of_sends purpose hsends with ⟨hfail, -⟩ |
          ⟨body, frame, hline, ⟨q, -, rfl⟩, -, hwhole⟩
        · rw [hok] at hfail
          cases hfail
        · obtain rfl := hwhole (by rw [hok]; rfl)
          rw [hline, hid, hp]
          exact ⟨method, q, List.mem_append_right _ List.mem_cons_self⟩
    · intro hg
      rcases h.issued with hi | ⟨hi, hnone⟩
      · omega
      · rw [hi]
        apply hw.issued
        have hempty : written (some purpose) (s.withConnection r.1 r.2.1).2 = [] := by
          rw [written, hframes, hnone]
          rfl
        rwa [hempty, List.append_nil] at hg
  · intro id m hm
    rcases (hanswers id _).mp hm with hm | hm
    · exact (ht.answers id m hm).append _
    · exact hold id m (h.returned id m hm)
  · rw [hconn, hc]
    simp

end Speaking

end LanguageClient.Supervisor
