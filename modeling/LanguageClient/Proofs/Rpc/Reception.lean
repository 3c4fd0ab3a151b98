import LanguageClient.Proofs.Rpc.HeaderBlock
import LanguageClient.Proofs.Rpc.Operations

/-! # What a connection learns from its peer.

A reader of a stream stands at a `Frame.Boundary` between two reads. A call on a
connection has learned its response there: `Answered` says that a reader of all that
was sent takes a response to the call off it, and that it does so in the course of
the last octets sent.

`Hears` says what any operation does that lets a connection go on: no call knows
anything but what it knew before or what was read just now, and nothing is written
but refusals of requests. It holds when octets arrive (`receive_hears`), when the
stream ends, when a caller gives up and when the connection is closed
(`hangup_hears`, `abandon_hears`, `close_hears`). -/

namespace LanguageClient

namespace Frame

/-- What has been written of a frame with this body: the header, or all of it. -/
def Written (body frame : Bytes) : Prop := frame = header body ∨ frame = encode body

theorem written_of_write {w : Writer} {body : Bytes} (h : (write w body).written ≠ []) :
    Written body (write w body).written := by
  unfold write at h ⊢
  split
  · next hw =>
      rw [hw] at h
      exact absurd rfl h
  · split
    · exact Or.inl rfl
    · exact Or.inr rfl

/-- A frame that was written without an error is there as a whole. -/
theorem encode_of_write {w : Writer} {body : Bytes} (h : (write w body).error = none) :
    (write w body).written = encode body := by
  unfold write at h ⊢
  split
  · next hw =>
      rw [hw] at h
      cases h
  · next hw =>
      rw [hw] at h
      simp only at h
      split
      · next hw' =>
          rw [hw'] at h
          cases h
      · rfl

/-- Where a reader may stand that has been sent some octets, by what is left to be read. -/
inductive Boundary (sent : Bytes) : Bytes → Prop where
  | start : Boundary sent sent
  | next {stream : Bytes} (h : Boundary sent stream) (pass : Passable (read stream).outcome) :
      Boundary sent (read stream).rest

/-- A read behind which reading can go on is the same when more is there. -/
theorem read_append_of_passable {stream : Bytes} (h : Passable (read stream).outcome) (more : Bytes) :
    read (stream ++ more) = ⟨(read stream).outcome, (read stream).rest ++ more⟩ := by
  obtain ⟨front, hstream, hread⟩ := read_eq_of_passable h
  have hall : stream ++ more = front ++ ((read stream).rest ++ more) := by
    rw [← List.append_assoc, ← hstream]
  rw [hall, hread]

theorem Boundary.append {sent stream : Bytes} (h : Boundary sent stream) (more : Bytes) :
    Boundary (sent ++ more) (stream ++ more) := by
  induction h with
  | start => exact .start
  | next _ pass ih =>
      have hread := read_append_of_passable pass more
      have hnext := ih.next (by rw [hread]; exact pass)
      rw [hread] at hnext
      exact hnext

/-- Reading gives back less than there was. -/
theorem length_rest_of_passable {stream : Bytes} (h : Passable (read stream).outcome) :
    (read stream).rest.length < stream.length := by
  apply length_read
  rintro rfl
  exact h.elim

/-- If nothing could be read off a stream, what is read once more has arrived ends in
what has arrived. -/
theorem length_rest_of_arrived {stream more : Bytes} (hbefore : ¬ Passable (read stream).outcome)
    (h : Passable (read (stream ++ more)).outcome) :
    (read (stream ++ more)).rest.length < more.length := by
  obtain ⟨front, hstream, hread⟩ := read_eq_of_passable h
  by_contra hle
  -- what is read would stand in the stream already
  have hlen : front.length + (read (stream ++ more)).rest.length = stream.length + more.length := by
    rw [← List.length_append, ← hstream, List.length_append]
  obtain ⟨tail, htail, -⟩ := List.append_eq_append_iff.mp hstream |>.resolve_left (by
    rintro ⟨as, hfront, hmore⟩
    have h1 := congrArg List.length hfront
    have h2 := congrArg List.length hmore
    simp only [List.length_append] at h1 h2
    have has : as = [] := List.eq_nil_of_length_eq_zero (by omega)
    subst has
    rw [List.append_nil] at hfront
    have := hread []
    rw [List.append_nil, hfront] at this
    exact hbefore (by rw [this]; exact h))
  exact hbefore (by rw [htail, hread]; exact h)

end Frame

namespace Rpc

/-- A message is the response to a call. -/
def Message.AnswersTo (m : Message) (id : Nat) : Prop :=
  m.isResponse = true ∧ m.intId = some (id : Int)

/-- A reader that was sent some octets takes the response to a call off them, in the
course of the last `fresh` of them. -/
def Answered (sent : Bytes) (fresh id : Nat) (m : Message) : Prop :=
  ∃ stream body, Frame.Boundary sent stream ∧ (Frame.read stream).outcome = .ok body ∧
    parse body = .ok m ∧ (Frame.read stream).rest.length < fresh ∧ m.AnswersTo id

/-- A frame, or the beginning of one, with which a request of the peer is refused. -/
def Refusal (frame : Bytes) : Prop :=
  ∃ id method, Frame.Written (Outgoing.refusal id method).bytes frame

namespace Connection

/-- A call knows its response, and has learned it from what was sent or knew it before. -/
def Knows (sent : Bytes) (fresh : Nat) (c : Connection) (id : Nat) (m : Message) : Prop :=
  (id, some m) ∈ c.calls ∨ id ∈ c.calls.map (·.1) ∧ Answered sent fresh id m

/-- What an operation comes to that lets a connection go on, which was sent some octets
so far and `fresh` of them just now. -/
structure Hears (sent : Bytes) (fresh : Nat) (c : Connection) (r : Connection × List Effect) : Prop where
  boundary : r.1.loopDone = false → Frame.Boundary sent r.1.stream
  blocked : r.1.readStep = none
  issued : r.1.issued = c.issued
  ids : r.1.calls.map (·.1) ⊆ c.calls.map (·.1)
  learned : ∀ id m, (id, some m) ∈ r.1.calls → c.Knows sent fresh id m
  returned : ∀ id m, .returned id (.response m) ∈ r.2 → c.Knows sent fresh id m
  refused : ∀ frame, .wrote frame ∈ r.2 → Refusal frame

variable {sent : Bytes} {fresh : Nat} {c c' : Connection} {es : List Effect}

theorem Knows.trans {id : Nat} {m : Message} (h : c'.Knows sent fresh id m)
    (hids : c'.calls.map (·.1) ⊆ c.calls.map (·.1))
    (hlearned : ∀ id m, (id, some m) ∈ c'.calls → c.Knows sent fresh id m) :
    c.Knows sent fresh id m := by
  rcases h with h | ⟨hid, h⟩
  · exact hlearned id m h
  · exact Or.inr ⟨hids hid, h⟩

/-! ### Rounds of the read loop -/

/-- While the read loop goes on, it reads one frame after the other. -/
theorem passable_of_readStep (h : c.readStep = some (c', es)) (hgoes : c'.loopDone = false) :
    Frame.Passable (Frame.read c.stream).outcome ∧ c'.stream = (Frame.read c.stream).rest := by
  have htop (d : Connection) : d.loopTop.stream = d.stream := by
    unfold loopTop shutdown
    repeat' split
    all_goals rfl
  have hdispatch (m : Message) (d : Connection) : (d.dispatch m).1.stream = d.stream := by
    obtain ⟨pending, waiting, writer, hd⟩ := exists_dispatch m d
    rw [hd]
  cases readStep_round h with
  | skipped read => exact ⟨by rw [read]; trivial, htop _⟩
  | broken read => cases hgoes
  | unparsed read parsed => exact ⟨by rw [read]; trivial, htop _⟩
  | acted read parsed => exact ⟨by rw [read]; trivial, (htop _).trans (hdispatch _ _)⟩

/-- Nothing but refusals is written in a round of the read loop. -/
theorem refusal_of_readStep (h : c.readStep = some (c', es)) {frame : Bytes}
    (hw : .wrote frame ∈ es) : Refusal frame := by
  cases readStep_round h with
  | @acted body m read parsed =>
      cases hk : m.kind <;> simp only [dispatch, hk] at hw
      case response => cases hw
      case error => cases hw
      case notification => split at hw <;> simp at hw
      case request =>
        simp only [send] at hw
        split at hw
        · cases hw
        · next hne =>
            obtain rfl : frame = _ := Effect.wrote.inj (List.mem_singleton.mp hw)
            exact ⟨_, _, Frame.written_of_write (by simpa using hne)⟩
  | _ => cases hw

theorem mem_calls {id : Nat} {given : Option Message} :
    (id, given) ∈ c.calls ↔ ∃ w ∈ c.waiting, w.id = id ∧ w.response = given := by
  simp [calls]

/-- What the calls learn in a round of the read loop. -/
theorem learned_of_readStep (h : c.readStep = some (c', es)) (hb : Frame.Boundary sent c.stream)
    (hf : Frame.Passable (Frame.read c.stream).outcome → (Frame.read c.stream).rest.length < fresh) :
    c'.issued = c.issued ∧ c'.calls.map (·.1) = c.calls.map (·.1) ∧
      ∀ id m, (id, some m) ∈ c'.calls → c.Knows sent fresh id m := by
  rcases readStep_calls h with ⟨body, m, id, hframe, hparse, ⟨hresp, hid, hmem⟩, hsame⟩ | ⟨hsame, _⟩
  · have hcalls := hsame.calls
    have hissued := hsame.issued
    rw [deliver_expected hid hmem] at hcalls hissued
    refine ⟨hissued, ?_, ?_⟩
    · rw [hcalls]
      simp only [calls, List.map_map]
      apply List.map_congr_left
      intro w _
      simp only [Function.comp_apply]
      split <;> rfl
    · intro id' m' hm'
      rw [hcalls] at hm'
      obtain ⟨w', hw', rfl, hresponse⟩ := mem_calls.mp hm'
      obtain ⟨w, hw, rfl⟩ := List.mem_map.mp hw'
      split at hresponse
      · next he =>
          -- this is the call to which the response is handed
          obtain rfl := Option.some.inj hresponse
          have hread : (Frame.read c.stream).outcome = .ok body := by
            cases ho : (Frame.read c.stream).outcome with
            | error e => rw [frame?_of_error ho] at hframe; cases hframe
            | ok body' =>
                rw [frame?_of_ok ho] at hframe
                rw [Option.some.inj hframe]
          simp only [he, if_true]
          refine Or.inr ⟨?_, c.stream, body, hb, hread, hparse, hf (by rw [hread]; trivial), hresp, hid⟩
          exact he ▸ List.mem_map_of_mem (f := (·.1)) (mem_calls.mpr ⟨w, hw, rfl, rfl⟩)
      · next he =>
          simp only [he, if_false]
          exact Or.inl (mem_calls.mpr ⟨w, hw, rfl, hresponse⟩)
  · exact ⟨hsame.issued, by rw [hsame.calls], fun id m hm => Or.inl (hsame.calls ▸ hm)⟩

/-- **What the read loop does until it has to wait.** -/
theorem readAll_hears {fuel : Nat} (hfuel : c.workLeft ≤ fuel)
    (hb : c.loopDone = false → Frame.Boundary sent c.stream)
    (hf : c.loopDone = false → Frame.Passable (Frame.read c.stream).outcome →
      (Frame.read c.stream).rest.length < fresh) :
    Hears sent fresh c (readAll fuel c) := by
  have hblocked := readAll_blocked hfuel
  induction fuel generalizing c with
  | zero => exact ⟨hb, hblocked, rfl, fun _ h => h, fun _ _ h => Or.inl h, by simp [readAll],
      by simp [readAll]⟩
  | succ fuel ih =>
      unfold readAll at hblocked ⊢
      cases hstep : c.readStep with
      | none =>
          rw [hstep] at hblocked
          exact ⟨hb, hblocked, rfl, fun _ h => h, fun _ _ h => Or.inl h, by simp, by simp⟩
      | some p =>
          obtain ⟨c', es⟩ := p
          rw [hstep] at hblocked
          have hlt := workLeft_readStep hstep
          have hloop : c.loopDone = false := by
            by_contra hdone
            rw [readStep_eq_none.mpr (Or.inl (by simpa using hdone))] at hstep
            cases hstep
          obtain ⟨hissued, hids, hlearned⟩ := learned_of_readStep hstep (hb hloop) (hf hloop)
          -- The stream stays at a boundary of frames, and gets shorter.
          have hb' : c'.loopDone = false → Frame.Boundary sent c'.stream := by
            intro hgoes
            obtain ⟨hpass, hstream⟩ := passable_of_readStep hstep hgoes
            rw [hstream]
            exact (hb hloop).next hpass
          have hf' : c'.loopDone = false → Frame.Passable (Frame.read c'.stream).outcome →
              (Frame.read c'.stream).rest.length < fresh := by
            intro hgoes hpass'
            obtain ⟨hpass, hstream⟩ := passable_of_readStep hstep hgoes
            have hshort := Frame.length_rest_of_passable hpass'
            rw [hstream] at hshort ⊢
            exact Nat.lt_trans hshort (hf hloop hpass)
          have hrest := ih (c := c') (by omega) hb' hf' hblocked
          refine ⟨hrest.boundary, hrest.blocked, hrest.issued.trans hissued, ?_, ?_, ?_, ?_⟩
          · exact hids ▸ hrest.ids
          · exact fun id m hm => (hrest.learned id m hm).trans (fun _ h => hids ▸ h) hlearned
          · intro id m hm
            rcases List.mem_append.mp hm with hm | hm
            · exact absurd hm (not_returned_of_readStep hstep id _)
            · exact (hrest.returned id m hm).trans (fun _ h => hids ▸ h) hlearned
          -- What was written in this round, and what is written in the later ones.
          · intro frame hw
            rcases List.mem_append.mp hw with hw | hw
            · exact refusal_of_readStep hstep hw
            · exact hrest.refused frame hw

/-! ### Operations -/

/-- A call that returns with a response was given it. -/
theorem given_of_settleCalls {id : Nat} {m : Message}
    (h : .returned id (.response m) ∈ c.settleCalls.2) : (id, some m) ∈ c.calls := by
  rw [settleCalls_eq] at h
  obtain ⟨⟨id', o⟩, hp, he⟩ := List.mem_map.mp h
  cases he
  obtain ⟨w, hw, rfl, ho⟩ := mem_finished.mp hp
  have hends := ends_of_mem_ready (List.mem_of_head? ho)
  generalize hgiven : w.response = given at hends
  cases hends
  exact mem_calls.mpr ⟨w, hw, rfl, hgiven⟩

theorem not_wrote_of_settleCalls (frame : Bytes) : .wrote frame ∉ c.settleCalls.2 := by
  rw [settleCalls_eq]
  simp

/-- Letting calls return changes nothing else, and they return with what they knew. -/
theorem Hears.settleCalls {r : Connection × List Effect} (h : Hears sent fresh c r) :
    Hears sent fresh c (r.1.settleCalls.1, r.2 ++ r.1.settleCalls.2) := by
  have hcalls : r.1.settleCalls.1.calls ⊆ r.1.calls := by
    intro p hp
    obtain ⟨w, hw, rfl⟩ := List.mem_map.mp hp
    exact List.mem_map_of_mem (List.mem_filter.mp hw).1
  refine ⟨h.boundary, ?_, h.issued, fun id hid => h.ids (List.map_subset _ hcalls hid),
    fun id m hm => h.learned id m (hcalls hm), ?_, ?_⟩
  · exact readStep_eq_none_congr (c := r.1) rfl rfl rfl h.blocked
  · intro id m hm
    rcases List.mem_append.mp hm with hm | hm
    · exact h.returned id m hm
    · exact h.learned id m (given_of_settleCalls hm)
  · intro frame hw
    rcases List.mem_append.mp hw with hw | hw
    · exact h.refused frame hw
    · exact absurd hw (not_wrote_of_settleCalls frame)

/-- Letting everything go on hears what is in the stream. -/
theorem settle_hears (hb : c.loopDone = false → Frame.Boundary sent c.stream)
    (hf : c.loopDone = false → Frame.Passable (Frame.read c.stream).outcome →
      (Frame.read c.stream).rest.length < fresh) : Hears sent fresh c c.settle := by
  have hfuel : c.workLeft ≤ c.stream.length + 2 := by
    unfold workLeft
    split <;> omega
  exact (readAll_hears hfuel hb hf).settleCalls

/-- Where the read loop has to wait there is nothing that it could read. -/
theorem not_passable_of_blocked (h : c.readStep = none) (hloop : c.loopDone = false) :
    ¬ Frame.Passable (Frame.read c.stream).outcome := by
  rcases readStep_eq_none.mp h with hdone | ⟨e, he, hwait⟩
  · rw [hloop] at hdone
    cases hdone
  · rw [he]
    cases e with
    | missingLength => cases hwait
    | _ => exact id

/-- A connection that goes on with nothing new to be read. -/
theorem settle_hears_of_same {c₁ : Connection} (hsame : c₁.stream = c.stream)
    (hdone : c₁.loopDone = c.loopDone) (hissued : c₁.issued = c.issued) (hcalls : c₁.calls = c.calls)
    (hb : c.loopDone = false → Frame.Boundary sent c.stream) (hblocked : c.readStep = none) :
    Hears sent 0 c c₁.settle := by
  have h : Hears sent 0 c₁ c₁.settle := by
    apply settle_hears
    · rw [hsame, hdone]
      exact hb
    · rw [hsame, hdone]
      exact fun hloop hpass => absurd hpass (not_passable_of_blocked hblocked hloop)
  have hknows {id : Nat} {m : Message} (h : c₁.Knows sent 0 id m) : c.Knows sent 0 id m := by
    unfold Knows at h ⊢
    rwa [hcalls] at h
  exact ⟨h.boundary, h.blocked, h.issued.trans hissued, hcalls ▸ h.ids,
    fun id m hm => hknows (h.learned id m hm), fun id m hm => hknows (h.returned id m hm), h.refused⟩

theorem shutdown_same (reason : Option Error) (c : Connection) :
    (c.shutdown reason).stream = c.stream ∧ (c.shutdown reason).loopDone = c.loopDone ∧
      (c.shutdown reason).issued = c.issued ∧ (c.shutdown reason).calls = c.calls := by
  unfold shutdown
  split
  · exact ⟨rfl, rfl, rfl, rfl⟩
  · exact ⟨rfl, rfl, rfl, rfl⟩

section

variable (hb : c.loopDone = false → Frame.Boundary sent c.stream) (hblocked : c.readStep = none)
include hb hblocked

theorem close_hears : Hears sent 0 c c.close := by
  obtain ⟨hstream, hdone, hissued, hcalls⟩ := shutdown_same none c
  exact settle_hears_of_same hstream hdone hissued hcalls hb hblocked

theorem hangup_hears : Hears sent 0 c c.hangup :=
  settle_hears_of_same rfl rfl rfl rfl hb hblocked

theorem abandon_hears (id : Nat) (why : Condition) : Hears sent 0 c (c.abandon id why) := by
  refine settle_hears_of_same rfl rfl rfl ?_ hb hblocked
  unfold calls
  rw [List.map_map]
  apply List.map_congr_left
  intro w _
  simp only [Function.comp_apply]
  split <;> rfl

/-- What arrives is read as far as it goes, and nothing of what was there before. -/
theorem receive_hears (bytes : Bytes) : Hears (sent ++ bytes) bytes.length c (c.receive bytes) := by
  have h : Hears (sent ++ bytes) bytes.length { c with stream := c.stream ++ bytes }
      (c.receive bytes) :=
    settle_hears (fun hloop => (hb hloop).append bytes) fun hloop hpass =>
      Frame.length_rest_of_arrived (not_passable_of_blocked hblocked hloop) hpass
  exact ⟨h.boundary, h.blocked, h.issued, h.ids, h.learned, h.returned, h.refused⟩

end

end Connection

/-! ### Sending -/

def Effect.frame? : Effect → Option Bytes
  | .wrote frame => some frame
  | _ => none

/-- What is written by an operation that sends one message, and whether it succeeds. -/
inductive Sends (bodies : Bytes → Prop) : Bool → List Bytes → Prop where
  | nothing : Sends bodies false []
  | part {body frame : Bytes} (h : bodies body) (written : Frame.Written body frame) :
      Sends bodies false [frame]
  | whole {body : Bytes} (h : bodies body) : Sends bodies true [Frame.encode body]

theorem Sends.mono {bodies bodies' : Bytes → Prop} {done : Bool} {frames : List Bytes}
    (h : Sends bodies done frames) (hb : ∀ body, bodies body → bodies' body) :
    Sends bodies' done frames := by
  cases h with
  | nothing => exact .nothing
  | part h hw => exact .part (hb _ h) hw
  | whole h => exact .whole (hb _ h)

namespace Connection

variable {c : Connection}

/-- Sending a message writes it as a whole, or fails. -/
theorem send_sends {bodies : Bytes → Prop} {m : Outgoing} (h : bodies m.bytes) :
    Sends bodies (c.send m).2.2.isNone ((c.send m).2.1.filterMap Effect.frame?) := by
  simp only [send]
  cases he : (Frame.write c.writer m.bytes).error with
  | none =>
      have hwhole := Frame.encode_of_write he
      have hne : Frame.encode m.bytes ≠ [] := by simp [Frame.encode, Frame.header]
      rw [hwhole, if_neg (by simpa using hne)]
      exact .whole h
  | some e =>
      split
      · exact .nothing
      · next hne => exact .part h (Frame.written_of_write (by simpa using hne))

/-- What a notification comes to: nothing but that it is sent. -/
structure Notifies (c : Connection) (method : String) (params : Params)
    (r : Connection × List Effect × Option Error) : Prop where
  connection : ∃ writer, r.1 = { c with writer }
  returned : ∀ id o, .returned id o ∉ r.2.1
  sends : Sends (fun body => ∃ p, params.encode = .ok p ∧ body = (Outgoing.notification method p).bytes)
    r.2.2.isNone (r.2.1.filterMap Effect.frame?)

/-- A notification is written as one frame or returns an error. -/
theorem notify_notifies (method : String) (params : Params) (abandoned : Option Condition) :
    c.Notifies method params (c.notify method params abandoned) := by
  have hnothing (e : Error) : c.Notifies method params (c, [], some e) :=
    ⟨⟨c.writer, rfl⟩, by simp, .nothing⟩
  unfold notify
  split
  · exact hnothing _
  · cases abandoned with
    | some e => exact hnothing _
    | none =>
        cases hp : params.encode with
        | error e => exact hnothing e
        | ok p =>
            refine ⟨⟨_, rfl⟩, ?_, send_sends ⟨p, hp, rfl⟩⟩
            intro id o ho
            simp only [send] at ho
            split at ho <;> simp at ho

/-- What a call comes to: that its request is sent, and then waits for the response. -/
structure Calls (c : Connection) (method : String) (params : Params)
    (r : Connection × List Effect × Except Error Nat) : Prop where
  stream : r.1.stream = c.stream ∧ r.1.loopDone = c.loopDone ∧ r.1.ended = c.ended
  issued : r.1.issued = c.issued + 1 ∨ r.1.issued = c.issued ∧ r.2.1.filterMap Effect.frame? = []
  ids : ∀ p ∈ r.1.calls, p.1 ∈ c.calls.map (·.1) ∨ r.2.2 = .ok p.1
  learned : ∀ id m, (id, some m) ∈ r.1.calls → (id, some m) ∈ c.calls
  returned : ∀ id m, .returned id (.response m) ∈ r.2.1 → (id, some m) ∈ c.calls
  sends : Sends (fun body => ∃ p, params.encode = .ok p ∧
    body = (Outgoing.request (c.issued + 1) method p).bytes) r.2.2.isOk (r.2.1.filterMap Effect.frame?)
  id : ∀ id, r.2.2 = .ok id → id = c.issued + 1

/-- A call whose request was sent waits, unless its caller has given up. -/
theorem calls_of_sent {method : String} {params : Params} {abandoned : Option Condition}
    {writer : Frame.Writer} {es : List Effect} (hsends : Sends (fun body => ∃ p, params.encode = .ok p ∧
      body = (Outgoing.request (c.issued + 1) method p).bytes) true (es.filterMap Effect.frame?))
    (hquiet : ∀ id o, .returned id o ∉ es) :
    let sent := { c with
      issued := c.issued + 1, writer, pending := c.pending ++ [c.issued + 1]
      waiting := c.waiting ++ [({ id := c.issued + 1, abandoned } : Waiting)] }
    c.Calls method params (sent.settleCalls.1, es ++ sent.settleCalls.2, .ok (c.issued + 1)) := by
  intro sent
  -- The new call has no response, so only the older ones can have one.
  have hold : ∀ id m, (id, some m) ∈ sent.calls → (id, some m) ∈ c.calls := by
    intro id m hm
    obtain ⟨w, hw, rfl, hresponse⟩ := mem_calls.mp hm
    rcases List.mem_append.mp hw with hw | hw
    · exact mem_calls.mpr ⟨w, hw, rfl, hresponse⟩
    · obtain rfl := List.mem_singleton.mp hw
      cases hresponse
  refine ⟨⟨rfl, rfl, rfl⟩, Or.inl rfl, ?_, ?_, ?_, ?_, ?_⟩
  · intro p hp
    obtain ⟨w, hw, rfl⟩ := List.mem_map.mp hp
    rcases List.mem_append.mp (List.mem_filter.mp hw).1 with hw | hw
    · exact Or.inl (List.mem_map_of_mem (List.mem_map_of_mem hw))
    · obtain rfl := List.mem_singleton.mp hw
      exact Or.inr rfl
  · intro id m hm
    obtain ⟨w, hw, rfl, hresponse⟩ := mem_calls.mp hm
    exact hold w.id m (mem_calls.mpr ⟨w, (List.mem_filter.mp hw).1, rfl, hresponse⟩)
  · intro id m hm
    rcases List.mem_append.mp hm with hm | hm
    · exact absurd hm (hquiet id _)
    · exact hold id m (given_of_settleCalls hm)
  -- Settling the calls writes nothing.
  · have hnone : sent.settleCalls.2.filterMap Effect.frame? = [] := by
      rw [List.filterMap_eq_nil_iff]
      intro e he
      cases e with
      | wrote frame => exact absurd he (not_wrote_of_settleCalls frame)
      | _ => rfl
    rw [List.filterMap_append, hnone, List.append_nil]
    exact hsends
  · exact fun id hid => (Except.ok.inj hid).symm

/-- A call writes its request as one frame and waits, or returns an error. -/
theorem call_calls (method : String) (params : Params) (abandoned : Option Condition) :
    c.Calls method params (c.call method params abandoned) := by
  -- All failures have this in common: nothing is pending that was not so before.
  have hsame (issued : Nat) (writer : Frame.Writer) (es : List Effect) (e : Error)
      (hissued : issued = c.issued + 1 ∨ issued = c.issued ∧ es = []) (hes : ∀ id o, .returned id o ∉ es)
      (hsends : Sends (fun body => ∃ p, params.encode = .ok p ∧
        body = (Outgoing.request (c.issued + 1) method p).bytes) false (es.filterMap Effect.frame?)) :
      c.Calls method params ({ c with issued, writer }, es, .error e) :=
    ⟨⟨rfl, rfl, rfl⟩, hissued.imp_right fun h => ⟨h.1, by rw [h.2]; rfl⟩,
      fun p hp => Or.inl (List.mem_map_of_mem hp), fun _ _ h => h,
      fun id m h => absurd h (hes id _), hsends, by simp⟩
  unfold call
  split
  · exact hsame c.issued c.writer [] _ (Or.inr ⟨rfl, rfl⟩) (by simp) .nothing
  · cases hp : params.encode with
    | error e => exact hsame (c.issued + 1) c.writer [] _ (Or.inl rfl) (by simp) .nothing
    | ok p =>
        have hsends : Sends (fun body => ∃ p, params.encode = .ok p ∧
            body = (Outgoing.request (c.issued + 1) method p).bytes) _ _ :=
          send_sends (c := { c with issued := c.issued + 1 }) (m := .request (c.issued + 1) method p)
            ⟨p, hp, rfl⟩
        have hquiet : ∀ id o, .returned id o ∉
            ({ c with issued := c.issued + 1 }.send (.request (c.issued + 1) method p)).2.1 := by
          intro id o ho
          simp only [send] at ho
          split at ho <;> simp at ho
        simp only
        cases hf : ({ c with issued := c.issued + 1 }.send (.request (c.issued + 1) method p)).2.2 with
        | some e =>
            rw [hf] at hsends
            exact hsame (c.issued + 1) _ _ _ (Or.inl rfl) hquiet hsends
        | none =>
            rw [hf] at hsends
            exact calls_of_sent hsends hquiet

end Connection

end Rpc

end LanguageClient
