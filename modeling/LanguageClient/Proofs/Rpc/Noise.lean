import LanguageClient.Proofs.Rpc.HeaderBlock
import LanguageClient.Proofs.Rpc.Traffic

/-! # Bad input is isolated.

`Noise` is input with which a reader can do nothing but that leaves it at the next
frame: a body that is no message, a block of headers that gives no length, or one
whose length is zero. Here two runs of a connection at work are compared: in one of
them noise arrives as well, cut into pieces in any way, behind some octets of what
the peer sends (`strike` takes it out again). Up to where the noise stands the two
runs do the same things with different streams (`watch?_strike`), the round of the
read loop that takes the noise does nothing (`step?_read_noise`), and from then on
the runs are one (`noise_isolated`). -/

namespace LanguageClient.Rpc

/-- Input that is no message, but ends where a reader expects it to. -/
inductive Noise : Bytes → Prop where
  /-- A body that is no message, behind headers that give its length. -/
  | unparsed {block body : Bytes} {e : ParseError} (head : Frame.HeaderBlock none (some body.length) block)
      (ne : body ≠ []) (size : body.length ≤ Frame.maxSize) (bad : parse body = .error e) :
      Noise (block ++ body)
  /-- Headers of which none gives a length. -/
  | unlabelled {block : Bytes} (head : Frame.HeaderBlock none none block) : Noise block
  /-- Headers that give zero as the length. -/
  | empty {block : Bytes} (head : Frame.HeaderBlock none (some 0) block) : Noise block

/-- What a written body that is no message makes of a stream is noise. -/
theorem noise_encode {body : Bytes} {e : ParseError} (ne : body ≠ []) (size : body.length ≤ Frame.maxSize)
    (bad : parse body = .error e) : Noise (Frame.encode body) :=
  .unparsed (Frame.headerBlock_header (Frame.length_le_int64Max size)) ne size bad

/-- What was read, if it is a message. -/
def said? (outcome : Except Frame.ReadError Bytes) : Option Message :=
  outcome.toOption.bind fun body => (parse body).toOption

/-- Noise is taken off a stream as it stands there, and is no message. -/
theorem Noise.read_append {noise : Bytes} (h : Noise noise) (rest : Bytes) :
    ∃ outcome, Frame.read (noise ++ rest) = ⟨outcome, rest⟩ ∧ Frame.Passable outcome ∧
      said? outcome = none := by
  cases h with
  | @unparsed block body e head ne size bad =>
      refine ⟨.ok body, ?_, trivial, ?_⟩
      · rw [List.append_assoc, head.read_append]
        exact Frame.readBody_append ne size _
      · simp only [said?, Except.toOption, Option.bind_some, bad]
  | unlabelled head => exact ⟨.error .missingLength, head.read_append _, trivial, rfl⟩
  | empty head => exact ⟨.error .missingLength, head.read_append _, trivial, rfl⟩

/-! ### What can be seen of a run -/

namespace Traffic

def effects (σ : Traffic) : Move → List Effect
  | .send id method params =>
    match σ.connection.call? id, params.encode with
    | some _, .ok params =>
      if σ.unsent.contains id then (σ.connection.send (.request id method params)).2.1 else []
    | _, _ => []
  | .leave id => (σ.leaving.find? (·.1 == id)).toList.map fun (_, o) => .returned id o
  | .read => (σ.connection.readStep.map (·.2)).getD []
  | .notify method params abandoned => (σ.connection.notify method params abandoned).2.1
  | _ => []

/-- Makes moves one after the other, and watches what can be seen of them. -/
def watch? : List Move → Traffic → Option (Traffic × List Effect)
  | [], σ => some (σ, [])
  | m :: ms, σ =>
    (σ.step? m).bind fun (τ, _) => (watch? ms τ).map fun (υ, more) => (υ, σ.effects m ++ more)

theorem watch?_append (before after : List Move) (σ : Traffic) :
    watch? (before ++ after) σ =
      (watch? before σ).bind fun (τ, es) => (watch? after τ).map fun (υ, more) => (υ, es ++ more) := by
  induction before generalizing σ with
  | nil => simp [watch?]
  | cons m ms ih =>
      simp only [List.cons_append, watch?]
      cases hm : σ.step? m with
      | none => rfl
      | some p =>
          simp only [Option.bind_some, ih]
          cases hms : watch? ms p.1 with
          | none => rfl
          | some q => simp [Function.comp_def]

theorem watch?_cons_eq_some {m : Move} {ms : List Move} {σ υ : Traffic} {es : List Effect}
    (h : watch? (m :: ms) σ = some (υ, es)) :
    ∃ τ notes more, σ.step? m = some (τ, notes) ∧ watch? ms τ = some (υ, more) ∧
      es = σ.effects m ++ more := by
  obtain ⟨⟨τ, notes⟩, hm, h⟩ := Option.bind_eq_some_iff.mp h
  obtain ⟨⟨υ', more⟩, hms, he⟩ := Option.map_eq_some_iff.mp h
  cases he
  exact ⟨τ, notes, more, hm, hms, rfl⟩

theorem watch?_cons_of_step {m : Move} {ms : List Move} {σ τ : Traffic} {notes : List Note}
    (h : σ.step? m = some (τ, notes)) :
    watch? (m :: ms) σ = (watch? ms τ).map fun (υ, more) => (υ, σ.effects m ++ more) := by
  rw [watch?, h, Option.bind_some]

end Traffic

/-! ### Another stream

Whoever does not read goes on in the same way, whatever there is to be read. -/

/-- Whether a move has to do with what there is to be read. -/
def Move.isOnStream : Move → Bool
  | .read | .arrive _ => true
  | _ => false

namespace Connection

/-- A connection with other octets that were received and not read yet. -/
def withStream (s : Bytes) (c : Connection) : Connection := { c with stream := s }

variable (s : Bytes) (c : Connection)

theorem shutdown_withStream (reason : Option Error) :
    (c.withStream s).shutdown reason = (c.shutdown reason).withStream s := by
  unfold shutdown withStream
  split <;> rfl

theorem closed_shutdown (reason : Option Error) : (c.shutdown reason).closed = true := by
  unfold shutdown
  split
  · assumption
  · rfl

theorem loopTop_withStream : (c.withStream s).loopTop = c.loopTop.withStream s := by
  have hshut := shutdown_withStream s c (some (.condition .cancelled))
  unfold loopTop
  rw [hshut]
  unfold withStream
  split
  · rfl
  · split <;> rfl

theorem deliver_withStream (m : Message) : (c.withStream s).deliver m = (c.deliver m).withStream s := by
  unfold deliver withStream
  split
  · rfl
  · simp only
    split <;> rfl

theorem dispatch_withStream (m : Message) :
    (c.withStream s).dispatch m = ((c.dispatch m).1.withStream s, (c.dispatch m).2) := by
  have hdeliver := deliver_withStream s c m
  have hhandler : (c.withStream s).handlerFor m.method = c.handlerFor m.method := rfl
  cases hk : m.kind <;> simp only [dispatch, hk]
  case response => rw [hdeliver]
  case error => rw [hdeliver]
  case request => rfl
  case notification =>
    rw [hhandler]
    split <;> rfl

theorem notify_withStream (method : String) (params : Params) (abandoned : Option Condition) :
    (c.withStream s).notify method params abandoned =
      ((c.notify method params abandoned).1.withStream s, (c.notify method params abandoned).2) := by
  have hclosed : (c.withStream s).closed = c.closed := rfl
  unfold notify
  rw [hclosed]
  split
  · rfl
  · cases abandoned with
    | some e => rfl
    | none => cases params.encode <;> rfl

/-- What a round of the read loop does once it has read something behind which it
can go on. -/
def goOn (outcome : Except Frame.ReadError Bytes) (c : Connection) : Connection × List Effect :=
  match said? outcome with
  | some m => ((c.dispatch m).1.loopTop, (c.dispatch m).2)
  | none => (c.loopTop, [])

theorem goOn_withStream (outcome : Except Frame.ReadError Bytes) :
    (c.withStream s).goOn outcome = ((c.goOn outcome).1.withStream s, (c.goOn outcome).2) := by
  unfold goOn
  split
  · rw [dispatch_withStream, loopTop_withStream]
  · rw [loopTop_withStream]

/-- A round of the read loop whose read lets reading go on. -/
theorem readStep_of_passable {c : Connection} {outcome : Except Frame.ReadError Bytes} {rest : Bytes}
    (hloop : c.loopDone = false) (hread : Frame.read c.stream = ⟨outcome, rest⟩)
    (hpass : Frame.Passable outcome) : c.readStep = some ((c.withStream rest).goOn outcome) := by
  unfold readStep
  rw [if_neg (by rw [hloop]; decide)]
  simp only [hread]
  cases outcome with
  | error e =>
      cases e with
      | missingLength => rfl
      | _ => exact hpass.elim
  | ok body =>
      cases hm : parse body <;> simp only [goOn, said?, Except.toOption, Option.bind_some, hm] <;> rfl

/-! ### The end of the read loop -/

/-- The read loop has ended only if the connection is closed. -/
def LoopEnds (c : Connection) : Prop := c.loopDone = true → c.closed = true

namespace LoopEnds

variable {c : Connection}

theorem notify (h : c.LoopEnds) (method : String) (params : Params) (abandoned : Option Condition) :
    (c.notify method params abandoned).1.LoopEnds := by
  unfold Connection.notify
  split
  · exact h
  · cases abandoned with
    | some e => exact h
    | none => cases params.encode <;> exact h

theorem dispatch (h : c.LoopEnds) (m : Message) : (c.dispatch m).1.LoopEnds := by
  obtain ⟨pending, waiting, writer, hc⟩ := exists_dispatch m c
  rw [hc]
  exact h

theorem loopTop (h : c.LoopEnds) : c.loopTop.LoopEnds := by
  unfold Connection.loopTop
  split
  · exact fun _ => closed_shutdown _ _
  · split
    · next hclosed => exact fun _ => hclosed
    · exact h

theorem readStep {c' : Connection} {es : List Effect} (h : c.LoopEnds)
    (hstep : c.readStep = some (c', es)) : c'.LoopEnds := by
  have hconsume : c.consume.LoopEnds := h
  cases readStep_round hstep with
  | skipped read => exact hconsume.loopTop
  | broken read => exact fun _ => closed_shutdown _ _
  | unparsed read parsed => exact hconsume.loopTop
  | @acted body m read parsed => exact (hconsume.dispatch m).loopTop

end LoopEnds

end Connection

namespace Traffic

def withStream (s : Bytes) (σ : Traffic) : Traffic := σ.change (Connection.withStream s)

theorem withStream_self (σ : Traffic) : σ.withStream σ.connection.stream = σ := rfl

theorem withStream_withStream (s t : Bytes) (σ : Traffic) :
    (σ.withStream s).withStream t = σ.withStream t := rfl

/-- A move that has nothing to do with the stream is the same on another one. -/
theorem step?_withStream {m : Move} (h : m.isOnStream = false) (s : Bytes) {σ τ : Traffic}
    {notes : List Note} (hm : σ.step? m = some (τ, notes)) :
    (σ.withStream s).step? m = some (τ.withStream s, notes) ∧
      (σ.withStream s).effects m = σ.effects m := by
  cases m with
  -- These moves are about the stream itself, so they are excluded.
  | read => cases h
  | arrive bytes => cases h
  | send id method params =>
      obtain ⟨w, hw, hm⟩ := Option.bind_eq_some_iff.mp hm
      have hw' : (σ.withStream s).connection.call? id = some w := hw
      have hunsent : (σ.withStream s).unsent = σ.unsent := rfl
      simp only [step?, hw', Option.bind_some, effects, hw, hunsent]
      split at hm
      -- Everything the move looks at is the same with another stream.
      · next hmem =>
          rw [if_pos hmem]
          cases hp : params.encode with
          | error e =>
              rw [hp] at hm
              cases hm
              exact ⟨rfl, rfl⟩
          | ok bytes =>
              rw [hp] at hm
              simp only at hm ⊢
              have hsend : ((σ.withStream s).connection.send (.request id method bytes)) =
                  ((σ.connection.send (.request id method bytes)).1.withStream s,
                    (σ.connection.send (.request id method bytes)).2) := rfl
              rw [hsend]
              split at hm <;> cases hm
              · next hf =>
                  simp only [hf]
                  exact ⟨rfl, trivial⟩
              · next hf =>
                  simp only [hf]
                  exact ⟨rfl, trivial⟩
      · cases hm
  | wake id choice =>
      obtain ⟨w, hw, hm⟩ := Option.bind_eq_some_iff.mp hm
      have hw' : (σ.withStream s).connection.call? id = some w := hw
      have hunsent : (σ.withStream s).unsent = σ.unsent := rfl
      have hready : (σ.withStream s).connection.ready w = σ.connection.ready w := rfl
      simp only [step?, hw', Option.bind_some, hunsent, hready]
      split at hm
      · cases hm
      · next hmem =>
          obtain ⟨o, ho, he⟩ := Option.map_eq_some_iff.mp hm
          cases he
          rw [if_neg hmem, ho]
          exact ⟨rfl, rfl⟩
  | leave id =>
      obtain ⟨p, hp, he⟩ := Option.map_eq_some_iff.mp hm
      have hleaving : (σ.withStream s).leaving = σ.leaving := rfl
      cases he
      simp only [step?, effects, hleaving, hp]
      exact ⟨rfl, trivial⟩
  | close =>
      -- Closing may speak to the calls, and never reads.
      cases hm
      have hshut := Connection.shutdown_withStream s σ.connection none
      refine ⟨?_, rfl⟩
      simp only [step?, withStream, change, hshut]
  | notify method params abandoned =>
      cases hm
      have hnotify := Connection.notify_withStream s σ.connection method params abandoned
      refine ⟨?_, ?_⟩
      · simp only [step?, withStream, change, hnotify]
      · simp only [effects, withStream, change, hnotify]
  | _ =>
      cases hm
      exact ⟨rfl, rfl⟩

/-- Such a move leaves the stream as it is. -/
theorem stream_of_step? {m : Move} (h : m.isOnStream = false) {σ τ : Traffic} {notes : List Note}
    (hm : σ.step? m = some (τ, notes)) : τ.connection.stream = σ.connection.stream := by
  have hself := (step?_withStream h σ.connection.stream hm).1
  rw [withStream_self, hm] at hself
  have hsame := (Prod.mk.inj (Option.some.inj hself)).1
  exact congrArg (fun τ => τ.connection.stream) hsame

end Traffic

/-! ### What arrives -/

def arrivals (moves : List Move) : Bytes :=
  moves.flatMap fun
    | .arrive bytes => bytes
    | _ => []

/-- Octets without the `n` behind the first `k`. -/
def cut (k n : Nat) (bytes : Bytes) : Bytes := bytes.take k ++ bytes.drop (k + n)

/-- The same moves, but that the `n` octets behind the first `k` do not arrive. -/
def strike (k n : Nat) : List Move → List Move
  | [] => []
  | .arrive bytes :: ms =>
    .arrive (cut k n bytes) :: strike (k - bytes.length) (n - (bytes.length - k)) ms
  | m :: ms => m :: strike k n ms

theorem cut_append (k n : Nat) (bytes more : Bytes) :
    cut k n (bytes ++ more) = cut k n bytes ++ cut (k - bytes.length) (n - (bytes.length - k)) more := by
  unfold cut
  rw [List.take_append, List.drop_append]
  by_cases h : bytes.length ≤ k
  · have h1 : bytes.length - k = 0 := by omega
    have h2 : k + n - bytes.length = k - bytes.length + n := by omega
    rw [List.drop_eq_nil_of_le (show bytes.length ≤ k + n by omega), h1, h2]
    simp
  · have h1 : k - bytes.length = 0 := by omega
    have h2 : k + n - bytes.length = n - (bytes.length - k) := by omega
    rw [h1, h2]
    simp

theorem length_cut {k n : Nat} {bytes : Bytes} (h : k + n ≤ bytes.length) :
    (cut k n bytes).length + n = bytes.length := by
  simp only [cut, List.length_append, List.length_take, List.length_drop]
  omega

theorem arrivals_cons {m : Move} (h : m.isOnStream = false) (ms : List Move) :
    arrivals (m :: ms) = arrivals ms := by
  cases m <;> first | rfl | cases h

theorem strike_cons {m : Move} (h : m.isOnStream = false) (k n : Nat) (ms : List Move) :
    strike k n (m :: ms) = m :: strike k n ms := by
  cases m <;> first | rfl | cases h

/-- Octets that are struck from the moves are struck from what arrives. -/
theorem arrivals_strike (k n : Nat) (moves : List Move) :
    arrivals (strike k n moves) = cut k n (arrivals moves) := by
  induction moves generalizing k n with
  | nil => simp [strike, arrivals, cut]
  | cons m ms ih =>
      cases m with
      | arrive bytes =>
          have h : arrivals (.arrive bytes :: ms) = bytes ++ arrivals ms := rfl
          rw [h, cut_append, ← ih]
          rfl
      | _ => exact ih k n

/-- What stands in front of the cut is left alone. -/
theorem cut_eq_append {k n : Nat} {bytes front rest : Bytes} (h : cut k n bytes = front ++ rest)
    (hk : front.length ≤ k) :
    ∃ rest', bytes = front ++ rest' ∧ rest = cut (k - front.length) n rest' := by
  -- The front lies before the cut, so it is a front of the whole.
  have hlen : front.length ≤ bytes.length := by
    have := congrArg List.length h
    simp only [cut, List.length_append, List.length_take, List.length_drop] at this
    omega
  have hfront : front = bytes.take front.length := by
    have := congrArg (List.take front.length) h
    rw [List.take_left, cut, List.take_append_of_le_length (by rw [List.length_take]; omega),
      List.take_take, Nat.min_eq_left hk] at this
    exact this.symm
  have hbytes : bytes = front ++ bytes.drop front.length := by
    have hsplit := (List.take_append_drop front.length bytes).symm
    rwa [← hfront] at hsplit
  -- What the cut leaves of the rest is a cut of the rest, nearer by the front.
  refine ⟨bytes.drop front.length, hbytes, ?_⟩
  rw [hbytes, cut_append] at h
  have hcut : cut k n front = front := by
    rw [cut, List.take_of_length_le hk, List.drop_eq_nil_of_le (by omega), List.append_nil]
  have hn : n - (front.length - k) = n := by omega
  rw [hcut, hn] at h
  exact (List.append_cancel_left h).symm

/-! ### Two runs -/

namespace Traffic

theorem closed_of_shift {b b' : Books} {notes : List Note} (h : Shift b notes b')
    (hc : b.closed = true) : b'.closed = true := by
  cases h <;> first | exact hc | rfl

/-- A closed connection stays closed. -/
theorem step?_closed {m : Move} {σ τ : Traffic} {notes : List Note}
    (h : σ.step? m = some (τ, notes)) (hc : σ.connection.closed = true) : τ.connection.closed = true := by
  obtain ⟨b, hnoted, hquiet⟩ := step?_shifts h
  exact closed_of_shift hquiet (closed_of_shift hnoted hc)

/-- A closed connection stays closed. -/
theorem watch?_closed {moves : List Move} {σ τ : Traffic} {es : List Effect}
    (h : watch? moves σ = some (τ, es)) (hc : σ.connection.closed = true) :
    τ.connection.closed = true := by
  induction moves generalizing σ es with
  | nil => cases h; exact hc
  | cons m ms ih =>
      obtain ⟨υ, notes, more, hm, hms, _⟩ := watch?_cons_eq_some h
      exact ih hms (step?_closed hm hc)

/-- What was read last was something behind which reading can go on, if the
connection is still open. -/
theorem read_passable {σ τ : Traffic} {notes : List Note} (h : σ.step? .read = some (τ, notes))
    (hopen : τ.connection.closed = false) :
    σ.connection.loopDone = false ∧ Frame.Passable (Frame.read σ.connection.stream).outcome := by
  obtain ⟨⟨c, es⟩, hc, he⟩ := Option.map_eq_some_iff.mp h
  cases he
  refine ⟨?_, ?_⟩
  · cases hdone : σ.connection.loopDone with
    | false => rfl
    | true => rw [Connection.readStep, if_pos hdone] at hc; cases hc
  · cases Connection.readStep_round hc with
    | skipped read => rw [read]; trivial
    | @broken e read =>
        have hclosed := Connection.closed_shutdown σ.connection.consume (some e.toError)
        cases hclosed.symm.trans hopen
    | unparsed read parsed => rw [read]; trivial
    | acted read parsed => rw [read]; trivial

/-- A round of the read loop takes something off the stream; what stands behind it
may be anything. -/
theorem step?_read {σ τ : Traffic} {notes : List Note} (h : σ.step? .read = some (τ, notes))
    (hopen : τ.connection.closed = false) :
    ∃ front, σ.connection.stream = front ++ τ.connection.stream ∧
      ∀ more, ∃ notes', (σ.withStream (front ++ more)).step? .read = some (τ.withStream more, notes') ∧
        (σ.withStream (front ++ more)).effects .read = σ.effects .read := by
  obtain ⟨hloop, hpass⟩ := read_passable h hopen
  obtain ⟨front, hstream, hread⟩ := Frame.read_eq_of_passable hpass
  generalize (Frame.read σ.connection.stream).outcome = outcome at hpass hread
  generalize (Frame.read σ.connection.stream).rest = rest at hstream
  -- the same round on any stream that begins alike
  have hround (more : Bytes) : (σ.withStream (front ++ more)).connection.readStep =
      some ((σ.connection.goOn outcome).1.withStream more, (σ.connection.goOn outcome).2) := by
    rw [← Connection.goOn_withStream]
    exact Connection.readStep_of_passable (c := σ.connection.withStream (front ++ more)) hloop
      (hread more) hpass
  have hself : σ.withStream (front ++ rest) = σ := by rw [← hstream, withStream_self]
  have hstep (more : Bytes) : (σ.withStream (front ++ more)).step? .read =
      some (⟨(σ.connection.goOn outcome).1.withStream more, σ.unsent, σ.leaving⟩,
        (σ.withStream (front ++ more)).connection.frame?.toList.map .received) := by
    rw [step?, hround, Option.map_some]
    rfl
  have hτ := hstep rest
  rw [hself, h] at hτ
  obtain ⟨rfl, -⟩ := Prod.mk.inj (Option.some.inj hτ)
  refine ⟨front, hstream, fun more => ⟨_, hstep more, ?_⟩⟩
  have heffects (more : Bytes) :
      (σ.withStream (front ++ more)).effects .read = (σ.connection.goOn outcome).2 := by
    rw [effects, hround]
    rfl
  rw [heffects more, ← heffects rest, hself]

theorem open_of_watch? {moves : List Move} {σ τ : Traffic} {es : List Effect}
    (h : watch? moves σ = some (τ, es)) (hopen : τ.connection.closed = false) :
    σ.connection.closed = false := by
  by_contra hc
  rw [watch?_closed h (by simpa using hc)] at hopen
  cases hopen

/-- What is left to be read was there before or has arrived since. -/
theorem length_stream_le {moves : List Move} {σ τ : Traffic} {es : List Effect}
    (h : watch? moves σ = some (τ, es)) (hopen : τ.connection.closed = false) :
    τ.connection.stream.length ≤ σ.connection.stream.length + (arrivals moves).length := by
  induction moves generalizing σ es with
  | nil => cases h; simp [arrivals]
  | cons m ms ih =>
      obtain ⟨υ, notes, more, hm, hms, _⟩ := watch?_cons_eq_some h
      have hrest := ih hms
      cases hs : m.isOnStream with
      | false =>
          rw [arrivals_cons hs]
          rwa [stream_of_step? hs hm] at hrest
      | true =>
          cases m with
          | arrive bytes =>
              cases hm
              have hall : arrivals (.arrive bytes :: ms) = bytes ++ arrivals ms := rfl
              rw [hall, List.length_append]
              simp only [change, List.length_append] at hrest
              omega
          | read =>
              obtain ⟨front, hstream, _⟩ := step?_read hm (open_of_watch? hms hopen)
              have hall : arrivals (.read :: ms) = arrivals ms := rfl
              rw [hall, hstream, List.length_append]
              omega
          | _ => cases hs

/-- **Up to where octets were taken out, both runs do the same.** `k` octets stand
in front of the `n` that are missing, and the reader takes these `k` and no more. -/
theorem watch?_strike {moves : List Move} {σ τ : Traffic} {es : List Effect} {k n : Nat} {s : Bytes}
    (h : watch? (strike (k - s.length) (n - (s.length - k)) moves) (σ.withStream (cut k n s)) =
      some (τ, es))
    (hcount : k + n + τ.connection.stream.length = s.length + (arrivals moves).length)
    (hopen : τ.connection.closed = false) :
    watch? moves (σ.withStream s) = some (τ.withStream ((s ++ arrivals moves).drop k), es) := by
  induction moves generalizing σ es k s with
  | nil =>
      cases h
      -- everything in front of the gap was read
      have hlen : (cut k n s).length + n = s.length := by
        apply length_cut
        simp only [arrivals, List.flatMap_nil, List.length_nil] at hcount
        omega
      have hk : k = 0 := by
        have hgap : k + n + (cut k n s).length = s.length := hcount
        omega
      subst hk
      have hall : (s ++ arrivals []).drop 0 = s := List.append_nil s
      rw [hall]
      rfl
  | cons m ms ih =>
      cases hs : m.isOnStream with
      | false =>
          rw [strike_cons hs] at h
          rw [arrivals_cons hs] at hcount ⊢
          obtain ⟨υ, notes, more, hm, hms, rfl⟩ := watch?_cons_eq_some h
          obtain ⟨hm', heffects⟩ := step?_withStream hs s hm
          rw [withStream_withStream] at hm' heffects
          have hυ : υ = υ.withStream (cut k n s) :=
            congrArg υ.withStream (stream_of_step? hs hm)
          rw [hυ] at hms
          rw [watch?_cons_of_step hm', ih hms hcount, Option.map_some, heffects]
      | true =>
          cases m with
          | arrive bytes =>
              obtain ⟨υ, notes, more, hm, hms, rfl⟩ := watch?_cons_eq_some h
              cases hm
              have hall : arrivals (.arrive bytes :: ms) = bytes ++ arrivals ms := rfl
              -- what arrives is cut where the stream is too short to be cut
              have hcut : (σ.withStream (cut k n s)).change (fun c => { c with
                  stream := c.stream ++ cut (k - s.length) (n - (s.length - k)) bytes }) =
                  σ.withStream (cut k n (s ++ bytes)) := by
                rw [cut_append]
                rfl
              have hbefore : k - s.length - bytes.length = k - (s ++ bytes).length := by
                rw [List.length_append]
                omega
              have hgap : n - (s.length - k) - (bytes.length - (k - s.length)) =
                  n - ((s ++ bytes).length - k) := by
                rw [List.length_append]
                omega
              rw [hcut, hbefore, hgap] at hms
              have hrest := ih hms (by
                rw [hall, List.length_append] at hcount
                rw [List.length_append]
                omega)
              have hmove : (σ.withStream s).step? (.arrive bytes) =
                  some (σ.withStream (s ++ bytes), []) := rfl
              rw [watch?_cons_of_step hmove, hrest, Option.map_some, hall, List.append_assoc]
              rfl
          | read =>
              obtain ⟨υ, notes, more, hm, hms, rfl⟩ := watch?_cons_eq_some h
              have hall : arrivals (.read :: ms) = arrivals ms := rfl
              rw [hall] at hcount ⊢
              obtain ⟨front, hstream, hany⟩ := step?_read hm (open_of_watch? hms hopen)
              have hstream : cut k n s = front ++ υ.connection.stream := hstream
              have hfront : front.length ≤ k := by
                have hleft := length_stream_le hms hopen
                have hlen := @length_cut k n (s ++ arrivals ms)
                  (by rw [List.length_append]; omega)
                rw [arrivals_strike] at hleft
                rw [cut_append, hstream] at hlen
                simp only [List.length_append] at hlen
                omega
              obtain ⟨s', rfl, hυ⟩ := cut_eq_append hstream hfront
              have hbefore : k - (front ++ s').length = k - front.length - s'.length := by
                rw [List.length_append]
                omega
              have hgap : n - ((front ++ s').length - k) = n - (s'.length - (k - front.length)) := by
                rw [List.length_append]
                omega
              rw [hbefore, hgap, show υ = υ.withStream _ from congrArg υ.withStream hυ] at hms
              have hrest := ih hms (by
                rw [List.length_append] at hcount
                omega)
              obtain ⟨notes', hm', heffects⟩ := hany s'
              rw [withStream_withStream] at hm' heffects
              have hdrop : (front ++ s' ++ arrivals ms).drop k =
                  (s' ++ arrivals ms).drop (k - front.length) := by
                rw [List.append_assoc, List.drop_append, List.drop_eq_nil_of_le hfront,
                  List.nil_append]
              rw [watch?_cons_of_step hm', hrest, Option.map_some, heffects, hdrop]
          | _ => cases hs

/-- The read loop ends only with the connection. -/
theorem step?_loopEnds {m : Move} {σ τ : Traffic} {notes : List Note}
    (h : σ.step? m = some (τ, notes)) (hσ : σ.connection.LoopEnds) : τ.connection.LoopEnds := by
  cases m with
  -- The moves that neither read nor close leave the flags as they are.
  | send id method params =>
      obtain ⟨w, hw, h⟩ := Option.bind_eq_some_iff.mp h
      split at h
      · cases hp : params.encode with
        | error e => rw [hp] at h; cases h; exact hσ
        | ok bytes =>
            rw [hp] at h
            simp only at h
            split at h <;> cases h <;> exact hσ
      · cases h
  | wake id choice =>
      obtain ⟨w, hw, h⟩ := Option.bind_eq_some_iff.mp h
      split at h
      · cases h
      · obtain ⟨o, ho, he⟩ := Option.map_eq_some_iff.mp h
        cases he
        exact hσ
  | leave id =>
      obtain ⟨p, hp, he⟩ := Option.map_eq_some_iff.mp h
      cases he
      exact hσ
  | read =>
      obtain ⟨⟨c, es⟩, hc, he⟩ := Option.map_eq_some_iff.mp h
      cases he
      exact hσ.readStep hc
  | close =>
      cases h
      exact fun _ => Connection.closed_shutdown _ _
  | notify method params abandoned =>
      cases h
      exact hσ.notify method params abandoned
  | _ =>
      cases h
      exact hσ

theorem watch?_loopEnds {moves : List Move} {σ τ : Traffic} {es : List Effect}
    (h : watch? moves σ = some (τ, es)) (hσ : σ.connection.LoopEnds) : τ.connection.LoopEnds := by
  induction moves generalizing σ es with
  | nil => cases h; exact hσ
  | cons m ms ih =>
      obtain ⟨υ, notes, more, hm, hms, _⟩ := watch?_cons_eq_some h
      exact ih hms (step?_loopEnds hm hσ)

/-! ### Noise does nothing -/

/-- **The round of the read loop that takes noise does nothing else.** -/
theorem step?_read_noise {noise : Bytes} (h : Noise noise) {σ : Traffic}
    (hopen : σ.connection.closed = false) (hctx : σ.connection.loopCancelled = false)
    (hloop : σ.connection.loopDone = false) :
    ∃ notes, (σ.withStream (noise ++ σ.connection.stream)).step? .read = some (σ, notes) ∧
      (σ.withStream (noise ++ σ.connection.stream)).effects .read = [] := by
  obtain ⟨outcome, hread, hpass, hnone⟩ := h.read_append σ.connection.stream
  have hgo : σ.connection.goOn outcome = (σ.connection, []) := by
    simp only [Connection.goOn, hnone, Connection.loopTop, hctx, hopen, Bool.false_eq_true, if_false]
  have hstep := Connection.readStep_of_passable
    (c := σ.connection.withStream (noise ++ σ.connection.stream)) hloop hread hpass
  have hround : (σ.withStream (noise ++ σ.connection.stream)).connection.readStep =
      some (σ.connection, []) := hstep.trans (congrArg some hgo)
  refine ⟨_, by rw [step?, hround]; rfl, by rw [effects, hround]; rfl⟩

end Traffic

/-- **Bad input is isolated.** Take any run of a connection, and insert noise into
what arrives in it: behind octets that the read loop has all taken by some moment,
while the connection is open and the loop is not asked to end. The noise may arrive
in any pieces and at any times, before or after the moment. Then the run with the
noise, in which the read loop makes one more round at that moment, can be made if
and only if the run without it can be made. The same can be seen of both, in the same
order: the notifications that reached a handler, what was written, and how every
call returned. And they end in the same state, with the same reason for which the
connection was closed. -/
theorem noise_isolated {hasCloser : Bool} {before : List Move} {front noise : Bytes} {σ : Traffic}
    {es : List Effect} (hnoise : Noise noise)
    (hreached : Traffic.watch? (strike front.length noise.length before) (.opened hasCloser) =
      some (σ, es))
    (harrived : arrivals before = front ++ noise ++ σ.connection.stream)
    (hopen : σ.connection.closed = false) (hctx : σ.connection.loopCancelled = false)
    (after : List Move) :
    Traffic.watch? (before ++ .read :: after) (.opened hasCloser) =
      Traffic.watch? (strike front.length noise.length before ++ after) (.opened hasCloser) := by
  have hloop : σ.connection.loopDone = false := by
    by_contra hdone
    have hclosed := Traffic.watch?_loopEnds hreached (by intro h; cases h) (by simpa using hdone)
    rw [hopen] at hclosed
    cases hclosed
  -- nothing has arrived at the beginning
  have hstart : Traffic.watch? (strike (front.length - ([] : Bytes).length)
      (noise.length - (([] : Bytes).length - front.length)) before)
      ((Traffic.opened hasCloser).withStream (cut front.length noise.length [])) = some (σ, es) := by
    have hcut : cut front.length noise.length [] = [] := by simp [cut]
    rw [hcut, List.length_nil, Nat.sub_zero, Nat.zero_sub, Nat.sub_zero]
    exact hreached
  have hsame : Traffic.watch? before (.opened hasCloser) =
      some (σ.withStream (([] ++ arrivals before).drop front.length), es) :=
    Traffic.watch?_strike (s := []) hstart
      (by rw [harrived]; simp only [List.length_append, List.length_nil]; omega) hopen
  rw [List.nil_append, harrived, List.append_assoc, List.drop_left] at hsame
  obtain ⟨notes, hread, hquiet⟩ := Traffic.step?_read_noise hnoise hopen hctx hloop
  have hround : Traffic.watch? (.read :: after) (σ.withStream (noise ++ σ.connection.stream)) =
      Traffic.watch? after σ := by
    rw [Traffic.watch?_cons_of_step hread, hquiet]
    exact congrFun Option.map_id_fun _
  rw [Traffic.watch?_append, Traffic.watch?_append, hreached, hsame]
  simp only [Option.bind_some, hround]

/-- A notification for which there is a handler. -/
def statusFrame : Bytes := Frame.encode (utf8 "\x7b\"jsonrpc\":\"2.0\",\"method\":\"status\"\x7d")

def brokenBody : Bytes := utf8 "\x7b]"

/-- The response to the first call. -/
def answerFrame : Bytes := Frame.encode (utf8 "\x7b\"jsonrpc\":\"2.0\",\"id\":1,\"result\":7\x7d")

/-- A peer sends a notification, a body that is no message, and the response to a
call. The body arrives in two pieces, the first of them with the notification. -/
def brokenBodyMoves : List Move :=
  [.handle "status" (some "shown"), .begin none, .send 1 "initialize" .absent,
    .arrive (statusFrame ++ (Frame.encode brokenBody).take 20), .read,
    .arrive ((Frame.encode brokenBody).drop 20 ++ answerFrame)]

/-- The handler that an effect reached, or the call that returned with it. -/
def Effect.target? : Effect → Option (String ⊕ Nat)
  | .wrote _ => none
  | .notified label _ _ => some (.inl label)
  | .returned id _ => some (.inr id)

theorem brokenBody_unparsed : ∃ e, parse brokenBody = .error e := by
  have h : (parse brokenBody).isOk = false := by decide +kernel
  cases hp : parse brokenBody with
  | ok m => rw [hp] at h; cases h
  | error e => exact ⟨e, rfl⟩

theorem brokenBodyMoves_watched :
    ∃ p, Traffic.watch? (strike statusFrame.length (Frame.encode brokenBody).length brokenBodyMoves)
        (.opened true) = some p ∧
      (p.1.connection.closed, p.1.connection.loopCancelled, p.1.connection.stream) =
        (false, false, answerFrame) :=
  Option.map_eq_some_iff.mp (by decide +kernel)

/-- The notification reaches its handler and the call returns, with the broken body
between them. -/
theorem brokenBody_isolated :
    Noise (Frame.encode brokenBody) ∧
    Traffic.watch? (brokenBodyMoves ++ .read :: [.read, .wake 1 0, .leave 1]) (.opened true) =
      Traffic.watch? (strike statusFrame.length (Frame.encode brokenBody).length brokenBodyMoves ++
        [.read, .wake 1 0, .leave 1]) (.opened true) ∧
    (Traffic.watch? (brokenBodyMoves ++ .read :: [.read, .wake 1 0, .leave 1]) (.opened true)).map
      (fun p => p.2.filterMap Effect.target?) = some [.inl "shown", .inr 1] := by
  obtain ⟨e, hbad⟩ := brokenBody_unparsed
  have hnoise : Noise (Frame.encode brokenBody) := noise_encode (by decide) (by decide) hbad
  obtain ⟨⟨σ, es⟩, hreached, hfacts⟩ := brokenBodyMoves_watched
  obtain ⟨hopen, hfacts⟩ := Prod.mk.inj hfacts
  obtain ⟨hctx, hstream⟩ := Prod.mk.inj hfacts
  have harrived : arrivals brokenBodyMoves =
      statusFrame ++ Frame.encode brokenBody ++ σ.connection.stream := by
    rw [show σ.connection.stream = answerFrame from hstream]
    decide +kernel
  refine ⟨hnoise, noise_isolated hnoise hreached harrived hopen hctx _, ?_⟩
  decide +kernel

end LanguageClient.Rpc
