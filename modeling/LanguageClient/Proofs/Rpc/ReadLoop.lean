import LanguageClient.Proofs.Rpc.Items
import LanguageClient.Proofs.Rpc.Reception

/-! # The read loop comes to an end.

A round of the read loop is two moves here, since a handler that is called in it may do
whatever it likes before the loop looks again whether it may go on: `take?` takes an item
off the stream and acts on it, and then the loop looks. Together they are the round
(`readStep_eq_take?`). A `Loop` is a connection at work with its read loop in such pieces,
and others may do anything between them, as often as they like.

Each move of the loop leaves less for it to do (`toil_step?`), on a stream that has ended
it can always make one (`exists_own_move`), what it has acted on is the beginning of what
the stream carries (`Progress.step?`), and what can be seen of that is what the messages
ask for (`Acted.Due`). These together are `reading_ends`. -/

namespace LanguageClient.Rpc

/-! ### Messages that are acted on -/

/-- A message that was acted on, with the handler that was registered for its method then,
and what could be seen of it. -/
structure Acted where
  message : Message
  handler : Handler
  effects : List Effect

/-- What can be seen of acting on a message is what its kind asks for. -/
inductive Acted.Due (a : Acted) : Prop where
  /-- A response is for the call that waits for it, and for nobody else. -/
  | response (kind : a.message.kind = .response ∨ a.message.kind = .error) (effects : a.effects = [])
  /-- A notification is passed on as it came, if there is somebody to handle it. -/
  | notification (kind : a.message.kind = .notification)
      (effects : a.effects = a.handler.toList.map fun label =>
        .notified label a.message.method a.message.params)
  /-- A request is refused, if anything can still be written. -/
  | request (kind : a.message.kind = .request)
      (effects : a.effects = [] ∨ ∃ frame, a.effects = [.wrote frame] ∧
        Frame.Written (Outgoing.refusal (a.message.id.getD []) a.message.method).bytes frame)

/-! ### One round in two moves -/

namespace Connection

/-- What is seen of acting on a message. -/
def record (c : Connection) (m : Message) : Acted := ⟨m, c.handlerFor m.method, (c.dispatch m).2⟩

theorem due_record (c : Connection) (m : Message) : (c.record m).Due := by
  cases hkind : m.kind with
  | response => exact .response (.inl hkind) (by simp only [record, dispatch, hkind])
  | error => exact .response (.inr hkind) (by simp only [record, dispatch, hkind])
  | notification =>
      refine .notification hkind ?_
      simp only [record, dispatch, hkind]
      split
      · next label hlabel => rw [hlabel]; rfl
      · next hnone => rw [hnone]; rfl
  | request =>
      refine .request hkind ?_
      simp only [record, dispatch, hkind, send]
      split
      · exact Or.inl rfl
      · next hwrote =>
          exact Or.inr ⟨_, rfl, Frame.written_of_write fun hnone => hwrote (by rw [hnone]; rfl)⟩

/-- A message is acted on, if there is one. -/
def acted (m : Option Message) (c : Connection) : Connection :=
  match m with
  | some m => (c.dispatch m).1
  | none => c

/-- What the read loop does between two looks: it takes what stands at the front of the
stream, and acts on it if it is a message. `none` if the loop has ended or has to wait. -/
def take? (c : Connection) : Option (Connection × Option Acted) :=
  if c.loopDone then none
  else
    match (Frame.read c.stream).outcome with
    | .error e =>
      if c.isBlocked e then none
      else if e = .missingLength then some (c.consume, none)
      else some ({ c.consume.shutdown (some e.toError) with loopDone := true }, none)
    | .ok body =>
      some (c.consume.acted (parse body).toOption, (parse body).toOption.map c.consume.record)

/-- A loop that has ended with its connection ends no further. -/
theorem loopTop_of_done {c : Connection} (hdone : c.loopDone = true) (hclosed : c.closed = true) :
    c.loopTop = c := by
  cases c
  subst hdone hclosed
  simp [loopTop, shutdown]

/-- **A round of the read loop is to take something and to look.** -/
theorem readStep_eq_take? (c : Connection) :
    c.readStep = c.take?.map fun (c', a) => (c'.loopTop, a.toList.flatMap Acted.effects) := by
  unfold readStep take?
  split
  · rfl
  · simp only
    cases houtcome : (Frame.read c.stream).outcome with
    | error e =>
        simp only
        split
        · rfl
        · split
          · rfl
          -- A closed connection ends the loop at its top, which has already happened.
          · have htop := @loopTop_of_done { c.consume.shutdown (some e.toError) with loopDone := true }
              rfl (closed_shutdown c.consume (some e.toError))
            exact congrArg (fun d => some (d, [])) htop.symm
    | ok body =>
        simp only
        cases parse body with
        | error e => rfl
        | ok m =>
            exact congrArg (fun es => some ((c.consume.dispatch m).1.loopTop, es))
              (List.append_nil _).symm

/-- What the loop can have done between two looks. -/
inductive Taken (c : Connection) : Connection → Option Acted → Prop where
  /-- An item was taken off the stream. -/
  | item (pass : Frame.Passable (Frame.read c.stream).outcome) :
      Taken c (c.consume.acted (said? (Frame.read c.stream).outcome))
        ((said? (Frame.read c.stream).outcome).map c.consume.record)
  /-- There is no item, and there will be none, whatever arrives. -/
  | broken {e : Frame.ReadError} (read : (Frame.read c.stream).outcome = .error e)
      (last : c.ended = true ∧ ¬ Frame.Passable (Frame.read c.stream).outcome ∨ Frame.Fatal e) :
      Taken c { c.consume.shutdown (some e.toError) with loopDone := true } none

/-- What the loop takes is what the frame in front of the stream stands for. -/
theorem taken_of_take? {c c' : Connection} {a : Option Acted} (h : c.take? = some (c', a)) :
    c.loopDone = false ∧ Taken c c' a := by
  unfold take? at h
  split at h
  · cases h
  · next hloop =>
      refine ⟨by simpa using hloop, ?_⟩
      split at h
      · next e he =>
          split at h
          · cases h
          · next hblocked =>
              split at h
              · next hmissing =>
                  cases h
                  subst hmissing
                  have hitem := @Taken.item c (by rw [he]; trivial)
                  rw [he] at hitem
                  exact hitem
              · next hmissing =>
                  cases h
                  refine .broken he ?_
                  -- Every other error ends the loop: octets are missing, or they are no frame.
                  rw [he]
                  cases e with
                  | missingLength => exact absurd rfl hmissing
                  | badLength value => exact Or.inr trivial
                  | tooLarge n => exact Or.inr trivial
                  | _ => exact Or.inl ⟨by simpa [isBlocked] using hblocked, id⟩
      · next body hbody =>
          cases h
          have hitem := @Taken.item c (by rw [hbody]; trivial)
          rw [hbody] at hitem
          exact hitem

/-- On a stream that has ended the loop need not wait. -/
theorem take?_isSome {c : Connection} (hloop : c.loopDone = false) (hended : c.ended = true) :
    c.take?.isSome := by
  have hunblocked : ∀ e, c.isBlocked e = false := by
    intro e
    cases e <;> simp [isBlocked, hended]
  unfold take?
  rw [if_neg (by rw [hloop]; decide)]
  split
  · rw [if_neg (by rw [hunblocked]; decide)]
    split <;> rfl
  · rfl

/-- There is the same to be read, and the loop stands where it stood. -/
structure SameInput (c c' : Connection) : Prop where
  stream : c'.stream = c.stream
  ended : c'.ended = c.ended
  loopDone : c'.loopDone = c.loopDone
  loopCancelled : c'.loopCancelled = c.loopCancelled

theorem shutdown_sameInput (reason : Option Error) (c : Connection) :
    SameInput c (c.shutdown reason) := by
  unfold shutdown
  split <;> exact ⟨rfl, rfl, rfl, rfl⟩

/-- Acting on a message has nothing to do with what there is to be read, and closes nothing. -/
theorem acted_sameInput (m : Option Message) (c : Connection) :
    SameInput c (c.acted m) ∧ (c.acted m).closed = c.closed := by
  cases m with
  | none => exact ⟨⟨rfl, rfl, rfl, rfl⟩, rfl⟩
  | some m =>
      obtain ⟨pending, waiting, writer, hc⟩ := exists_dispatch m c
      have hacted : c.acted (some m) = _ := hc
      rw [hacted]
      exact ⟨⟨rfl, rfl, rfl, rfl⟩, rfl⟩

/-- The loop that looks goes on as it is, or it ends with its connection. -/
theorem loopTop_cases (c : Connection) :
    c.loopTop = c ∨ (c.loopCancelled = true ∨ c.closed = true) ∧
      c.loopTop.loopDone = true ∧ c.loopTop.ended = c.ended := by
  unfold loopTop
  split
  · next hcancelled => exact Or.inr ⟨Or.inl hcancelled, rfl, (shutdown_sameInput _ c).ended⟩
  · split
    · next hclosed => exact Or.inr ⟨Or.inr hclosed, rfl, rfl⟩
    · exact Or.inl rfl

/-- Where something was taken there was something, unless it was the last time. -/
theorem Taken.cases {c c' : Connection} {a : Option Acted} (h : Taken c c' a) :
    (c'.loopDone = c.loopDone ∧ c'.stream.length < c.stream.length ∨ c'.loopDone = true) ∧
      c'.ended = c.ended := by
  cases h with
  | item pass =>
      obtain ⟨hsame, -⟩ := acted_sameInput (said? (Frame.read c.stream).outcome) c.consume
      have hne : c.stream ≠ [] := by
        intro hnil
        rw [hnil] at pass
        exact pass
      refine ⟨Or.inl ⟨hsame.loopDone, ?_⟩, hsame.ended⟩
      rw [hsame.stream]
      exact Frame.length_read hne
  | @broken e read last => exact ⟨Or.inr rfl, (shutdown_sameInput (some e.toError) c.consume).ended⟩

end Connection

/-! ### Others -/

/-- What somebody does who is not the read loop: it adds to the stream what arrives, and lets the
loop go on unless it closes the connection or asks the loop to end. -/
structure Beside (m : Move) (c c' : Connection) : Prop where
  stream : c'.stream = c.stream ++ arrivals [m]
  loopDone : c'.loopDone = c.loopDone
  ended : c.ended = true → c'.ended = true
  calm : m ≠ .close → m ≠ .cancelLoop → c'.closed = c.closed ∧ c'.loopCancelled = c.loopCancelled

/-- What others do changes the input of the loop only by adding octets, by its end, or by closing. -/
theorem beside_of_step? {m : Move} (hm : m ≠ .read) {σ τ : Traffic} {notes : List Note}
    (h : σ.step? m = some (τ, notes)) : Beside m σ.connection τ.connection := by
  -- What most moves have in common: the input stays as it is.
  have hinput : ∀ {m : Move} {c c' : Connection}, arrivals [m] = [] → c.SameInput c' →
      (m ≠ .close → c'.closed = c.closed) → Beside m c c' := by
    intro m c c' harrivals hc hclosed
    exact ⟨by rw [harrivals, List.append_nil, hc.stream], hc.loopDone, fun he => hc.ended.trans he,
      fun hm _ => ⟨hclosed hm, hc.loopCancelled⟩⟩
  have hsame : ∀ {m : Move} {c c' : Connection}, arrivals [m] = [] → c.SameInput c' →
      c'.closed = c.closed → Beside m c c' :=
    fun harrivals hc hclosed => hinput harrivals hc fun _ => hclosed
  cases m with
  | read => exact absurd rfl hm
  | arrive bytes =>
      cases h
      have harrivals : arrivals [.arrive bytes] = bytes := List.append_nil bytes
      exact ⟨by rw [harrivals]; rfl, rfl, id, fun _ _ => ⟨rfl, rfl⟩⟩
  | hangup =>
      cases h
      exact ⟨(List.append_nil _).symm, rfl, fun _ => rfl, fun _ _ => ⟨rfl, rfl⟩⟩
  | cancelLoop =>
      cases h
      exact ⟨(List.append_nil _).symm, rfl, id, fun _ hne => absurd rfl hne⟩
  | close =>
      cases h
      exact hinput rfl (Connection.shutdown_sameInput _ _) fun hne => absurd rfl hne
  | send id method params =>
      obtain ⟨w, hw, h⟩ := Option.bind_eq_some_iff.mp h
      obtain ⟨-, h⟩ := Option.ite_none_right_eq_some.mp h
      split at h
      · cases h
        exact hsame rfl ⟨rfl, rfl, rfl, rfl⟩ rfl
      · simp only at h
        split at h <;> cases h <;> exact hsame rfl ⟨rfl, rfl, rfl, rfl⟩ rfl
  | wake id choice =>
      obtain ⟨w, hw, h⟩ := Option.bind_eq_some_iff.mp h
      obtain ⟨-, h⟩ := Option.ite_none_left_eq_some.mp h
      obtain ⟨o, -, he⟩ := Option.map_eq_some_iff.mp h
      cases he
      exact hsame rfl ⟨rfl, rfl, rfl, rfl⟩ rfl
  | leave id =>
      obtain ⟨p, -, he⟩ := Option.map_eq_some_iff.mp h
      cases he
      exact hsame rfl ⟨rfl, rfl, rfl, rfl⟩ rfl
  | notify method params abandoned =>
      cases h
      simp only [Traffic.change, Connection.notify]
      repeat' split
      all_goals exact hsame rfl ⟨rfl, rfl, rfl, rfl⟩ rfl
  | _ =>
      cases h
      exact hsame rfl ⟨rfl, rfl, rfl, rfl⟩ rfl

/-! ### The loop among others -/

/-- A connection at work, and where its read loop stands. -/
structure Loop where
  traffic : Traffic
  /-- Whether the loop is about to look whether it may go on. -/
  looks : Bool := true

namespace Loop

/-- What can happen to a loop in one go. -/
inductive Move where
  /-- The loop looks whether it was asked to end or the connection is closed. -/
  | look
  /-- The loop takes what stands at the front of the stream and acts on it. -/
  | take
  /-- Somebody else does something. It may be a handler that the loop has called and that
  returns before the loop looks again. -/
  | other (m : Rpc.Move)

def Move.own : Move → Bool
  | .other _ => false
  | _ => true

/-- Moves that others cannot make: nobody else reads, and nothing arrives any more on a stream
that has ended. -/
def barred (c : Connection) : Rpc.Move → Bool
  | .read => true
  | .arrive _ => c.ended
  | _ => false

def connection (l : Loop) : Connection := l.traffic.connection

/-- What a move leads to, and the message that was acted on in it; `none` if it cannot be made. -/
def step? (l : Loop) : Move → Option (Loop × Option Acted)
  | .look =>
    if l.looks && !l.connection.loopDone then
      some (⟨l.traffic.change Connection.loopTop, false⟩, none)
    else none
  | .take =>
    if l.looks then none
    else l.connection.take?.map fun (c, a) => (⟨{ l.traffic with connection := c }, true⟩, a)
  | .other m =>
    if barred l.connection m then none
    else (l.traffic.step? m).map fun (σ, _) => ({ l with traffic := σ }, none)

/-- Makes moves one after the other, and gives the messages that were acted on. -/
def play? : List Move → Loop → Option (Loop × List Acted)
  | [], l => some (l, [])
  | m :: ms, l =>
    (l.step? m).bind fun (k, said) => (play? ms k).map fun (υ, more) => (υ, said.toList ++ more)

def opened (hasCloser : Bool) : Loop := { traffic := .opened hasCloser }

def arrived (moves : List Move) : Bytes :=
  moves.flatMap fun
    | .other m => arrivals [m]
    | _ => []

/-- Nobody closes the connection or asks the loop to end. -/
def Calm (moves : List Move) : Prop := ∀ m ∈ moves, m ≠ .other .close ∧ m ≠ .other .cancelLoop

theorem play?_cons_eq_some {m : Move} {ms : List Move} {l υ : Loop} {said : List Acted}
    (h : play? (m :: ms) l = some (υ, said)) :
    ∃ k first more, l.step? m = some (k, first) ∧ play? ms k = some (υ, more) ∧
      said = first.toList ++ more := by
  obtain ⟨⟨k, first⟩, hm, h⟩ := Option.bind_eq_some_iff.mp h
  obtain ⟨⟨υ', more⟩, hms, he⟩ := Option.map_eq_some_iff.mp h
  cases he
  exact ⟨k, first, more, hm, hms, rfl⟩

/-- What one move does, by who makes it. -/
inductive Steps (l : Loop) : Move → Loop → Option Acted → Prop where
  | looked (hlooks : l.looks = true) (running : l.connection.loopDone = false) :
      Steps l .look ⟨l.traffic.change Connection.loopTop, false⟩ none
  | took {c : Connection} {a : Option Acted} (hlooks : l.looks = false)
      (running : l.connection.loopDone = false) (taken : l.connection.Taken c a) :
      Steps l .take ⟨{ l.traffic with connection := c }, true⟩ a
  | another {m : Rpc.Move} {σ : Traffic} {notes : List Note} (allowed : barred l.connection m = false)
      (moved : l.traffic.step? m = some (σ, notes)) (beside : Beside m l.connection σ.connection) :
      Steps l (.other m) { l with traffic := σ } none

theorem steps_of_step? {l k : Loop} {m : Move} {said : Option Acted}
    (h : l.step? m = some (k, said)) : l.Steps m k said := by
  cases m with
  | look =>
      obtain ⟨hlooks, he⟩ := Option.ite_none_right_eq_some.mp h
      cases he
      rw [Bool.and_eq_true, Bool.not_eq_true'] at hlooks
      exact .looked hlooks.1 hlooks.2
  | take =>
      obtain ⟨hlooks, h⟩ := Option.ite_none_left_eq_some.mp h
      obtain ⟨⟨c, m⟩, hc, he⟩ := Option.map_eq_some_iff.mp h
      cases he
      obtain ⟨hrunning, htaken⟩ := Connection.taken_of_take? hc
      exact .took (by simpa using hlooks) hrunning htaken
  | other m =>
      obtain ⟨hallowed, h⟩ := Option.ite_none_left_eq_some.mp h
      obtain ⟨⟨σ, notes⟩, hm, he⟩ := Option.map_eq_some_iff.mp h
      cases he
      have hne : m ≠ .read := fun hread => hallowed (by rw [hread]; rfl)
      exact .another (by simpa using hallowed) hm (beside_of_step? hne hm)

/-! ### The loop ends -/

/-- How much there is left for the loop to do. -/
def toil (l : Loop) : Nat :=
  if l.connection.loopDone then 0
  else 2 * l.connection.stream.length + 2 + (if l.looks then 1 else 0)

theorem toil_of_done {l : Loop} (h : l.connection.loopDone = true) : l.toil = 0 := if_pos h

theorem toil_of_running {l : Loop} (h : l.connection.loopDone = false) :
    l.toil = 2 * l.connection.stream.length + 2 + (if l.looks then 1 else 0) :=
  if_neg (by rw [h]; decide)

theorem arrived_other (m : Rpc.Move) : arrived [.other m] = arrivals [m] := List.append_nil _

theorem arrived_cons (m : Move) (ms : List Move) : arrived (m :: ms) = arrived [m] ++ arrived ms := by
  simp only [arrived, List.flatMap_cons, List.flatMap_nil, List.append_nil]

/-- **Every move of the loop leaves it less to do**, and nothing but what arrives adds to it. -/
theorem toil_step? {l k : Loop} {m : Move} {said : Option Acted}
    (h : l.step? m = some (k, said)) :
    k.toil + (if m.own then 1 else 0) ≤ l.toil + 2 * (arrived [m]).length := by
  cases steps_of_step? h with
  | looked hlooks running =>
      rw [toil_of_running running, hlooks]
      -- Looking at the flags costs one unit, unless the loop ends there.
      rcases l.connection.loopTop_cases with hsame | ⟨-, hdone, -⟩
      · have hk : (⟨l.traffic.change Connection.loopTop, false⟩ : Loop).connection = l.connection := hsame
        rw [toil_of_running (hk ▸ running), hk]
        simp [Move.own]
      · rw [toil_of_done (l := ⟨l.traffic.change Connection.loopTop, false⟩) hdone]
        simp only [Move.own, if_true]
        omega
  | @took c m hlooks running taken =>
      rw [toil_of_running running, hlooks]
      -- Taking an item pays for itself by the octets it removes.
      rcases taken.cases.1 with ⟨hgoes, hless⟩ | hdone
      · rw [toil_of_running (l := ⟨{ l.traffic with connection := c }, true⟩) (hgoes.trans running)]
        have hk : (⟨{ l.traffic with connection := c }, true⟩ : Loop).connection = c := rfl
        simp only [hk, Move.own, if_true, Bool.false_eq_true, if_false]
        omega
      · rw [toil_of_done (l := ⟨{ l.traffic with connection := c }, true⟩) hdone]
        simp only [Move.own, if_true]
        omega
  | @another m σ notes allowed moved beside =>
      -- The moves of others pay for what they bring.
      rw [arrived_other]
      have hlength := congrArg List.length beside.stream
      rw [List.length_append] at hlength
      cases hdone : l.connection.loopDone with
      | true =>
          rw [toil_of_done (l := { l with traffic := σ }) (beside.loopDone.trans hdone)]
          simp [Move.own]
      | false =>
          rw [toil_of_running hdone,
            toil_of_running (l := { l with traffic := σ }) (beside.loopDone.trans hdone)]
          have hk : ({ l with traffic := σ } : Loop).connection = σ.connection := rfl
          simp only [hk, hlength, Move.own, Bool.false_eq_true, if_false]
          omega

/-- A run makes no more moves of the loop than its toil at the beginning and two for each octet that
arrives. -/
theorem toil_play? {moves : List Move} {l υ : Loop} {said : List Acted}
    (h : play? moves l = some (υ, said)) :
    υ.toil + moves.countP Move.own ≤ l.toil + 2 * (arrived moves).length := by
  induction moves generalizing l said with
  | nil =>
      cases h
      exact Nat.le_refl _
  | cons m moves ih =>
      obtain ⟨k, first, more, hm, hmoves, rfl⟩ := play?_cons_eq_some h
      have hstep := toil_step? hm
      have hrest := ih hmoves
      rw [arrived_cons, List.length_append, List.countP_cons]
      omega

/-- A stream that has ended has ended. -/
theorem ended_step? {l k : Loop} {m : Move} {said : Option Acted} (h : l.step? m = some (k, said))
    (hended : l.connection.ended = true) : k.connection.ended = true := by
  cases steps_of_step? h with
  | looked hlooks running =>
      rcases l.connection.loopTop_cases with hsame | ⟨-, -, hsame⟩
      · exact (congrArg Connection.ended hsame).trans hended
      · exact hsame.trans hended
  | took hlooks running taken => exact taken.cases.2.trans hended
  | another allowed moved beside => exact beside.ended hended

/-- **On a stream that has ended the loop is never held up.** -/
theorem exists_own_move {l : Loop} (hended : l.connection.ended = true)
    (hrunning : l.connection.loopDone = false) :
    ∃ m k said, m.own = true ∧ l.step? m = some (k, said) := by
  cases hlooks : l.looks with
  | true =>
      refine ⟨.look, _, none, rfl, if_pos ?_⟩
      rw [hlooks, hrunning]
      rfl
  | false =>
      obtain ⟨⟨c, m⟩, htake⟩ := Option.isSome_iff_exists.mp (Connection.take?_isSome hrunning hended)
      refine ⟨.take, ⟨{ l.traffic with connection := c }, true⟩, m, rfl, ?_⟩
      simp only [step?, hlooks, htake, Bool.false_eq_true, if_false, Option.map_some]

/-- Left to itself, the loop ends. -/
theorem exists_end {l : Loop} (hended : l.connection.ended = true) :
    ∃ own υ more, (∀ m ∈ own, Move.own m = true) ∧ play? own l = some (υ, more) ∧
      υ.connection.loopDone = true := by
  induction htoil : l.toil using Nat.strongRecOn generalizing l with
  | ind n ih =>
      cases hdone : l.connection.loopDone with
      | true => exact ⟨[], l, [], by simp, rfl, hdone⟩
      | false =>
          obtain ⟨m, k, said, hown, hm⟩ := exists_own_move hended hdone
          have hless := toil_step? hm
          have hnothing : arrived [m] = [] := by
            cases m with
            | other m => cases hown
            | _ => rfl
          rw [hown, hnothing, htoil, if_pos rfl] at hless
          obtain ⟨own, υ, more, hall, hplay, hend⟩ := ih k.toil hless (ended_step? hm hended) rfl
          refine ⟨m :: own, υ, said.toList ++ more, List.forall_mem_cons.mpr ⟨hown, hall⟩, ?_, hend⟩
          simp only [play?, hm, Option.bind_some, hplay, Option.map_some]

/-! ### What the loop acts on -/

/-- Nothing more can be read, whatever else arrives; behind the end nothing does. -/
def Exhausted (ended : Bool) (left : Bytes) : Prop :=
  ∀ more, (ended = true → more = []) → Carries (left ++ more) []

/-- How far the loop has come in what has arrived. `front` is what it has acted on and `left`
what it has not; `calm` says that nobody else ends it. -/
structure Progress (calm : Prop) (arrived : Bytes) (said : List Message) (l : Loop) : Prop where
  place : ∃ front left, arrived = front ++ left ∧
    (∀ rest ms, Carries rest ms → Carries (front ++ rest) (said ++ ms)) ∧
    (l.connection.loopDone = false → left = l.connection.stream) ∧
    (calm → l.connection.loopDone = true → Exhausted l.connection.ended left)
  ends : l.connection.LoopEnds
  calm : calm → (l.connection.closed = true → l.connection.loopDone = true) ∧
    l.connection.loopCancelled = false

theorem progress_opened (calm : Prop) (hasCloser : Bool) : Progress calm [] [] (.opened hasCloser) where
  place := ⟨[], [], rfl, fun _ _ h => h, fun _ => rfl, fun _ h => absurd h Bool.false_ne_true⟩
  ends := fun h => absurd h Bool.false_ne_true
  calm := fun _ => ⟨fun h => absurd h Bool.false_ne_true, rfl⟩

/-- What cannot be read now or later is exhausted. -/
theorem exhausted_of_broken {c : Connection} {e : Frame.ReadError}
    (read : (Frame.read c.stream).outcome = .error e)
    (last : c.ended = true ∧ ¬ Frame.Passable (Frame.read c.stream).outcome ∨ Frame.Fatal e) :
    Exhausted c.ended c.stream := by
  intro more hmore
  apply carries_nil
  rcases last with ⟨hended, hnone⟩ | hfatal
  · rw [hmore hended, List.append_nil]
    exact hnone
  · rw [Frame.read_append_of_fatal read hfatal]
    cases e <;> first | exact id | exact hfatal.elim

def messages (said : List Acted) : List Message := said.map Acted.message

theorem messages_append (said more : List Acted) :
    messages (said ++ more) = messages said ++ messages more := List.map_append

variable {calm : Prop} {before : Bytes} {said : List Message} {l k : Loop}

/-- The loop looks. -/
theorem Progress.look (h : Progress calm before said l) (running : l.connection.loopDone = false) :
    Progress calm before said ⟨l.traffic.change Connection.loopTop, false⟩ := by
  obtain ⟨front, left, hbefore, hfront, hleft, hlast⟩ := h.place
  have hends : l.connection.loopTop.LoopEnds := h.ends.loopTop
  rcases l.connection.loopTop_cases with hsame | ⟨hwhy, hdone, -⟩
  · have hk : (⟨l.traffic.change Connection.loopTop, false⟩ : Loop).connection = l.connection := hsame
    refine ⟨⟨front, left, hbefore, hfront, ?_⟩, ?_, ?_⟩
    · rw [hk]
      exact ⟨hleft, hlast⟩
    · rw [hk]
      exact h.ends
    · rw [hk]
      exact h.calm
  -- Ended by a flag, and flags are only set when somebody closes or cancels.
  · have hnoisy : ¬ calm := by
      intro hcalm
      obtain ⟨hclosed, hcancelled⟩ := h.calm hcalm
      rcases hwhy with hwhy | hwhy
      · exact Bool.false_ne_true (hcancelled.symm.trans hwhy)
      · exact Bool.false_ne_true (running.symm.trans (hclosed hwhy))
    refine ⟨⟨front, left, hbefore, hfront, ?_, fun hcalm => absurd hcalm hnoisy⟩, hends,
      fun hcalm => absurd hcalm hnoisy⟩
    intro hrunning
    exact absurd (hrunning.symm.trans hdone) Bool.false_ne_true

/-- The loop takes something. -/
theorem Progress.take {c : Connection} {a : Option Acted} (h : Progress calm before said l)
    (running : l.connection.loopDone = false) (taken : l.connection.Taken c a) :
    Progress calm before (said ++ messages a.toList) ⟨{ l.traffic with connection := c }, true⟩ := by
  -- While the loop runs, what is left is the stream.
  obtain ⟨front, left, hbefore, hfront, hleft, -⟩ := h.place
  obtain rfl := hleft running
  cases taken with
  | item pass =>
      have hsaid : messages ((said? (Frame.read l.connection.stream).outcome).map
          l.connection.consume.record).toList =
            (said? (Frame.read l.connection.stream).outcome).toList := by
        cases said? (Frame.read l.connection.stream).outcome <;> rfl
      rw [hsaid]
      obtain ⟨hsame, hopen⟩ := Connection.acted_sameInput
        (said? (Frame.read l.connection.stream).outcome) l.connection.consume
      obtain ⟨item, hstream, hitem⟩ := exists_item pass
      refine ⟨⟨front ++ item, (Frame.read l.connection.stream).rest, ?_, ?_, ?_, ?_⟩, ?_, ?_⟩
      · rw [hbefore, List.append_assoc, ← hstream]
      · intro rest ms hms
        rw [List.append_assoc, List.append_assoc]
        exact hfront _ _ (.item hitem hms)
      · exact fun _ => hsame.stream.symm
      · intro _ hdone
        exact absurd (running.symm.trans (hsame.loopDone.symm.trans hdone)) Bool.false_ne_true
      · intro hdone
        exact absurd (running.symm.trans (hsame.loopDone.symm.trans hdone)) Bool.false_ne_true
      · intro hcalm
        obtain ⟨hclosed, hcancelled⟩ := h.calm hcalm
        exact ⟨fun hc => hsame.loopDone.trans (hclosed (hopen.symm.trans hc)),
          hsame.loopCancelled.trans hcancelled⟩
  | @broken e read last =>
      show Progress calm before (said ++ []) _
      rw [List.append_nil]
      have hsame := Connection.shutdown_sameInput (some e.toError) l.connection.consume
      -- What is left behind a broken item cannot become one.
      refine ⟨⟨front, l.connection.stream, hbefore, hfront, nofun, fun _ _ => ?_⟩,
        fun _ => Connection.closed_shutdown _ _, fun hcalm => ⟨fun _ => rfl, ?_⟩⟩
      · have hended : (l.connection.consume.shutdown (some e.toError)).ended = l.connection.ended :=
          hsame.ended
        exact hended ▸ exhausted_of_broken read last
      · exact hsame.loopCancelled.trans (h.calm hcalm).2

/-- Somebody else does something. -/
theorem Progress.another {m : Rpc.Move} {σ : Traffic} {notes : List Note}
    (h : Progress calm before said l) (hcalm : calm → m ≠ .close ∧ m ≠ .cancelLoop)
    (allowed : barred l.connection m = false) (moved : l.traffic.step? m = some (σ, notes))
    (beside : Beside m l.connection σ.connection) :
    Progress calm (before ++ arrivals [m]) said { l with traffic := σ } := by
  obtain ⟨front, left, hbefore, hfront, hleft, hlast⟩ := h.place
  refine ⟨⟨front, left ++ arrivals [m], ?_, hfront, ?_, ?_⟩,
    Traffic.step?_loopEnds moved h.ends, fun hc => ?_⟩
  · rw [hbefore, List.append_assoc]
  · intro hrunning
    rw [hleft (beside.loopDone.symm.trans hrunning)]
    exact beside.stream.symm
  -- Nothing arrives after the end of the input, so that what was last stays last.
  · intro hc hdone more hmore
    rw [List.append_assoc]
    refine hlast hc (beside.loopDone.symm.trans hdone) _ fun hended => ?_
    have hnothing : arrivals [m] = [] := by
      cases m with
      | arrive bytes => exact absurd (allowed.symm.trans hended) Bool.false_ne_true
      | _ => rfl
    rw [hnothing, hmore (beside.ended hended), List.append_nil]
  · obtain ⟨hclosed, hcancelled⟩ := h.calm hc
    obtain ⟨hsameClosed, hsameCancelled⟩ := beside.calm (hcalm hc).1 (hcalm hc).2
    exact ⟨fun hclosed' => beside.loopDone.trans (hclosed (hsameClosed.symm.trans hclosed')),
      hsameCancelled.trans hcancelled⟩

/-- **Every move keeps to what the stream carries.** -/
theorem Progress.step? {m : Move} {new : Option Acted} (h : Progress calm before said l)
    (hcalm : calm → Calm [m]) (hm : l.step? m = some (k, new)) :
    Progress calm (before ++ arrived [m]) (said ++ messages new.toList) k := by
  cases steps_of_step? hm with
  | looked hlooks running =>
      show Progress calm (before ++ []) (said ++ []) _
      rw [List.append_nil, List.append_nil]
      exact h.look running
  | took hlooks running taken =>
      show Progress calm (before ++ []) _ _
      rw [List.append_nil]
      exact h.take running taken
  | @another m σ notes allowed moved beside =>
      show Progress calm _ (said ++ []) _
      rw [List.append_nil, arrived_other]
      refine h.another (fun hc => ?_) allowed moved beside
      have hboth := hcalm hc _ List.mem_cons_self
      exact ⟨fun he => hboth.1 (congrArg Move.other he), fun he => hboth.2 (congrArg Move.other he)⟩

/-- What was acted on keeps to what the octets that arrived carry. -/
theorem Progress.play? {moves : List Move} {new : List Acted} (h : Progress calm before said l)
    (hcalm : calm → Calm moves) (hplay : play? moves l = some (k, new)) :
    Progress calm (before ++ arrived moves) (said ++ messages new) k := by
  induction moves generalizing l before said new with
  | nil =>
      cases hplay
      show Progress calm (before ++ []) (said ++ []) _
      rwa [List.append_nil, List.append_nil]
  | cons m moves ih =>
      obtain ⟨υ, first, more, hm, hmoves, rfl⟩ := play?_cons_eq_some hplay
      have hfirst : calm → Calm [m] := fun hc m' hm' =>
        hcalm hc m' (List.mem_singleton.mp hm' ▸ List.mem_cons_self)
      have hrest := ih (h.step? hfirst hm) (fun hc m' hm' => hcalm hc m' (List.mem_cons_of_mem m hm')) hmoves
      rw [arrived_cons, messages_append, ← List.append_assoc, ← List.append_assoc]
      exact hrest

/-- What is seen of a move of the loop is due. -/
theorem due_step? {m : Move} {new : Option Acted} (hm : l.step? m = some (k, new)) :
    ∀ a ∈ new, a.Due := by
  intro a ha
  cases steps_of_step? hm with
  | looked | another => cases ha
  | took hlooks running taken =>
      cases taken with
      | broken => cases ha
      | item pass =>
          obtain ⟨m, -, rfl⟩ := Option.map_eq_some_iff.mp ha
          exact Connection.due_record _ m

theorem due_play? {moves : List Move} {new : List Acted} (h : play? moves l = some (k, new)) :
    ∀ a ∈ new, a.Due := by
  intro a ha
  induction moves generalizing l new with
  | nil =>
      cases h
      cases ha
  | cons m moves ih =>
      obtain ⟨υ, first, more, hm, hmoves, rfl⟩ := play?_cons_eq_some h
      rcases List.mem_append.mp ha with ha | ha
      · exact due_step? hm a (Option.mem_toList.mp ha)
      · exact ih hmoves ha

/-- **The read loop always gets on, and comes to an end.** Every read of a stream that is not empty
takes something off it. Take any run of a connection that was just opened, in which others, the
handlers among them, do what they like between the moves of the read loop. The loop has made
a limited number of moves, by how much has arrived. If the stream has ended, the loop ends
when it is left to itself, and where it has ended the connection is closed. What has arrived
carries one sequence of messages. The loop has acted on the first of them, in their order
and as they ask for it, and once it has ended on all of them, unless somebody else has
closed the connection or asked the loop to end. -/
theorem reading_ends {hasCloser : Bool} {moves : List Move} {said : List Acted}
    (h : Loop.play? moves (.opened hasCloser) = some (l, said)) :
    (∀ stream ≠ [], ∃ used ≠ [], stream = used ++ (Frame.read stream).rest) ∧
    moves.countP Move.own ≤ 2 * (arrived moves).length + 3 ∧
    (l.connection.ended = true →
      ∃ own υ more, (∀ m ∈ own, Move.own m = true) ∧ Loop.play? own l = some (υ, more) ∧
        υ.connection.loopDone = true) ∧
    (l.connection.loopDone = true → l.connection.closed = true) ∧
    (∀ a ∈ said, a.Due) ∧
    ∃ all, (∀ ms, Carries (arrived moves) ms ↔ ms = all) ∧ messages said <+: all ∧
      (l.connection.loopDone = true → Calm moves → messages said = all) := by
  have hprogress := (progress_opened (Calm moves) hasCloser).play? id h
  obtain ⟨front, left, harrived, hfront, -, hlast⟩ := hprogress.place
  rw [List.nil_append] at harrived hfront
  obtain ⟨ms, hms⟩ := exists_carries left
  have hall := harrived ▸ hfront left ms hms
  refine ⟨fun _ => Frame.exists_used, ?_, exists_end, hprogress.ends, due_play? h,
    messages said ++ ms, fun ms' => ⟨hall.unique, fun he => he ▸ hall⟩, List.prefix_append _ ms, ?_⟩
  · have htoil := toil_play? h
    have hstart : (Loop.opened hasCloser).toil = 3 := rfl
    omega
  · intro hdone hcalm
    have hnone := hlast hcalm hdone [] fun _ => rfl
    rw [List.append_nil] at hnone
    rw [hnone.unique hms, List.append_nil]

/-- Blank lines, a body that is no message, a notification, headers without a length and half a
header arrive. The handler of the notification sends one itself. -/
def rubbleMoves : List Move :=
  [.other (.handle "status" (some "shown")), .look,
    .other (.arrive (utf8 "\r\n\r\n" ++ Frame.encode brokenBody ++ statusFrame)),
    .take, .look, .take, .look, .take, .look, .take, .other (.notify "seen" .absent none), .look,
    .other (.arrive (utf8 "Other: 1\r\n\r\nContent")), .take, .look, .other .hangup, .take]

theorem rubbleMoves_played :
    ∃ p, Loop.play? rubbleMoves (.opened true) = some p ∧
      (p.2.map fun a => (a.message.method, a.handler, a.effects.length), p.1.connection.loopDone) =
        ([("status", some "shown", 1)], true) :=
  Option.map_eq_some_iff.mp (by decide +kernel)

/-- The loop has ended, the connection is closed, and the one message has reached its handler. -/
theorem rubbleMoves_end :
    ∃ l said, Loop.play? rubbleMoves (.opened true) = some (l, said) ∧
      l.connection.closed = true ∧
      (said.map fun a => (a.message.method, a.handler, a.effects.length)) = [("status", some "shown", 1)] ∧
      (∀ a ∈ said, a.Due) ∧ ∀ ms, Carries (arrived rubbleMoves) ms ↔ ms = messages said := by
  obtain ⟨⟨l, said⟩, hplay, hfacts⟩ := rubbleMoves_played
  obtain ⟨hsaid, hdone⟩ := Prod.mk.inj hfacts
  obtain ⟨-, -, -, hclosed, hdue, all, hall, -, hlast⟩ := reading_ends hplay
  have hcalm : Calm rubbleMoves := by simp [Calm, rubbleMoves]
  refine ⟨l, said, hplay, hclosed hdone, hsaid, hdue, ?_⟩
  rw [hlast hdone hcalm]
  exact hall

end Loop

end LanguageClient.Rpc
