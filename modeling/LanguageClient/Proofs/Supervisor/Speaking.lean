import LanguageClient.Proofs.Supervisor.Order
import LanguageClient.Proofs.Supervisor.ThreadStep

/-! # What threads say in their steps.

Every step of a thread says what is earned where the thread stands, and leaves it at a
point where what has been said is known (`step_tells`). Four steps say anything on
purpose when the server is started and shut down, and one when a notification is sent.
All others listen at most. -/

namespace LanguageClient.Supervisor

section Points

variable {g : Settings} {lines : List Line} {i : Nat} {t : Thread} {s : State} {p : Progress}

/-- What a thread says in a step, and what has been said where it comes to. -/
structure Progress.Tells (g : Settings) (lines : List Line) (t : Task) (s : State) (p : Progress) :
    Prop where
  tells : Supervisor.Tells g lines (written t.purpose? p.effects) t s p.state
  spoke : p.task.Spoke (lines ++ written t.purpose? p.effects) p.state

theorem mem_of_lookup {α β : Type} [BEq α] [LawfulBEq α] {l : List (α × β)} {a : α} {b : β}
    (h : l.lookup a = some b) : (a, b) ∈ l := by
  obtain ⟨l₁, l₂, rfl, -⟩ := List.lookup_eq_some_iff.mp h
  exact List.mem_append_right l₁ List.mem_cons_self

/-- A response that is no error grants what was asked for. -/
theorem granted_of_answer (ht : Traced lines s) {id : Nat} {o : Rpc.Outcome} (ho : s.answer? id = some o)
    (hok : ∃ m, o = .response m ∧ m.error = none) : Granted lines (asked id) := by
  obtain ⟨m, rfl, hm⟩ := hok
  exact ⟨id, m, ht.answers id m (mem_of_lookup ho), hm⟩

/-- A call that ended well was answered without an error. -/
theorem response_of_done {o : Rpc.Outcome} (h : o.done = .ok ()) :
    ∃ m, o = .response m ∧ m.error = none := by
  cases o with
  | failed e => cases h
  | response m =>
      refine ⟨m, rfl, ?_⟩
      cases he : m.error with
      | none => rfl
      | some e => simp [Rpc.Outcome.done, he] at h

/-- So was a call whose result could be read. -/
theorem response_of_read {α : Type} {d : Json.Decoder α} {zero a : α} {method : String}
    {o : Rpc.Outcome} (h : o.read d zero method = .ok a) : ∃ m, o = .response m ∧ m.error = none := by
  cases o with
  | failed e => cases h
  | response m =>
      refine ⟨m, rfl, ?_⟩
      cases he : m.error with
      | none => rfl
      | some e => simp [Rpc.Outcome.read, he] at h

/-- What is said for another purpose is not said in a step. -/
theorem notMem_purposes_append {purpose q : Purpose} {es : List Effect} (h : q ∉ purposes lines)
    (hne : purpose ≠ q) : q ∉ purposes (lines ++ written (some purpose) es) := by
  rw [purposes_append, List.mem_append]
  rintro (hm | hm)
  · exact h hm
  · exact hne (Option.some.inj (mem_purposes_written hm))

/-- Where something was said there is a connection. -/
theorem Acknowledged.connected (hack : Acknowledged lines) (ht : Traced lines s) : s.connection ≠ none := by
  intro hc
  rw [Acknowledged, ht.silent hc] at hack
  cases hack

/-- The greeting was the first request. -/
theorem Acknowledged.issued (hack : Acknowledged lines) (ht : Traced lines s) (ho : InOrder g lines)
    {c : Rpc.Connection} (hc : s.connection = some c) : c.issued ≠ 0 :=
  (ht.wired c hc).issued (ho.greeting_mem (mem_purposes.mpr ⟨_, hack⟩))

/-- A change of state is no matter of the connection. -/
theorem transition_mute (target : Lifecycle) (e : Option Error) (s : State) :
    (s.transition target e).1.connection = s.connection ∧
    (s.transition target e).1.answers = s.answers ∧
    (s.transition target e).1.attached = s.attached ∧
    (s.transition target e).2.1.filterMap Effect.frame? = [] ∧
    (target ≠ .running → (s.transition target e).1.lifecycle = .running → s.lifecycle = .running) := by
  unfold State.transition
  split
  · exact ⟨rfl, rfl, rfl, rfl, fun hne hr => absurd hr hne⟩
  · exact ⟨rfl, rfl, rfl, rfl, fun _ hr => hr⟩

theorem frames_announce (moved : Option Transition) :
    (State.announce moved).filterMap Effect.frame? = [] := by
  cases moved with
  | none => rfl
  | some moved =>
      simp only [State.announce, List.filterMap_map]
      exact List.filterMap_eq_nil_iff.mpr fun _ _ => rfl

@[simp] theorem frames_said (said : List String) : (said.map logged).filterMap Effect.frame? = [] := by
  rw [List.filterMap_map]
  exact List.filterMap_eq_nil_iff.mpr fun _ _ => rfl

theorem frames_append_said (es : List Effect) (said : List String) :
    (es ++ said.map logged).filterMap Effect.frame? = es.filterMap Effect.frame? := by
  rw [List.filterMap_append, frames_said, List.append_nil]

/-- There is no exit without a shutdown. -/
theorem InOrder.shutdown_mem (h : InOrder g lines) (hm : .exit ∈ purposes lines) :
    .shutdown ∈ purposes lines := by
  obtain ⟨frame, hm⟩ := mem_purposes.mp hm
  obtain ⟨before, after, rfl⟩ := List.append_of_mem hm
  have hgranted : Granted before .shutdown := h.earned before .exit frame after rfl
  rw [purposes_append]
  exact List.mem_append_left _ hgranted.mem_purposes

/-! ### Where nothing more is said -/

theorem ShutdownPoint.Spoke.append {q : ShutdownPoint} {new : List Line} (h : q.Spoke lines)
    (hs : .shutdown ∉ purposes new) (he : .exit ∉ purposes new) : q.Spoke (lines ++ new) := by
  have hnot {purpose : Purpose} (hold : purpose ∉ purposes lines) (hnew : purpose ∉ purposes new) :
      purpose ∉ purposes (lines ++ new) := by
    rw [purposes_append, List.mem_append]
    exact fun hm => hm.elim hold hnew
  cases q with
  | request => exact ⟨hnot h.1 hs, hnot h.2 he⟩
  | awaitResponse id => exact ⟨h.1, hnot h.2 he⟩
  | exit => exact ⟨h.1.append new, hnot h.2 he⟩
  | _ => trivial

/-- What has been said where a thread stands has been said when others were silent. -/
theorem Task.Spoke.silent {τ : Task} {more : List Line} (h : τ.Spoke lines s) (hmore : purposes more = []) :
    τ.Spoke (lines ++ more) s := by
  have hsame : purposes (lines ++ more) = purposes lines := by
    rw [purposes_append, hmore, List.append_nil]
  have hshutdown {q : ShutdownPoint} (hq : q.Spoke lines) : q.Spoke (lines ++ more) :=
    hq.append (by simp [hmore]) (by simp [hmore])
  cases τ with
  | start mode q =>
      cases q with
      | greet | awaitGreeting _ => exact ⟨h.1, hsame.trans h.2.1, h.2.2⟩
      | acknowledge _ | publish _ => exact ⟨h.1, hsame.trans h.2.1, h.2.2.append more⟩
      | shutdown q => exact ⟨h.1, hshutdown h.2⟩
      | _ => exact h
  | stop q =>
      cases q with
      | shutdown q => exact hshutdown h
      | _ => trivial
  | notify method params q => cases q <;> exact h
  | watch | done => trivial

/-- A step in which a thread only listens. -/
theorem Listens.tells_silently {τ τ' : Task} {s' : State} {es : List Effect} {started : List Task}
    (h : Listens lines [] s (s', es)) (ho : InOrder g lines) (hp : τ.purpose? = none)
    (hat : s'.attached = s.attached) (hr : s'.lifecycle = .running → s.lifecycle = .running)
    (hs : τ'.Spoke lines s') :
    Progress.Tells g lines τ s { state := s', task := τ', effects := es, started } := by
  refine ⟨?_, hs.silent (by rw [hp]; exact purposes_written_none es)⟩
  rw [hp]
  exact h.tells ho hat hr

/-- A step that has nothing to do with the connection. -/
theorem Traced.tells_silently {τ τ' : Task} {s' : State} {es : List Effect} {started : List Task}
    (ht : Traced lines s) (ho : InOrder g lines) (hp : τ.purpose? = none) (hc : s'.connection = s.connection)
    (ha : s'.answers = s.answers) (hat : s'.attached = s.attached)
    (hes : es.filterMap Effect.frame? = []) (hr : s'.lifecycle = .running → s.lifecycle = .running)
    (hs : τ'.Spoke lines s') :
    Progress.Tells g lines τ s { state := s', task := τ', effects := es, started } :=
  (ht.listens hc ha hes).tells_silently ho hp hat hr hs

/-! ### Shutting the server down -/

/-- What has been said where a shutdown stands. Who shuts the server down within starting it
has made the connection known. -/
theorem spoke_shutting {starter : Option LaunchMode} {q : ShutdownPoint} :
    (Task.shutting starter (some q)).Spoke lines s ↔
      (starter.isSome = true → s.attached = true) ∧ q.Spoke lines := by
  cases starter with
  | some mode => exact ⟨fun h => ⟨fun _ => h.1, h.2⟩, fun h => ⟨h.1 rfl, h.2⟩⟩
  | none => exact ⟨fun h => ⟨nofun, h⟩, fun h => h.2⟩

theorem purpose?_shutting (starter : Option LaunchMode) (q : ShutdownPoint) :
    (Task.shutting starter (some q)).purpose? = q.purpose? := by
  cases starter <;> rfl

/-- A server that is shut down was told before that it may be used. -/
theorem acknowledged_shutting {starter : Option LaunchMode} {q : ShutdownPoint}
    (hf : (Task.shutting starter (some q)).Fits s i) (hq : (Task.shutting starter (some q)).Spoke lines s)
    (hpub : s.attached = true → Acknowledged lines) (hrun : s.lifecycle = .running → s.attached = true) :
    Acknowledged lines := by
  cases starter with
  | some mode => exact hpub hq.1
  | none =>
      obtain ⟨-, hl, -⟩ := hf (by simp)
      exact hpub (hrun hl)

/-! ### Speaking over the connection -/

section Talks

variable {c : Rpc.Connection} {mode : LaunchMode}

/-- The server is greeted. -/
theorem greeting_speaks (ht : Traced lines s) (hq : StartPoint.greet.Spoke lines s) (hc : s.connection = some c)
    {r : Rpc.Connection × List Rpc.Effect × Except Error Nat}
    (hr : c.call "initialize" (.json (greetingParams g.processId g.client g.rootUri mode)) t.abandoned = r) :
    Speaks g lines .greeting s r.2.2.isOk (s.withConnection r.1 r.2.1) ∧ ∀ id, r.2.2 = .ok id → id = 1 := by
  obtain ⟨-, -, hissued⟩ := hq
  have hzero := hissued c hc
  have hcalls := Rpc.Connection.call_calls (c := c) "initialize"
    (.json (greetingParams g.processId g.client g.rootUri mode)) t.abandoned
  rw [hr] at hcalls
  have hasked : asked (c.issued + 1) = .greeting := by rw [hzero]; rfl
  refine ⟨ht.call (g := g) .greeting hc hcalls hasked ?_, ?_⟩
  · rintro body ⟨params, hparams, rfl⟩
    cases hparams
    rw [hzero]
    exact ⟨mode, rfl⟩
  · intro id hid
    rw [hcalls.id id hid, hzero]

/-- The server is told that it may be used. -/
theorem acknowledgement_speaks (ht : Traced lines s) (hc : s.connection = some c)
    {r : Rpc.Connection × List Rpc.Effect × Option Error}
    (hr : c.notify "initialized" (.json (Json.object [])) t.abandoned = r) :
    Speaks g lines .acknowledgement s r.2.2.isNone (s.withConnection r.1 r.2.1) ∧ r.1.issued = c.issued := by
  have hnotifies := Rpc.Connection.notify_notifies (c := c) "initialized" (.json (Json.object [])) t.abandoned
  rw [hr] at hnotifies
  refine ht.notify (g := g) .acknowledgement hc hnotifies (by simp) ?_
  rintro body ⟨params, hparams, rfl⟩
  cases hparams
  rfl

/-- The server is asked to shut down. -/
theorem request_speaks (ht : Traced lines s) (ho : InOrder g lines) (hack : Acknowledged lines)
    (hc : s.connection = some c) {r : Rpc.Connection × List Rpc.Effect × Except Error Nat}
    (hr : c.call "shutdown" .absent t.expiry = r) :
    Speaks g lines .shutdown s r.2.2.isOk (s.withConnection r.1 r.2.1) ∧ ∀ id, r.2.2 = .ok id → id ≠ 1 := by
  have hgreeted : c.issued ≠ 0 := hack.issued ht ho hc
  have hcalls := Rpc.Connection.call_calls (c := c) "shutdown" .absent t.expiry
  rw [hr] at hcalls
  have hasked : asked (c.issued + 1) = .shutdown := if_neg (by omega)
  refine ⟨ht.call (g := g) .shutdown hc hcalls hasked ?_, ?_⟩
  · rintro body ⟨params, hparams, rfl⟩
    cases hparams
    exact ⟨_, rfl⟩
  · intro id hid
    have := hcalls.id id hid
    omega

/-- The server is told to exit. -/
theorem farewell_speaks (ht : Traced lines s) (hc : s.connection = some c)
    {r : Rpc.Connection × List Rpc.Effect × Option Error} (hr : c.notify "exit" .absent t.expiry = r) :
    Speaks g lines .exit s r.2.2.isNone (s.withConnection r.1 r.2.1) ∧ r.1.issued = c.issued := by
  have hnotifies := Rpc.Connection.notify_notifies (c := c) "exit" .absent t.expiry
  rw [hr] at hnotifies
  refine ht.notify (g := g) .exit hc hnotifies (by simp) ?_
  rintro body ⟨params, hparams, rfl⟩
  cases hparams
  rfl

/-- **What a thread says over the connection is earned**, and what is said goes to the wire as a
whole if that succeeds. -/
theorem Talks.tells {τ τ' : Task} {r : Rpc.Connection × List Rpc.Effect} {said : List String}
    (row : Talks g t c τ τ' r said) (ht : Traced lines s) (ho : InOrder g lines) (hc : s.connection = some c)
    (hspoke : τ.Spoke lines s)
    (hack : ∀ starter q, τ = .shutting starter (some q) → Acknowledged lines) :
    Progress.Tells g lines τ s
      { state := (s.withConnection r.1 r.2).1, task := τ'
        effects := (s.withConnection r.1 r.2).2 ++ said.map logged } := by
  have hlines := frames_append_said (s.withConnection r.1 r.2).2 said
  cases row with
  | greet call result =>
      obtain ⟨hspeaks, hfirst⟩ := greeting_speaks (g := g) ht hspoke hc call
      obtain ⟨hat, hnone, -⟩ := hspoke
      have hspeaks := hspeaks.congr hlines
      refine ⟨hspeaks.tells rfl ho hnone (Or.inr (by rw [hnone]; simp)) rfl rfl fun _ hne => absurd rfl hne,
        hat, ?_, hfirst _ result⟩
      -- a call that waits has said what it asks for
      rcases written_of_sends .greeting hspeaks.sends with ⟨hfail, -⟩ | ⟨_, _, hline, -⟩
      · rw [result] at hfail
        cases hfail
      · show purposes (lines ++ written (some .greeting) _) = _
        rw [purposes_append, hnone, hline]
        rfl
  | greetFailed call =>
      obtain ⟨hspeaks, -⟩ := greeting_speaks (g := g) ht hspoke hc call
      obtain ⟨-, hnone, -⟩ := hspoke
      exact ⟨(hspeaks.congr hlines).tells rfl ho hnone (Or.inr (by rw [hnone]; simp)) rfl rfl
        fun _ hne => absurd rfl hne, trivial⟩
  | @acknowledge mode info _ note result =>
      obtain ⟨hspeaks, hissued⟩ := acknowledgement_speaks (g := g) ht hc note
      obtain ⟨hat, hpurposes, hgranted⟩ := hspoke
      have hspeaks := hspeaks.congr hlines
      have htells := hspeaks.tells (t := .start mode (.acknowledge info)) rfl ho hgranted
        (Or.inr (by rw [hpurposes]; simp)) rfl rfl fun _ _ c' hc' => by
          cases hc'
          exact ⟨c, hc, hissued⟩
      -- what was written without an error is there as a whole
      rcases written_of_sends .acknowledgement hspeaks.sends with ⟨hfail, -⟩ | ⟨body, frame, hline, rfl, -, hwhole⟩
      · rw [result] at hfail
        cases hfail
      · obtain rfl := hwhole (by rw [result]; rfl)
        refine ⟨htells, hat, ?_, ?_⟩
        · show purposes (lines ++ written (some .acknowledgement) _) = _
          rw [purposes_append, hpurposes, hline]
          rfl
        · show _ ∈ lines ++ written (some .acknowledgement) _
          rw [hline]
          exact List.mem_append_right _ List.mem_cons_self
  | acknowledgeFailed note =>
      obtain ⟨hspeaks, hissued⟩ := acknowledgement_speaks (g := g) ht hc note
      obtain ⟨-, hpurposes, hgranted⟩ := hspoke
      refine ⟨(hspeaks.congr hlines).tells rfl ho hgranted (Or.inr (by rw [hpurposes]; simp)) rfl rfl ?_, trivial⟩
      intro _ _ c' hc'
      cases hc'
      exact ⟨c, hc, hissued⟩
  | @shutdown starter _ id call result =>
      obtain ⟨hspeaks, hlater⟩ := request_speaks (g := g) ht ho (hack _ _ rfl) hc call
      obtain ⟨hat, hshutdown, hexit⟩ := spoke_shutting.mp hspoke
      have hp := purpose?_shutting starter .request
      refine ⟨?_, spoke_shutting.mpr ⟨hat, hlater _ result, ?_⟩⟩
      · rw [hp]
        exact (hspeaks.congr hlines).tells hp ho (hack _ _ rfl) (Or.inr hshutdown) rfl rfl fun hne => absurd rfl hne
      · rw [hp]
        exact notMem_purposes_append hexit (by simp)
  | @shutdownFailed starter _ _ call =>
      obtain ⟨hspeaks, -⟩ := request_speaks (g := g) ht ho (hack _ _ rfl) hc call
      obtain ⟨hat, hshutdown, -⟩ := spoke_shutting.mp hspoke
      have hp := purpose?_shutting starter .request
      refine ⟨?_, spoke_shutting.mpr ⟨hat, trivial⟩⟩
      rw [hp]
      exact (hspeaks.congr hlines).tells hp ho (hack _ _ rfl) (Or.inr hshutdown) rfl rfl fun hne => absurd rfl hne
  | @farewell starter _ note =>
      obtain ⟨hspeaks, hissued⟩ := farewell_speaks (g := g) ht hc note
      obtain ⟨hat, hgranted, hexit⟩ := spoke_shutting.mp hspoke
      have hp := purpose?_shutting starter .exit
      refine ⟨?_, spoke_shutting.mpr ⟨hat, trivial⟩⟩
      rw [hp]
      refine (hspeaks.congr hlines).tells hp ho hgranted (Or.inr hexit) rfl rfl ?_
      intro _ _ c' hc'
      cases hc'
      exact ⟨c, hc, hissued⟩

end Talks

/-! ### Every kind of step -/

section Kinds

variable {τ τ' : Task} {s' : State} {said : List String}

/-- A thread that goes by what it finds says nothing to the server. -/
theorem Passes.tells (row : Passes g t s τ τ' said) (ht : Traced lines s) (ho : InOrder g lines)
    (hspoke : τ.Spoke lines s)
    (hack : ∀ starter q, τ = .shutting starter (some q) → Acknowledged lines) :
    Progress.Tells g lines τ s { state := s, task := τ', effects := said.map logged } := by
  have hsilent (hp : τ.purpose? = none) (hs : τ'.Spoke lines s) :
      Progress.Tells g lines τ s { state := s, task := τ', effects := said.map logged } :=
    ht.tells_silently ho hp rfl rfl rfl (frames_said said) id hs
  cases row with
  | usable => exact hsilent rfl hspoke
  | greeted answer read =>
      obtain ⟨hat, hpurposes, rfl⟩ := hspoke
      exact hsilent rfl ⟨hat, hpurposes, granted_of_answer ht answer (response_of_read read)⟩
  | unconnected _ connection => exact absurd connection ((hack _ _ rfl).connected ht)
  -- The answer has to be the server's own, to the request that was made.
  | granted answer read =>
      obtain ⟨hat, hid, hexit⟩ := spoke_shutting.mp hspoke
      have hgranted := granted_of_answer ht answer (response_of_done read)
      rw [asked, if_neg hid] at hgranted
      exact hsilent (purpose?_shutting _ _) (spoke_shutting.mpr ⟨hat, hgranted, hexit⟩)
  | denied | exited | killed =>
      obtain ⟨hat, -⟩ := spoke_shutting.mp hspoke
      exact hsilent (purpose?_shutting _ _) (spoke_shutting.mpr ⟨hat, trivial⟩)
  | ready _ _ attached => exact hsilent rfl attached
  | _ => exact hsilent rfl trivial

/-- The connection is made known to callers by a start that is to shut the server down. Who
stops a server that runs finds that nobody has asked it to shut down. -/
theorem Marks.tells (row : Marks i s τ s' τ' said) (ht : Traced lines s) (ho : InOrder g lines)
    (hspoke : τ.Spoke lines s)
    (hunasked : τ = .stop .look → s.lifecycle = .running → .shutdown ∉ purposes lines) :
    Progress.Tells g lines τ s { state := s', task := τ', effects := said.map logged } := by
  cases row with
  | @refrain mode info asked =>
      obtain ⟨-, hpurposes, hack⟩ := hspoke
      have hlistens : Listens lines [] s
          ({ s with attached := true, serverInfo := info, stopping := true },
            [logged "Stop requested during startup; shutting down language server"]) :=
        ht.listens rfl rfl rfl
      have hspoke : ShutdownPoint.request.Spoke lines := by
        rw [ShutdownPoint.Spoke, hpurposes]
        simp
      exact ⟨hlistens.tells_of ho (Or.inr ⟨rfl, rfl, hack⟩) fun hr => Or.inl hr,
        rfl, hspoke.append (by simp [Task.purpose?]) (by simp [Task.purpose?])⟩
  | halt running =>
      have hshutdown := hunasked rfl running
      have hspoke : ShutdownPoint.request.Spoke lines :=
        ⟨hshutdown, fun hexit => hshutdown (ho.shutdown_mem hexit)⟩
      exact ht.tells_silently ho rfl rfl rfl rfl rfl id hspoke
  | acquire | request | mopUp => exact ht.tells_silently ho rfl rfl rfl rfl rfl id trivial

/-- With the change of state to running the connection is made known to callers. -/
theorem Shifts.tells {s₁ : State} {target : Lifecycle} {e : Option Error} {next : Option Transition → Task}
    (row : Shifts s τ s₁ target e next) (ht : Traced lines s) (ho : InOrder g lines) (hspoke : τ.Spoke lines s)
    (hunused : s.used = false → s.attached = false ∧ s.connection = none) :
    Progress.Tells g lines τ s
      { state := (s₁.transition target e).1, task := next (s₁.transition target e).2.2
        effects := (s₁.transition target e).2.1 } := by
  obtain ⟨hc, ha, hat, hes, hr⟩ := transition_mute target e s₁
  cases row with
  | begin unused =>
      obtain ⟨hunattached, hunconnected⟩ := hunused unused
      exact ht.tells_silently ho rfl hc ha hat hes (hr (by simp)) ⟨hat.trans hunattached, hc.trans hunconnected⟩
  | run =>
      obtain ⟨-, hpurposes, hack⟩ := hspoke
      have hshutdown : .shutdown ∉ purposes lines := by
        rw [hpurposes]
        simp
      exact ⟨(ht.listens hc ha hes).tells_of ho (Or.inr ⟨rfl, hat, hack⟩) fun _ => Or.inr ⟨hat, hshutdown⟩,
        trivial⟩
  | refrain here =>
      rcases here with rfl | rfl <;>
        exact ht.tells_silently ho rfl hc ha hat hes (hr (by simp)) trivial
  | fail | stop | stopFailed | crash => exact ht.tells_silently ho rfl hc ha hat hes (hr (by simp)) trivial

/-- Whatever a step does, it says what is due, in the name of a task for which it is due. -/
theorem Does.speaks {p : Progress} (h : Does g i t s τ p) (ht : Traced lines s) (ho : InOrder g lines)
    (hf : τ.Fits s i) (hspoke : τ.Spoke lines s) (hpub : s.attached = true → Acknowledged lines)
    (hrun : s.lifecycle = .running → s.attached = true)
    (hunused : s.used = false → s.attached = false ∧ s.connection = none)
    (hunasked : τ = .stop .look → s.lifecycle = .running → .shutdown ∉ purposes lines) :
    p.Tells g lines τ s := by
  -- Whoever shuts down behind a start knows that the handshake is over.
  have hack : ∀ starter q, τ = .shutting starter (some q) → Acknowledged lines := by
    rintro starter q rfl
    exact acknowledged_shutting hf hspoke hpub hrun
  cases h with
  | passes row => exact row.tells ht ho hspoke hack
  | marks row => exact row.tells ht ho hspoke hunasked
  | shifts row => exact row.tells ht ho hspoke hunused
  | @informs moved _ _ _ said results _ row =>
      have hes : (State.announce moved ++ (said.map logged ++ results.map (Effect.returned i))).filterMap
          Effect.frame? = [] := by
        have hresults : (results.map (Effect.returned i)).filterMap Effect.frame? = [] := by
          rw [List.filterMap_map]
          exact List.filterMap_eq_nil_iff.mpr fun _ _ => rfl
        rw [List.filterMap_append, List.filterMap_append, frames_announce, frames_said, hresults]
        rfl
      cases row with
      | starting => exact ht.tells_silently ho rfl rfl rfl rfl hes id hspoke
      | _ => exact ht.tells_silently ho rfl rfl rfl rfl hes id trivial
  | spawns _ _ result =>
      obtain ⟨hat, hc⟩ := hspoke
      obtain rfl := ht.silent hc
      rcases result with ⟨_, -, rfl, rfl⟩ | ⟨-, rfl, rfl⟩
      · exact ht.tells_silently ho rfl rfl rfl rfl rfl id trivial
      · refine ⟨⟨⟨by simp, ?_, ht.answers⟩, ho, fun q hq => mem_purposes_written hq, Or.inl rfl,
          fun hr => Or.inl hr, by simp [Task.isStarter], by simp [Task.isStarter]⟩, hat, rfl, ?_⟩
        -- A new connection: nothing has been read from it.
        · intro c hc
          cases hc
          exact wired_connect
        · intro c hc
          cases hc
          rfl
  | talks hc row => exact row.tells ht ho hc hspoke hack
  | @sends method params c hc =>
      obtain ⟨hspeaks, hissued⟩ := ht.notify (g := g) (.passed method params) hc
        (Rpc.Connection.notify_notifies method params t.abandoned) (by simp) (fun _ hb => hb)
      refine ⟨(hspeaks.congr ?_).tells rfl ho (hpub hspoke) (Or.inl rfl) rfl rfl ?_, trivial⟩
      · rw [List.filterMap_append]
        exact List.append_nil _
      · intro _ _ c' hc'
        cases hc'
        exact ⟨c, hc, hissued⟩
  -- The end of the process ends the stream, and says nothing.
  | @kills _ _ said row =>
      have hquiet := (State.kill_calm g s).quiet
      have hframes : (said.map logged ++ (s.kill g).2).filterMap Effect.frame? =
          (s.kill g).2.filterMap Effect.frame? := by
        rw [List.filterMap_append, frames_said, List.nil_append]
      have hlistens : Listens lines [] s ((s.kill g).1, said.map logged ++ (s.kill g).2) :=
        (ht.kill g).congr rfl ⟨rfl, rfl⟩ hframes
      cases row with
      | late =>
          obtain ⟨hat, -⟩ := spoke_shutting.mp hspoke
          exact hlistens.tells_silently ho (purpose?_shutting _ _) hquiet.attached
            (fun hr => hquiet.lifecycle ▸ hr) (spoke_shutting.mpr ⟨fun h => hquiet.attached.trans (hat h), trivial⟩)
      | abort | failed =>
          exact hlistens.tells_silently ho rfl hquiet.attached (fun hr => hquiet.lifecycle ▸ hr) trivial
  | @closes _ _ said row =>
      have hquiet := (State.closeConnection_calm s).quiet
      have hlistens : Listens lines [] s (s.closeConnection.1, s.closeConnection.2 ++ said.map logged) :=
        ht.closeConnection.congr rfl ⟨rfl, rfl⟩ (frames_append_said _ said)
      cases row with
      | @finished starter =>
          refine hlistens.tells_silently ho (purpose?_shutting _ _) hquiet.attached
            (fun hr => hquiet.lifecycle ▸ hr) ?_
          cases starter <;> trivial
      | _ => exact hlistens.tells_silently ho rfl hquiet.attached (fun hr => hquiet.lifecycle ▸ hr) trivial
  | returns row =>
      cases row with
      | unconnected connection => exact absurd connection ((hpub hspoke).connected ht)
      | _ => exact ht.tells_silently ho rfl rfl rfl rfl rfl id trivial
  | tells => exact ht.tells_silently ho rfl rfl rfl rfl rfl id trivial

end Kinds

/-- Whether a call to stop the server has begun to shut it down. -/
def Task.isStopping : Task → Bool
  | .stop (.shutdown _) | .stop .stopped => true
  | _ => false

/-- **Every step of a thread says what is earned.** -/
theorem step_tells (ht : Traced lines s) (ho : InOrder g lines) (hf : t.task.Fits s i)
    (hspoke : t.task.Spoke lines s) (hpub : s.attached = true → Acknowledged lines)
    (hrun : s.lifecycle = .running → s.attached = true)
    (hunused : s.used = false → s.attached = false ∧ s.connection = none)
    (hunasked : t.task = .stop .look → s.lifecycle = .running → .shutdown ∉ purposes lines)
    (h : step g i t s = some p) : p.Tells g lines t.task s :=
  (does_of_step h).speaks ht ho hf hspoke hpub hrun hunused hunasked

/-- Who stops the server goes on doing so until the stop is announced. -/
theorem Does.stopping {τ : Task} (h : Does g i t s τ p) (hstop : τ.isStopping = true) :
    p.task.isStopping = true ∨ ∃ moved, p.task = .stop (.announceStopped moved) := by
  have hshutting {starter : Option LaunchMode} {q next : Option ShutdownPoint}
      (hstop : (Task.shutting starter q).isStopping = true) : (Task.shutting starter next).isStopping = true := by
    cases starter with
    | some mode => cases q <;> cases hstop
    | none => cases next <;> rfl
  cases h with
  | passes row | talks _ row | kills row | closes row =>
      cases row <;> first | exact Or.inl (hshutting hstop) | cases hstop
  | shifts row =>
      cases row with
      | stop => exact Or.inr ⟨_, rfl⟩
      | _ => cases hstop
  | marks row | informs row | returns row => cases row <;> cases hstop
  | spawns | sends | tells => cases hstop

/-- A call that has begun to shut the server down goes on until the server is stopped. -/
theorem stopping_of_step (hstop : t.task.isStopping = true) (h : step g i t s = some p) :
    p.task.isStopping = true ∨ ∃ moved, p.task = .stop (.announceStopped moved) :=
  (does_of_step h).stopping hstop

end Points

end LanguageClient.Supervisor
