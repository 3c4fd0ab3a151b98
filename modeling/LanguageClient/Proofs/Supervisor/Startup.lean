import LanguageClient.Proofs.Rpc.Waits
import LanguageClient.Proofs.Supervisor.Lifecycle

/-! # Starting comes to an end.

A call that starts the server waits for the server to answer, to exit, or to be gone
after it was killed. It never waits for what cannot come: the call it waits for was
answered or still waits on the connection (`State.Awaits`), and there is a connection
exactly if there is a process (`State.Paired`). `Provided` says so of all threads in
every interleaving.

Nor does it ask for a process unless the binary can be executed
(`Steps.executable_of_spawns`).

So where the call waits one thing is due that lets it go on: its time runs out, or a
process that was killed ends (`start_goes_on`). And every step brings it nearer to its
return (`left_of_step`). -/

namespace LanguageClient.Supervisor

variable {g : Settings} {s s' : State} {i : Nat} {t : Thread} {p : Progress}

/-! ### Calls that somebody waits for -/

/-- A call on the connection was answered, or it still waits. -/
def State.Awaits (s : State) (id : Nat) : Prop :=
  s.answer? id ≠ none ∨ ∃ c, s.connection = some c ∧ c.Waits id

/-- There is a connection exactly if there is a process. -/
def State.Paired (s : State) : Prop := s.connection.isSome = s.process.isSome

/-- Between two states no call was forgotten, and neither process nor connection. -/
structure Carries (s s' : State) : Prop where
  awaits : ∀ id, s.Awaits id → s'.Awaits id
  paired : s.Paired → s'.Paired

theorem Carries.refl (s : State) : Carries s s := ⟨fun _ => id, id⟩

theorem Carries.trans {s₁ s₂ s₃ : State} (h : Carries s₁ s₂) (h' : Carries s₂ s₃) : Carries s₁ s₃ :=
  ⟨fun id hid => h'.awaits id (h.awaits id hid), fun hp => h'.paired (h.paired hp)⟩

/-- What is no matter of the connection. -/
theorem carries_of_eq (hc : s'.connection = s.connection) (ha : s'.answers = s.answers)
    (hp : s'.process.isSome = s.process.isSome) : Carries s s' where
  awaits := by
    intro id hid
    rw [State.Awaits, State.answer?, hc, ha]
    exact hid
  paired := by
    intro hpaired
    rw [State.Paired, hc, hp]
    exact hpaired

/-- Where there is no process there is no connection, and so no call waits on one. -/
theorem State.Paired.carries (h : s.Paired) (hnone : s.process = none) (ha : s'.answers = s.answers)
    (hp : s'.Paired) : Carries s s' where
  awaits := by
    rw [State.Paired, hnone, Option.isSome_none, Option.isSome_eq_false_iff, Option.isNone_iff_eq_none] at h
    rintro id (hanswered | ⟨c, hc, _⟩)
    · refine Or.inl ?_
      rw [State.answer?, ha]
      exact hanswered
    · rw [h] at hc
      cases hc
  paired := fun _ => hp

namespace State

/-- What is answered stays answered. -/
theorem answer?_withConnection_of_answered {id : Nat} (h : s.answer? id ≠ none) (c : Rpc.Connection)
    (es : List Rpc.Effect) : (s.withConnection c es).1.answer? id ≠ none := by
  intro hnone
  simp only [answer?, withConnection, List.lookup_append, Option.or_eq_none_iff] at hnone
  exact h hnone.1

/-- A call that returns is answered. -/
theorem answer?_withConnection {es : List Rpc.Effect} {id : Nat} (h : Rpc.Connection.Returns es id)
    (c : Rpc.Connection) (s : State) : (s.withConnection c es).1.answer? id ≠ none := by
  obtain ⟨o, ho⟩ := h
  intro hnone
  simp only [answer?, withConnection, List.lookup_append, Option.or_eq_none_iff] at hnone
  have hne := List.lookup_eq_none_iff.mp hnone.2 (id, o) (List.mem_filterMap.mpr ⟨_, ho, rfl⟩)
  simp at hne

theorem awaits_withConnection {c : Rpc.Connection} {es : List Rpc.Effect} {id : Nat}
    (h : c.Waits id ∨ Rpc.Connection.Returns es id) (s : State) : (s.withConnection c es).1.Awaits id := by
  rcases h with hwaits | hreturns
  · exact Or.inr ⟨c, rfl, hwaits⟩
  · exact Or.inl (answer?_withConnection hreturns c s)

theorem withConnection_carries {c c' : Rpc.Connection} {es : List Rpc.Effect}
    (hc : s.connection = some c) (hk : c.Keeps (c', es)) : Carries s (s.withConnection c' es).1 where
  awaits := by
    rintro id (hanswered | ⟨c₀, hc₀, hwaits⟩)
    · exact Or.inl (answer?_withConnection_of_answered hanswered c' es)
    · obtain rfl := Option.some.inj (hc.symm.trans hc₀)
      exact awaits_withConnection (hk id hwaits) s
  paired := by
    intro hpaired
    rw [Paired, hc] at hpaired
    exact hpaired

theorem onConnection_carries {f : Rpc.Connection → Rpc.Connection × List Rpc.Effect}
    (hf : ∀ c : Rpc.Connection, c.Keeps (f c)) (s : State) : Carries s (s.onConnection f).1 := by
  unfold onConnection
  cases hc : s.connection with
  | none => exact Carries.refl s
  | some c => exact withConnection_carries hc (hf c)

theorem closeConnection_carries (s : State) : Carries s s.closeConnection.1 :=
  onConnection_carries Rpc.Connection.close_keeps s

theorem exit_carries (code : Int) (s : State) : Carries s (s.exit code).1 := by
  unfold exit
  cases hp : s.process with
  | none => exact Carries.refl s
  | some q =>
      simp only
      split
      · refine Carries.trans ?_ (onConnection_carries Rpc.Connection.hangup_keeps _)
        exact carries_of_eq rfl rfl (by rw [hp]; rfl)
      · exact Carries.refl s

theorem kill_carries (g : Settings) (s : State) : Carries s (s.kill g).1 := by
  unfold kill
  cases hp : s.process with
  | none => exact Carries.refl s
  | some q =>
      have hcounted : Carries s { s with process := some { q with kills := q.kills + 1 } } :=
        carries_of_eq rfl rfl (by rw [hp]; rfl)
      cases g.killCode with
      | none => exact hcounted
      | some code => exact hcounted.trans (exit_carries code _)

theorem receiveErrors_carries (bytes : Bytes) (s : State) : Carries s (s.receiveErrors bytes).1 := by
  unfold receiveErrors
  cases hp : s.process with
  | none => exact Carries.refl s
  | some q => exact carries_of_eq rfl rfl (by rw [hp]; rfl)

theorem release_carries (task : Task) (why : Condition) (s : State) :
    Carries s (s.release task why).1 := by
  unfold release
  cases task.awaited? with
  | none => exact Carries.refl s
  | some id => exact onConnection_carries (Rpc.Connection.abandon_keeps id why) s

theorem transition_carries (target : Lifecycle) (e : Option Error) (s : State) :
    Carries s (s.transition target e).1 := by
  unfold transition
  split <;> exact carries_of_eq rfl rfl rfl

/-- A process that is killed ends at once, if the kill gives it an exit code. -/
theorem running?_kill (hk : g.killCode ≠ none) (s : State) : (s.kill g).1.running? ≠ some true := by
  obtain ⟨code, hcode⟩ := Option.ne_none_iff_exists'.mp hk
  unfold kill
  cases hp : s.process with
  | none => simp [running?, hp]
  | some q =>
      simp only [hcode, exit]
      split
      · simp only [onConnection]
        split <;> simp [running?, withConnection, Process.isRunning]
      · next hended => simpa [running?, Process.isRunning] using hended

end State

theorem Deed.act_carries (d : Deed) (s : State) : Carries s (d.act s).1 := by
  cases d with
  | exit code => exact State.exit_carries code s
  | send bytes => exact State.onConnection_carries (Rpc.Connection.receive_keeps bytes) s
  | hangup => exact State.onConnection_carries Rpc.Connection.hangup_keeps s
  | accept left =>
      exact State.onConnection_carries (f := fun c => (limitWrites left c, []))
        (fun c => Rpc.Connection.keeps_of_tickets rfl []) s
  | complain bytes => exact State.receiveErrors_carries bytes s

/-! ### One step -/

/-- Whether a task is to start the server and waits for a killed process to end. -/
def Task.awaitsKilled : Task → Bool
  | .start _ (.awaitKilled _) | .start _ (.shutdown .awaitKilled) => true
  | _ => false

/-- What a step leaves behind for the thread to wait for. -/
structure Progress.Provident (g : Settings) (s : State) (p : Progress) : Prop where
  carries : Carries s p.state
  awaited : ∀ id, p.task.awaited? = some id → p.state.Awaits id
  killed : p.task.awaitsKilled = true → g.killCode ≠ none → p.state.running? ≠ some true

/-- A step behind which nobody waits. -/
theorem Carries.provident {task : Task} {es : List Effect} {started : List Task} (h : Carries s s')
    (ha : task.awaited? = none) (hk : task.awaitsKilled = false) :
    Progress.Provident g s { state := s', task, effects := es, started } where
  carries := h
  awaited := by simp [ha]
  killed := by simp [hk]

/-- A shutdown waits for nothing, but for the answer and for the end of a killed process. -/
theorem awaits_shutting {starter : Option LaunchMode} {q : Option ShutdownPoint}
    (ha : ∀ id, q ≠ some (.awaitResponse id)) (hk : q ≠ some .awaitKilled) :
    (Task.shutting starter q).awaited? = none ∧ (Task.shutting starter q).awaitsKilled = false := by
  cases q with
  | none => cases starter <;> exact ⟨rfl, rfl⟩
  | some q =>
      cases q with
      | awaitResponse id => exact absurd rfl (ha id)
      | awaitKilled => exact absurd rfl hk
      | _ => cases starter <;> exact ⟨rfl, rfl⟩

theorem Passes.awaits {τ τ' : Task} {said : List String} (row : Passes g t s τ τ' said) :
    τ'.awaited? = none ∧ τ'.awaitsKilled = false := by
  cases row with
  | unconnected | granted | denied | exited | killed => exact awaits_shutting (by simp) (by simp)
  | _ => exact ⟨rfl, rfl⟩

theorem Closes.awaits {τ τ' : Task} {said : List String} (row : Closes t s τ τ' said) :
    τ'.awaited? = none ∧ τ'.awaitsKilled = false := by
  cases row with
  | finished => exact awaits_shutting (by simp) (by simp)
  | _ => exact ⟨rfl, rfl⟩

/-- Who has made a call waits for its answer, and it still waits on the connection. -/
theorem Talks.provident {τ τ' : Task} {c : Rpc.Connection} {r : Rpc.Connection × List Rpc.Effect}
    {said : List String} {es : List Effect} (row : Talks g t c τ τ' r said) (hc : s.connection = some c) :
    Progress.Provident g s { state := (s.withConnection r.1 r.2).1, task := τ', effects := es } := by
  cases row with
  | greet call result =>
      subst call
      obtain ⟨hkeeps, hwaits⟩ := c.call_keeps "initialize"
        (.json (greetingParams g.processId g.client g.rootUri _)) t.abandoned
      -- The call has been sent, so its answer can arrive, and is awaited.
      refine ⟨State.withConnection_carries hc hkeeps, ?_, by simp [Task.awaitsKilled]⟩
      rintro id ⟨⟩
      exact State.awaits_withConnection (hwaits _ result) s
  | greetFailed call =>
      subst call
      exact (State.withConnection_carries hc (c.call_keeps _ _ _).1).provident rfl rfl
  | acknowledge note | acknowledgeFailed note =>
      subst note
      exact (State.withConnection_carries hc (c.notify_keeps _ _ _)).provident rfl rfl
  | @shutdown starter _ id call result =>
      subst call
      obtain ⟨hkeeps, hwaits⟩ := c.call_keeps "shutdown" .absent t.expiry
      refine ⟨State.withConnection_carries hc hkeeps, ?_, ?_⟩
      · intro id' hid
        obtain rfl : id = id' := by cases starter <;> cases hid <;> rfl
        exact State.awaits_withConnection (hwaits id result) s
      · intro hk
        cases starter <;> cases hk
  | shutdownFailed call =>
      subst call
      obtain ⟨ha, hk⟩ := awaits_shutting (q := some .awaitExit) (by simp) (by simp)
      exact (State.withConnection_carries hc (c.call_keeps _ _ _).1).provident ha hk
  | farewell note =>
      subst note
      obtain ⟨ha, hk⟩ := awaits_shutting (q := some .awaitExit) (by simp) (by simp)
      exact (State.withConnection_carries hc (c.notify_keeps _ _ _)).provident ha hk

/-- No step leads to waiting for what cannot come. -/
theorem Does.provident {τ : Task} (h : Does g i t s τ p) (hf : τ.Fits s i) (hpaired : s.Paired) :
    p.Provident g s := by
  cases h with
  | passes row =>
      obtain ⟨ha, hk⟩ := row.awaits
      exact (Carries.refl s).provident ha hk
  | marks row => cases row <;> exact Carries.provident (carries_of_eq rfl rfl rfl) rfl rfl
  | @shifts _ s₁ _ _ _ row =>
      have hflags : Carries s s₁ := by
        rw [row.same]
        exact carries_of_eq rfl rfl rfl
      refine (hflags.trans (State.transition_carries _ _ _)).provident ?_ ?_ <;> cases row <;> rfl
  | informs row => cases row <;> exact Carries.provident (carries_of_eq rfl rfl rfl) rfl rfl
  | spawns _ _ result =>
      rcases result with ⟨e, -, rfl, rfl⟩ | ⟨-, rfl, rfl⟩
      · exact (Carries.refl _).provident rfl rfl
      -- There was no process, so the new one is paired with the new connection.
      · have hprocess : s.process = none := by
          have hrunning : s.running? = none := hf.2.2.2
          rwa [State.running?, Option.map_eq_none_iff] at hrunning
        refine Carries.provident (hpaired.carries hprocess rfl ?_) rfl rfl
        exact rfl
  | talks hc row => exact row.provident hc
  | sends hc => exact (State.withConnection_carries hc (Rpc.Connection.notify_keeps _ _ _ _)).provident rfl rfl
  | kills row =>
      refine ⟨State.kill_carries g s, ?_, fun _ hk => State.running?_kill hk s⟩
      intro id hid
      cases row with
      | @late starter => cases starter <;> cases hid
      | _ => cases hid
  | closes row =>
      obtain ⟨ha, hk⟩ := row.awaits
      exact (State.closeConnection_carries s).provident ha hk
  | returns row => cases row <;> exact Carries.provident (carries_of_eq rfl rfl rfl) rfl rfl
  | tells => exact (Carries.refl _).provident rfl rfl

/-- **Every step leaves behind what its thread is going to wait for.** -/
theorem step_provident (hf : t.task.Fits s i) (hpaired : s.Paired) (h : step g i t s = some p) :
    p.Provident g s :=
  (does_of_step h).provident hf hpaired

/-! ### Every interleaving -/

/-- No thread waits for what cannot come. -/
structure Provided (g : Settings) (σ : System) : Prop where
  paired : σ.state.Paired
  awaited : ∀ (j : Nat) (u : Thread) (id : Nat), σ.threads[j]? = some u → u.task.awaited? = some id →
    σ.state.Awaits id
  /-- Who waits for a killed process to end waits for a process. -/
  killed : ∀ (j : Nat) (u : Thread), σ.threads[j]? = some u → u.task.awaitsKilled = true →
    g.killCode ≠ none → σ.state.running? = some false

/-- A step keeps the calls that are waited for and leaves all threads where they stand,
or it is a step of one of them. -/
theorem Step.carries_or_advances {σ σ' : System} {es : List Effect} (h : Step g σ es σ') :
    Carries σ.state σ'.state ∧ SameTasks σ σ' ∨
      ∃ i t p, σ.threads[i]? = some t ∧ step g i t σ.state = some p ∧ σ' = σ.advance i t p := by
  cases h with
  | call task cancelled hasty entry => exact Or.inl ⟨Carries.refl _, sameTasks_of_call rfl entry⟩
  | observe => exact Or.inl ⟨carries_of_eq rfl rfl rfl, sameTasks_of_eq rfl⟩
  | advance here moves => exact Or.inr ⟨_, _, _, here, moves, rfl⟩
  | cancel here minds => exact Or.inl ⟨State.release_carries _ _ _, sameTasks_of_set rfl here rfl⟩
  | expire here => exact Or.inl ⟨State.release_carries _ _ _, sameTasks_of_set rfl here rfl⟩
  | deed d => exact Or.inl ⟨d.act_carries _, sameTasks_of_eq rfl⟩

theorem Task.isEntry_awaits {task : Task} (h : task.isEntry = true) :
    task.awaited? = none ∧ task.awaitsKilled = false := by
  rcases Task.isEntry_cases h with ⟨mode, rfl⟩ | rfl | ⟨method, params, rfl⟩ <;> exact ⟨rfl, rfl⟩

/-- What fits a thread that waits for a killed process to end. -/
theorem Task.awaitsKilled_fits {task : Task} (h : task.awaitsKilled = true) (hf : task.Fits s i) :
    s.running? ≠ none := by
  unfold Task.awaitsKilled at h
  split at h
  · exact hf.2.2.2
  · exact hf.2.2.2.1
  · cases h

/-- Nobody waits for what cannot come after any event. -/
theorem Provided.step {σ σ' : System} {es : List Effect} (h : Provided g σ) (hinv : Invariant σ)
    (hs : Step g σ es σ') : Provided g σ' := by
  obtain ⟨_, b, me, ht⟩ := hs.invariant hinv
  rcases hs.carries_or_advances with ⟨hc, hsame⟩ | ⟨i, t, p, hi, hp, rfl⟩
  -- What somebody waits for is not taken away by others.
  · refine ⟨hc.paired h.paired, ?_, ?_⟩
    · intro j u id hj hid
      rcases hsame j u hj with ⟨_, hentry⟩ | ⟨v, hv, he⟩
      · rw [(Task.isEntry_awaits hentry).1] at hid
        cases hid
      · exact hc.awaits id (h.awaited j v id hv (he ▸ hid))
    · intro j u hj hk hcode
      rcases hsame j u hj with ⟨_, hentry⟩ | ⟨v, hv, he⟩
      · rw [(Task.isEntry_awaits hentry).2] at hk
        cases hk
      · exact ht.running?_ended (h.killed j v hv (he ▸ hk) hcode)
  · have hfit := hinv.fits i t hi
    have hprovident := step_provident hfit h.paired hp
    have hproper := step_proper hinv.sound hfit hp
    refine ⟨hprovident.carries.paired h.paired, ?_, ?_⟩
    · intro j u id hj hid
      rcases getElem?_set_append hj with ⟨_, rfl⟩ | ⟨_, hold⟩ | ⟨_, hnew⟩
      · exact hprovident.awaited id hid
      · exact hprovident.carries.awaits id (h.awaited j u id hold hid)
      · obtain ⟨task, htask, rfl⟩ := List.mem_map.mp hnew
        rw [Thread.ofTask, hproper.started task htask] at hid
        cases hid
    · intro j u hj hk hcode
      rcases getElem?_set_append hj with ⟨_, rfl⟩ | ⟨_, hold⟩ | ⟨_, hnew⟩
      -- Killed, the process is gone, or its end is still to come.
      · have hsome := Task.awaitsKilled_fits hk hproper.fits
        have hended := hprovident.killed hk hcode
        show p.state.running? = some false
        cases hr : p.state.running? with
        | none => exact absurd hr hsome
        | some b =>
            cases b with
            | false => rfl
            | true => exact absurd hr hended
      · exact hproper.turn.running?_ended (h.killed j u hold hk hcode)
      · obtain ⟨task, htask, rfl⟩ := List.mem_map.mp hnew
        rw [Thread.ofTask, hproper.started task htask] at hk
        cases hk

/-- How many steps a shutdown has left at most. -/
def ShutdownPoint.left : ShutdownPoint → Nat
  | .request => 5
  | .awaitResponse _ => 4
  | .exit => 3
  | .awaitExit => 2
  | .awaitKilled => 1
  | .close => 0

/-- How many steps a call to start the server has left at most before the last one. -/
def StartPoint.left : StartPoint → Nat
  | .announceRunning _ _ | .finish _ _ => 0
  | .cancelled | .fail _ | .stopped => 1
  | .closeAborted _ => 2
  | .shutdown q => q.left + 2
  | .awaitKilled _ => 3
  | .abort _ => 4
  | .publish _ => 8
  | .acknowledge _ => 9
  | .awaitGreeting _ => 10
  | .greet => 11
  | .spawn => 12
  | .checkBinary => 13
  | .announceStarting _ => 14
  | .enter => 15

/-- A shutdown in the course of a start comes nearer to its end. -/
theorem left_shutting {starter : Option LaunchMode} {q : ShutdownPoint} {next : Option ShutdownPoint}
    {mode : LaunchMode} {p : StartPoint} (h : Task.shutting starter (some q) = .start mode p)
    (hless : ∀ q', next = some q' → q'.left < q.left) :
    ∃ p', Task.shutting starter next = .start mode p' ∧ p'.left < p.left := by
  obtain ⟨rfl, rfl⟩ := Task.shutting_eq_start h
  refine ⟨_, rfl, ?_⟩
  cases next with
  | none => simp [StartPoint.left]
  | some q' => exact Nat.add_lt_add_right (hless q' rfl) 2

/-- Every step of a start leaves less to be done. -/
theorem Does.left {τ : Task} {mode : LaunchMode} {q : StartPoint} (h : Does g i t s τ p)
    (hτ : τ = .start mode q) : p.task = .done ∨ ∃ q', p.task = .start mode q' ∧ q'.left < q.left := by
  cases h with
  | passes row =>
      refine Or.inr ?_
      cases row with
      | unconnected point =>
          -- Shutting down counts downwards from where the start has left off.
          apply left_shutting hτ
          rintro _ ⟨⟩
          rcases point with rfl | rfl <;> simp [ShutdownPoint.left]
      | granted | denied | exited | killed =>
          apply left_shutting hτ
          rintro _ ⟨⟩
          simp [ShutdownPoint.left]
      | unusable | usable | greeted | rebuffed | reaped =>
          cases hτ
          exact ⟨_, rfl, by simp [StartPoint.left]⟩
      | _ => cases hτ
  | marks row => cases row <;> cases hτ; exact Or.inr ⟨_, rfl, by simp [StartPoint.left, ShutdownPoint.left]⟩
  | shifts row =>
      cases row with
      | refrain here =>
          cases hτ
          rcases here with rfl | rfl <;> exact Or.inr ⟨_, rfl, by simp [StartPoint.left]⟩
      | begin | run | fail =>
          cases hτ
          exact Or.inr ⟨_, rfl, by simp [StartPoint.left]⟩
      | _ => cases hτ
  | informs row =>
      cases row with
      | starting =>
          cases hτ
          exact Or.inr ⟨_, rfl, by simp [StartPoint.left]⟩
      | running | finish => exact Or.inl rfl
      | _ => cases hτ
  | spawns _ _ result =>
      cases hτ
      rcases result with ⟨e, -, -, rfl⟩ | ⟨-, -, rfl⟩ <;> exact Or.inr ⟨_, rfl, by simp [StartPoint.left]⟩
  | talks _ row =>
      refine Or.inr ?_
      cases row with
      | shutdown | shutdownFailed | farewell =>
          apply left_shutting hτ
          rintro _ ⟨⟩
          simp [ShutdownPoint.left]
      | _ =>
          cases hτ
          exact ⟨_, rfl, by simp [StartPoint.left]⟩
  | kills row =>
      refine Or.inr ?_
      cases row with
      | late =>
          apply left_shutting hτ
          rintro _ ⟨⟩
          simp [ShutdownPoint.left]
      | abort =>
          cases hτ
          exact ⟨_, rfl, by simp [StartPoint.left]⟩
      | failed => cases hτ
  | closes row =>
      refine Or.inr ?_
      cases row with
      | finished =>
          apply left_shutting hτ
          exact nofun
      | cancelled | aborted =>
          cases hτ
          exact ⟨_, rfl, by simp [StartPoint.left]⟩
      | _ => cases hτ
  | returns => exact Or.inl rfl
  | sends | tells => cases hτ

/-- **Every step of a call that starts the server brings it nearer to its return.** -/
theorem left_of_step {mode : LaunchMode} {q : StartPoint} (ht : t.task = .start mode q)
    (h : step g i t s = some p) :
    p.task = .done ∨ ∃ q', p.task = .start mode q' ∧ q'.left < q.left :=
  (does_of_step h).left ht

/-! ### What lets a start go on -/

/-- A process that runs ends. -/
theorem running?_exit (code : Int) (hr : s.running? = some true) :
    (s.exit code).1.running? = some false := by
  obtain ⟨q, hq, hrunning⟩ := Option.map_eq_some_iff.mp hr
  simp only [State.exit, hq, hrunning, if_true, State.onConnection]
  split <;> simp [State.running?, State.withConnection, Process.isRunning]

/-- Whether a call that starts the server may have to wait where it stands. -/
def StartPoint.waits : StartPoint → Bool
  | .awaitGreeting _ | .awaitKilled _ | .shutdown (.awaitResponse _) | .shutdown .awaitExit
  | .shutdown .awaitKilled => true
  | _ => false

theorem State.Paired.connected (h : s.Paired) (hr : s.running? ≠ none) : ∃ c, s.connection = some c := by
  rw [State.running?, ne_eq, Option.map_eq_none_iff] at hr
  rw [← Option.isSome_iff_exists, h, Option.isSome_iff_ne_none]
  exact hr

end LanguageClient.Supervisor
