import LanguageClient.Proofs.Supervisor.StopRequest

/-! # What observers are told.

Whoever changes the state of the server tells the observers afterwards, when the lock is
let go of, so that another change can come in between. As long as somebody has still to tell
of a change, only the last one can come in between, and only one call makes it: `Beat` says
what a step means to an observer, `Delivery` what it has heard and what it is still to hear.
From there `observed_in_order` says in which orders an observer hears of the changes. -/

namespace LanguageClient.Supervisor

/-! ### Callbacks -/

/-- What somebody is told who observes under some numbers. -/
def callbacks (who : List Nat) (es : List Effect) : List (Lifecycle × Lifecycle) :=
  es.filterMap fun
    | .observed j source target _ => if j ∈ who then some (source, target) else none
    | _ => none

section Callbacks

variable {who : List Nat}

@[simp] theorem callbacks_append (es more : List Effect) :
    callbacks who (es ++ more) = callbacks who es ++ callbacks who more := List.filterMap_append

@[simp] theorem callbacks_killed (es : List Effect) :
    callbacks who (.killed :: es) = callbacks who es := rfl

theorem callbacks_said (said : List String) : callbacks who (said.map logged) = [] := by
  induction said with
  | nil => rfl
  | cons text said ih => exact ih

@[simp] theorem callbacks_reports (rs : List Report) : callbacks who (rs.map .report) = [] := by
  induction rs with
  | nil => rfl
  | cons r rs ih => exact ih

/-- A transition is told once to each of the observers there were when it was made. -/
theorem callbacks_announce (o : Nat) (x : Transition) :
    callbacks [o] (State.announce (some x)) = if o < x.observers then [(x.source, x.target)] else [] := by
  obtain ⟨source, target, e, n⟩ := x
  simp only [State.announce]
  induction n with
  | zero => rfl
  | succ n ih =>
      rw [List.range_succ, List.map_append, callbacks_append, ih]
      simp only [callbacks, List.map_cons, List.map_nil, List.filterMap_cons, List.filterMap_nil,
        List.mem_singleton]
      grind

end Callbacks

/-! ### Operations that tell nobody -/

/-- An operation that does not change the state of the server, and tells no observer
anything. -/
structure Mute (s : State) (r : State × List Effect) : Prop where
  lifecycle : r.1.lifecycle = s.lifecycle
  observers : r.1.observers = s.observers
  untold : ∀ who, callbacks who r.2 = []

theorem Mute.refl (s : State) : Mute s (s, []) := ⟨rfl, rfl, fun _ => rfl⟩

theorem Mute.append {s s' : State} {es more : List Effect} (h : Mute s (s', es))
    (hm : ∀ who, callbacks who more = []) : Mute s (s', es ++ more) :=
  ⟨h.lifecycle, h.observers, fun who => by rw [callbacks_append, h.untold, hm, List.append_nil]⟩

theorem Mute.say {s s' : State} {es : List Effect} {said : List String} (h : Mute s (s', es)) :
    Mute s (s', es ++ said.map logged) :=
  h.append fun _ => callbacks_said said

namespace State

theorem withConnection_mute (c : Rpc.Connection) (es : List Rpc.Effect) (s : State) :
    Mute s (s.withConnection c es) := by
  refine ⟨rfl, rfl, fun who => ?_⟩
  simp only [withConnection]
  induction es with
  | nil => rfl
  | cons e es ih =>
      rw [List.flatMap_cons, callbacks_append, ih, List.append_nil]
      cases e with
      | notified label method params => exact callbacks_reports _
      | _ => rfl

theorem onConnection_mute (f : Rpc.Connection → Rpc.Connection × List Rpc.Effect) (s : State) :
    Mute s (s.onConnection f) := by
  unfold onConnection
  cases s.connection with
  | none => exact Mute.refl s
  | some c => exact withConnection_mute _ _ s

theorem closeConnection_mute (s : State) : Mute s s.closeConnection := onConnection_mute _ s

theorem exit_mute (code : Int) (s : State) : Mute s (s.exit code) := by
  unfold exit
  cases hp : s.process with
  | none => exact Mute.refl s
  | some p =>
      by_cases hr : p.isRunning
      · simp only [hr, if_true]
        obtain ⟨hl, ho, hu⟩ := onConnection_mute Rpc.Connection.hangup
          { s with process := some { p with exitCode := some code, errorOutput := p.errorOutput.finish.1 } }
        exact ⟨hl, ho, fun who => by rw [callbacks_append, callbacks_reports, hu, List.append_nil]⟩
      · simp only [hr]
        exact Mute.refl s

theorem kill_mute (g : Settings) (s : State) : Mute s (s.kill g) := by
  unfold kill
  cases s.process with
  | none => exact Mute.refl s
  | some p =>
      cases g.killCode with
      | none => exact ⟨rfl, rfl, fun who => by cases g.killError <;> rfl⟩
      | some code =>
          obtain ⟨hl, ho, hu⟩ := exit_mute code { s with process := some { p with kills := p.kills + 1 } }
          refine ⟨hl, ho, fun who => ?_⟩
          simp only [List.cons_append, callbacks_killed, callbacks_append, hu, List.nil_append]
          cases g.killError <;> rfl

theorem receiveErrors_mute (bytes : Bytes) (s : State) : Mute s (s.receiveErrors bytes) := by
  unfold receiveErrors
  cases s.process with
  | none => exact Mute.refl s
  | some p => exact ⟨rfl, rfl, fun who => callbacks_reports _⟩

theorem release_mute (task : Task) (why : Condition) (s : State) : Mute s (s.release task why) := by
  unfold release
  cases task.awaited? with
  | none => exact Mute.refl s
  | some id => exact onConnection_mute _ s

end State

theorem Deed.act_mute (d : Deed) (s : State) : Mute s (d.act s) := by
  cases d with
  | exit code => exact State.exit_mute code s
  | send bytes => exact State.onConnection_mute (Rpc.Connection.receive bytes) s
  | hangup => exact State.onConnection_mute Rpc.Connection.hangup s
  | accept left => exact State.onConnection_mute (fun c => (limitWrites left c, [])) s
  | complain bytes => exact State.receiveErrors_mute bytes s

/-! ### What a step has to do with observers -/

/-- The transition that observers have still to be told of, where a thread stands. -/
def Task.announcing? : Task → Option Transition
  | .start _ (.announceStarting t) | .start _ (.announceRunning t _) | .start _ (.finish t _) => t
  | .stop (.announceStopped t) | .stop (.announceFailedStopped t) => t
  | .watch (.announce t _) => t
  | _ => none

def Transition.move (x : Transition) : Lifecycle × Lifecycle := (x.source, x.target)

/-- What a step has to do with the observers, of whom `o` is one: nothing; or it makes a
transition, to be told of next; or it tells of one. -/
inductive Voice (o : Nat) (t : Task) (s : State) (p : Progress) : Prop where
  | mute (before : t.announcing? = none) (after : p.task.announcing? = none)
      (h : Mute s (p.state, p.effects)) : Voice o t s p
  | moved (x : Transition) (before : t.announcing? = none) (after : p.task.announcing? = some x)
      (move : x.move = (s.lifecycle, p.state.lifecycle)) (observers : x.observers = s.observers)
      (legal : s.lifecycle.canStep p.state.lifecycle = true)
      -- only who watches sees a server fail that runs
      (crash : s.lifecycle = .running → p.state.lifecycle = .failed → t = .watch .awaitExit)
      (kept : p.state.observers = s.observers) (untold : callbacks [o] p.effects = []) : Voice o t s p
  | told (x : Transition) (before : t.announcing? = some x) (after : p.task.announcing? = none)
      (same : p.state.lifecycle = s.lifecycle) (kept : p.state.observers = s.observers)
      (told : callbacks [o] p.effects = if o < x.observers then [x.move] else []) : Voice o t s p

section Voice

variable {o i : Nat} {g : Settings} {t : Task} {s : State} {p : Progress}

/-- A step that makes a transition is to tell of it, unless it is refused. -/
theorem voice_of_transition (s₁ : State) (target : Lifecycle) (e : Option Error)
    (hl : s₁.lifecycle = s.lifecycle) (ho : s₁.observers = s.observers)
    (hstate : p.state = (s₁.transition target e).1)
    (heffects : p.effects = (s₁.transition target e).2.1) (before : t.announcing? = none)
    (after : p.task.announcing? = (s₁.transition target e).2.2)
    (crash : s.lifecycle = .running → target = .failed → t = .watch .awaitExit) : Voice o t s p := by
  simp only [State.transition] at hstate heffects after
  split at hstate
  · next hlegal =>
      rw [if_pos hlegal] at heffects after
      have hs : p.state.lifecycle = target := by rw [hstate]
      refine .moved _ before after ?_ ho ?_ ?_ ?_ ?_
      · rw [hs, ← hl]
        rfl
      · rw [hs, ← hl]
        exact hlegal
      · rw [hs]
        exact crash
      · rw [hstate]
        exact ho
      · rw [heffects]
        rfl
  · next hlegal =>
      rw [if_neg hlegal] at heffects after
      refine .mute before after ⟨?_, ?_, fun who => ?_⟩
      · rw [hstate, hl]
      · rw [hstate, ho]
      · rw [heffects]
        rfl

/-- A step that tells of a transition, if there is one to tell of. -/
theorem voice_of_announce {moved : Option Transition} {more : List Effect} (before : t.announcing? = moved)
    (after : p.task.announcing? = none) (same : p.state.lifecycle = s.lifecycle)
    (kept : p.state.observers = s.observers) (heffects : p.effects = State.announce moved ++ more)
    (hmore : ∀ who, callbacks who more = []) : Voice o t s p := by
  cases moved with
  | none => exact .mute before after ⟨same, kept, fun who => by rw [heffects]; exact hmore who⟩
  | some x =>
      refine .told x before after same kept ?_
      rw [heffects, callbacks_append, hmore, List.append_nil, callbacks_announce]
      rfl

@[simp] theorem Task.announcing?_shutting (starter : Option LaunchMode) (q : Option ShutdownPoint) :
    (Task.shutting starter q).announcing? = none := by
  cases starter <;> cases q <;> rfl

/-- Who says lines and changes nothing observers hear of has nothing to tell them, before and
after. -/
theorem voice_of_mute {s' : State} {es : List Effect} {τ τ' : Task} (h : Mute s (s', es))
    (before : τ.announcing? = none) (after : τ'.announcing? = none) :
    Voice o τ s { state := s', task := τ', effects := es } :=
  .mute before after h

/-- A step tells observers of the transition its task announces, and of nothing else. -/
theorem Does.voice {u : Thread} {τ : Task} (h : Does g i u s τ p) (hf : τ.Fits s i) : Voice o τ s p := by
  cases h with
  | passes row =>
      refine voice_of_mute ⟨rfl, rfl, fun _ => callbacks_said _⟩ ?_ ?_
      · cases row <;> first | rfl | exact Task.announcing?_shutting _ _
      · cases row <;> first | rfl | exact Task.announcing?_shutting _ _
  | marks row =>
      cases row <;> exact voice_of_mute ⟨rfl, rfl, fun _ => callbacks_said _⟩ rfl rfl
  | shifts row =>
      have hl := congrArg State.lifecycle row.same
      have ho := congrArg State.observers row.same
      refine voice_of_transition _ _ _ hl ho rfl rfl ?_ (by cases row <;> rfl) ?_
      · cases row with
        | refrain here => rcases here with rfl | rfl <;> rfl
        | _ => rfl
      · intro hrunning htarget
        cases row with
        | fail =>
            -- a server that is being started does not run
            rw [hf.2.1] at hrunning
            cases hrunning
        | crash => rfl
        | _ => cases htarget
  | @informs _ _ _ _ said results _ row =>
      have hmore (who : List Nat) : callbacks who (said.map logged ++ results.map (.returned i)) = [] := by
        rw [callbacks_append, callbacks_said, List.nil_append]
        exact List.filterMap_eq_nil_iff.mpr (by simp)
      cases row <;> exact voice_of_announce rfl rfl rfl rfl rfl hmore
  | spawns _ _ result =>
      rcases result with ⟨e, -, rfl, rfl⟩ | ⟨-, rfl, rfl⟩ <;>
        exact voice_of_mute ⟨rfl, rfl, fun _ => rfl⟩ rfl rfl
  | talks _ row =>
      refine voice_of_mute (State.withConnection_mute _ _ s).say ?_ ?_
      · cases row <;> first | rfl | exact Task.announcing?_shutting _ _
      · cases row <;> first | rfl | exact Task.announcing?_shutting _ _
  | sends => exact voice_of_mute ((State.withConnection_mute _ _ s).append fun _ => rfl) rfl rfl
  | kills row =>
      obtain ⟨hl, ho, hu⟩ := State.kill_mute g s
      refine voice_of_mute ⟨hl, ho, fun who => ?_⟩ ?_ ?_
      · rw [callbacks_append, callbacks_said, hu, List.append_nil]
      · cases row <;> first | rfl | exact Task.announcing?_shutting _ _
      · cases row <;> first | rfl | exact Task.announcing?_shutting _ _
  | closes row =>
      refine voice_of_mute (State.closeConnection_mute s).say ?_ ?_
      · cases row <;> first | rfl | exact Task.announcing?_shutting _ _
      · cases row <;> first | rfl | exact Task.announcing?_shutting _ _
  | returns row => cases row <;> exact voice_of_mute ⟨rfl, rfl, fun _ => rfl⟩ rfl rfl
  | tells => exact voice_of_mute ⟨rfl, rfl, fun _ => rfl⟩ rfl rfl

/-- **What a step of a thread has to do with the observers.** -/
theorem step_voice {u : Thread} (hf : u.task.Fits s i) (h : step g i u s = some p) : Voice o u.task s p :=
  (does_of_step h).voice hf

end Voice

/-! ### Who watches -/

/-- The server has failed, or is stopped for good. -/
def State.IsOver (s : State) : Prop := s.lifecycle = .failed ∨ s.lifecycle = .stopped ∧ s.used = true

/-- What is over stays over. -/
theorem State.IsOver.turn {b : Bool} {me : Option Nat} {s s' : State} (h : s.IsOver) (hs : Sound s)
    (ht : Turn b me s s') : s'.IsOver := by
  rcases h with hl | ⟨hl, hu⟩
  · rcases ht.legal with hsame | hlegal
    · exact Or.inl (hsame.trans hl)
    · rw [hl] at hlegal
      refine Or.inr ⟨?_, ht.used (hs.used_of_ne (by rw [hl]; simp))⟩
      revert hlegal
      cases s'.lifecycle <;> simp [Lifecycle.canStep]
  · exact Or.inr ⟨ht.stays_stopped hu hl, ht.used hu⟩

/-- Nobody watches the process before the server was started, and who saw it end sees it
through. -/
structure Watched (σ : System) : Prop where
  started : ∀ (j : Nat) (t : Thread), σ.threads[j]? = some t → t.task = .watch .awaitExit →
    σ.state.used = true ∧ ∀ (k : Nat) (u : Thread), σ.threads[k]? = some u → u.task.isStarter = false
  ended : ∀ (j : Nat) (t : Thread) (moved : Option Transition) (code : Int), σ.threads[j]? = some t →
    t.task = .watch (.announce moved code) → σ.state.IsOver

section Watch

variable {g : Settings} {i : Nat} {t : Thread} {s : State} {p : Progress}

/-- Who watches a process goes on to tell the observers only from seeing a running server fail,
and from there on by itself. -/
inductive Watching (s s' : State) : WatchPoint → WatchPoint → Prop where
  | crash {code : Int} {x : Transition} (running : s.lifecycle = .running) (failed : s'.lifecycle = .failed) :
      Watching s s' .awaitExit (.announce (some x) code)
  | told {moved : Option Transition} {code : Int} : Watching s s' (.announce moved code) (.close code)
  | closed {code : Int} : Watching s s' (.close code) (.tell code)

/-- A step leads to watching only from watching. -/
theorem Does.watching {τ : Task} {q : WatchPoint} (h : Does g i t s τ p) (hq : p.task = .watch q) :
    ∃ q', τ = .watch q' ∧ Watching s p.state q' q := by
  -- Only a watcher goes on as a watcher.
  cases h with
  | shifts row =>
      cases row with
      | crash _ _ running =>
          rw [State.transition_of_canStep (by rw [running]; rfl)] at hq ⊢
          cases hq
          exact ⟨_, rfl, .crash running rfl⟩
      | _ => cases hq
  | informs row =>
      cases row with
      | crashed =>
          cases hq
          exact ⟨_, rfl, .told⟩
      | _ => cases hq
  | closes row =>
      cases row with
      | crashed =>
          cases hq
          exact ⟨_, rfl, .closed⟩
      | finished => exact absurd hq Task.shutting_ne_watch
      | _ => cases hq
  | passes row | talks _ row | kills row => cases row <;> first | cases hq | exact absurd hq Task.shutting_ne_watch
  | marks row => cases row <;> cases hq
  | spawns | sends | returns | tells => cases hq

theorem watching_of_step {q : WatchPoint} (h : step g i t s = some p) (hq : p.task = .watch q) :
    ∃ q', t.task = .watch q' ∧ Watching s p.state q' q :=
  (does_of_step h).watching hq

/-- Only a call that has started the server lets somebody watch, and then it returns. -/
theorem starter_of_started (h : step g i t s = some p) (hs : p.started ≠ []) :
    t.task.isStarter = true ∧ p.task = .done := by
  have hdoes := does_of_step h
  generalize t.task = τ at hdoes
  cases hdoes with
  | informs row =>
      cases row with
      | running => exact ⟨rfl, rfl⟩
      | _ => exact absurd rfl hs
  | _ => exact absurd rfl hs

/-- A step from outside keeps to that. -/
theorem Watched.quiet {σ σ' : System} (h : Watched σ) (hi : Invariant σ) (hq : Quiet σ.state σ'.state)
    (ht : SameTasks σ σ') : Watched σ' where
  started := by
    intro j u hu htask
    rcases ht j u hu with ⟨_, he⟩ | ⟨t, hj, he⟩
    · rw [htask] at he
      cases he
    · obtain ⟨hused, hnone⟩ := h.started j t hj (he.symm.trans htask)
      refine ⟨hq.used.trans hused, ?_⟩
      intro k v hv
      rcases ht k v hv with ⟨_, he⟩ | ⟨w, hw, he⟩
      · exact Task.isEntry_not_starter he
      · rw [he]
        exact hnone k w hw
  ended := by
    intro j u moved code hu htask
    rcases ht j u hu with ⟨_, he⟩ | ⟨t, hj, he⟩
    · rw [htask] at he
      cases he
    · exact (h.ended j t moved code hj (he.symm.trans htask)).turn hi.sound (hq.turn false none)

/-- A step of a thread keeps to that. -/
theorem Watched.advance {σ : System} (h : Watched σ) (hinv : Invariant σ)
    (hi : σ.threads[i]? = some t) (hp : step g i t σ.state = some p) : Watched (σ.advance i t p) where
  started := by
    have hproper := step_proper hinv.sound (hinv.fits i t hi) hp
    have hwatch : ∀ u ∈ p.started.map Thread.ofTask, u.task.isStarter = false := by
      intro u hu
      obtain ⟨task, htask, rfl⟩ := List.mem_map.mp hu
      rw [hproper.started task htask]
      rfl
    intro j u hu htask
    rcases getElem?_set_append hu with ⟨rfl, rfl⟩ | ⟨_, hj⟩ | ⟨_, hnew⟩
    · -- nobody comes to wait for an exit who was doing something else
      obtain ⟨q, -, hq⟩ := watching_of_step hp htask
      cases hq
    · obtain ⟨hused, hnone⟩ := h.started j u hj htask
      refine ⟨hproper.turn.used hused, ?_⟩
      intro k v hv
      rcases getElem?_set_append hv with ⟨rfl, rfl⟩ | ⟨_, hk⟩ | ⟨_, hk⟩
      · by_contra hst
        rcases hproper.starter (by simpa using hst) with hst | hunused
        · rw [hnone k t hi] at hst
          cases hst
        · rw [hused] at hunused
          cases hunused
      · exact hnone k v hk
      · exact hwatch v hk
    · -- the one call that has started the server has returned
      obtain ⟨task, hmem, -⟩ := List.mem_map.mp hnew
      obtain ⟨hstarter, hdone⟩ := starter_of_started hp (List.ne_nil_of_mem hmem)
      refine ⟨hproper.turn.used ((hinv.fits i t hi).used hstarter), ?_⟩
      intro k v hv
      rcases getElem?_set_append hv with ⟨rfl, rfl⟩ | ⟨hne, hk⟩ | ⟨_, hk⟩
      · rw [hdone]
        rfl
      · by_contra hst
        exact hne (hinv.unique k i v t hk hi (by simpa using hst) hstarter)
      · exact hwatch v hk
  ended := by
    have hproper := step_proper hinv.sound (hinv.fits i t hi) hp
    intro j u moved code hu htask
    rcases getElem?_set_append hu with ⟨rfl, rfl⟩ | ⟨_, hj⟩ | ⟨_, hnew⟩
    · obtain ⟨q, -, hq⟩ := watching_of_step hp htask
      cases hq with
      | crash _ failed => exact Or.inl failed
    · exact (h.ended j u moved code hj htask).turn hinv.sound hproper.turn
    · obtain ⟨task, hmem, rfl⟩ := List.mem_map.mp hnew
      rw [hproper.started task hmem] at htask
      cases htask

theorem Watched.step {σ σ' : System} {es : List Effect} (h : Watched σ) (hinv : Invariant σ)
    (hs : Step g σ es σ') : Watched σ' := by
  rcases hs.calm_or_advances with ⟨hc, ht⟩ | ⟨i, t, p, hi, hp, rfl, rfl⟩
  · exact h.quiet hinv hc.quiet ht
  · exact h.advance hinv hi hp

theorem Steps.watched {σ τ : System} {path : List Lifecycle} {es : List Effect}
    (hs : Steps g σ path es τ) (hinv : Invariant σ) (h : Watched σ) : Watched τ := by
  induction hs with
  | refl => exact h
  | step hsteps hstep ih => exact ih.step (hsteps.invariant hinv) hstep

theorem watched_initial : Watched {} := ⟨by simp, by simp⟩

end Watch

/-! ### Whom observers wait for -/

/-- Thread `j` has still to tell the observers of a transition. -/
def Announces (σ : System) (j : Nat) (x : Transition) : Prop :=
  ∃ t, σ.threads[j]? = some t ∧ t.task.announcing? = some x

/-- The server is stopped for good. -/
def State.IsFinal (s : State) : Prop := s.lifecycle = .stopped ∧ s.used = true

theorem stopped_of_legal {b : Bool} {me : Option Nat} {s s' : State} (ht : Turn b me s s')
    (hu : s.used = true) (hl : s.lifecycle ≠ .starting)
    (hlegal : s.lifecycle.canStep s'.lifecycle = true)
    (hcrash : s.lifecycle = .running → s'.lifecycle ≠ .failed) : s'.IsFinal := by
  refine ⟨?_, ht.used hu⟩
  have hne := ht.ne_starting hu hl
  revert hlegal hcrash hne hl
  cases s.lifecycle <;> cases s'.lifecycle <;> simp [Lifecycle.canStep]

section Announce

variable {g : Settings} {σ : System} {i k : Nat} {t u : Thread} {p : Progress} {x : Transition}

/-- Who has still to tell of a transition starts the server, or the server has failed or is
stopped. -/
theorem over_or_starter_of_announces (hinv : Invariant σ) (hw : Watched σ) (hk : Announces σ k x) :
    σ.state.IsOver ∨ ∃ u, σ.threads[k]? = some u ∧ u.task.isStarter = true := by
  obtain ⟨u, hu, hx⟩ := hk
  have hfits := hinv.fits k u hu
  cases htask : u.task with
  | notify | done => rw [htask] at hx; cases hx
  | watch q =>
      rw [htask] at hx
      cases q with
      | announce moved code => exact Or.inl (hw.ended k u moved code hu htask)
      | _ => cases hx
  | stop q =>
      rw [htask] at hx hfits
      cases q with
      | announceStopped moved | announceFailedStopped moved => exact Or.inl (Or.inr (hfits (by simp)).2)
      | _ => cases hx
  | start mode q =>
      refine Or.inr ⟨u, hu, ?_⟩
      rw [htask] at hx ⊢
      cases q <;> first | rfl | cases hx

/-- **As long as a transition is to be told of, nobody else makes any but the last one**, and
not before the server has started. -/
theorem final_of_moved (hinv : Invariant σ) (hw : Watched σ) (hk : Announces σ k x)
    (hi : σ.threads[i]? = some t) (hne : i ≠ k) (hp : step g i t σ.state = some p)
    (hlegal : σ.state.lifecycle.canStep p.state.lifecycle = true)
    (crash : σ.state.lifecycle = .running → p.state.lifecycle = .failed → t.task = .watch .awaitExit) :
    p.state.IsFinal ∧ σ.state.lifecycle ≠ .starting := by
  have hturn := (step_proper hinv.sound (hinv.fits i t hi) hp).turn
  rcases over_or_starter_of_announces hinv hw hk with (hl | ⟨hl, hused⟩) | ⟨u, hu, hstarter⟩
  · have hstarted : σ.state.lifecycle ≠ .starting := by rw [hl]; simp
    have hused := hinv.sound.used_of_ne (by rw [hl]; simp)
    exact ⟨stopped_of_legal hturn hused hstarted hlegal (by rw [hl]; simp), hstarted⟩
  · rw [hl, hturn.stays_stopped hused hl] at hlegal
    cases hlegal
  · -- while somebody starts the server, no other thread does, and nobody watches it
    have hother : t.task.isStarter = false := by
      by_contra hst
      exact hne (hinv.unique i k t u hi hu (by simpa using hst) hstarter)
    have hwatch : t.task ≠ .watch .awaitExit := by
      intro ht
      have hnone := (hw.started i t hi ht).2 k u hu
      rw [hstarter] at hnone
      cases hnone
    have hstarted : σ.state.lifecycle ≠ .starting := by
      intro hl
      have hstays := (hturn.leavesStarting hl).resolve_right (by simp [hother])
      rw [hl, hstays] at hlegal
      cases hlegal
    have hused := (hinv.fits k u hu).used hstarter
    exact ⟨stopped_of_legal hturn hused hstarted hlegal fun hr hf => hwatch (crash hr hf), hstarted⟩

/-- Who stands where it stood has to tell what it had to tell. -/
theorem announces_congr {σ' : System} (h : SameTasks σ σ') (hlen : σ.threads.length ≤ σ'.threads.length) :
    Announces σ' k x ↔ Announces σ k x := by
  constructor
  · rintro ⟨u, hu, hx⟩
    rcases h k u hu with ⟨_, he⟩ | ⟨t, ht, htask⟩
    · rcases Task.isEntry_cases he with ⟨mode, he⟩ | he | ⟨method, params, he⟩ <;> rw [he] at hx <;> cases hx
    · exact ⟨t, ht, htask ▸ hx⟩
  · rintro ⟨t, ht, hx⟩
    have hlt := (List.getElem?_eq_some_iff.mp ht).1
    have hu := List.getElem?_eq_getElem (Nat.lt_of_lt_of_le hlt hlen)
    rcases h k _ hu with ⟨hnone, _⟩ | ⟨t', ht', htask⟩
    · rw [ht] at hnone
      cases hnone
    · obtain rfl := Option.some.inj (ht.symm.trans ht')
      exact ⟨_, hu, htask ▸ hx⟩

/-- Who moves has to tell what it has come to, and the others what they had to tell. -/
theorem announces_advance (hi : σ.threads[i]? = some t) (hp : step g i t σ.state = some p)
    (hs : ∀ task ∈ p.started, task = .watch .awaitExit) :
    Announces (σ.advance i t p) k x ↔
      k = i ∧ p.task.announcing? = some x ∨ k ≠ i ∧ Announces σ k x := by
  constructor
  · rintro ⟨u, hu, hx⟩
    rcases getElem?_set_append hu with ⟨rfl, rfl⟩ | ⟨hne, hk⟩ | ⟨_, hnew⟩
    · exact Or.inl ⟨rfl, hx⟩
    · exact Or.inr ⟨hne, u, hk, hx⟩
    · obtain ⟨task, hmem, rfl⟩ := List.mem_map.mp hnew
      rw [Thread.ofTask, hs task hmem] at hx
      cases hx
  · rintro (⟨rfl, hx⟩ | ⟨hne, u, hu, hx⟩)
    · exact ⟨_, System.getElem?_advance_self hi p, hx⟩
    · exact ⟨u, System.getElem?_advance_of_ne hu hne t p, hx⟩

end Announce

/-! ### What one step of a system tells -/

/-- What a step of a system means to observer `o`: nothing; or a transition is made, of
which it is to be told; or it is told of one. -/
inductive Beat (o : Nat) (σ : System) (es : List Effect) (σ' : System) : Prop where
  | rest (same : σ'.state.lifecycle = σ.state.lifecycle)
      (observers : σ.state.observers ≤ σ'.state.observers) (untold : callbacks [o] es = [])
      (pending : ∀ k y, Announces σ' k y ↔ Announces σ k y) : Beat o σ es σ'
  | moved (i : Nat) (x : Transition) (fresh : ∀ y, ¬ Announces σ i y)
      (move : x.move = (σ.state.lifecycle, σ'.state.lifecycle))
      (legal : σ.state.lifecycle.canStep σ'.state.lifecycle = true)
      (last : ∀ k y, Announces σ k y → σ'.state.IsFinal ∧ σ.state.lifecycle ≠ .starting)
      (heard : x.observers = σ.state.observers)
      (observers : σ.state.observers ≤ σ'.state.observers) (untold : callbacks [o] es = [])
      (pending : ∀ k y, Announces σ' k y ↔ k = i ∧ y = x ∨ Announces σ k y) : Beat o σ es σ'
  | told (i : Nat) (x : Transition) (due : Announces σ i x)
      (same : σ'.state.lifecycle = σ.state.lifecycle) (observers : σ.state.observers ≤ σ'.state.observers)
      (told : callbacks [o] es = if o < x.observers then [x.move] else [])
      (pending : ∀ k y, Announces σ' k y ↔ k ≠ i ∧ Announces σ k y) : Beat o σ es σ'

section Beat

variable {g : Settings} {σ σ' : System} {es : List Effect} {i : Nat} {t : Thread} {p : Progress}

/-- A step that is none of a thread means nothing to observers. -/
theorem beat_of_mute (o : Nat) (h : Mute σ.state (σ'.state, es)) (ht : SameTasks σ σ')
    (hlen : σ.threads.length ≤ σ'.threads.length) : Beat o σ es σ' :=
  .rest h.lifecycle (Nat.le_of_eq h.observers.symm) (h.untold _) fun _ _ => announces_congr ht hlen

/-- A step is a beat for an observer: a transition to be told of, one that is told of, or neither. -/
theorem beat_of_advance (o : Nat) (hinv : Invariant σ) (hw : Watched σ)
    (hi : σ.threads[i]? = some t) (hp : step g i t σ.state = some p) :
    Beat o σ p.effects (σ.advance i t p) := by
  have hproper := step_proper hinv.sound (hinv.fits i t hi) hp
  have hpending (k : Nat) (y : Transition) := announces_advance (k := k) (x := y) hi hp hproper.started
  -- What this thread announces is at its own task.
  have hself {y : Transition} : Announces σ i y ↔ t.task.announcing? = some y := by
    constructor
    · rintro ⟨u, hu, hy⟩
      obtain rfl := Option.some.inj (hi.symm.trans hu)
      exact hy
    · exact fun hy => ⟨t, hi, hy⟩
  cases step_voice (o := o) (hinv.fits i t hi) hp with
  | mute before after h =>
      refine .rest h.lifecycle (Nat.le_of_eq h.observers.symm) (h.untold _) fun k y => ?_
      rw [hpending, after]
      constructor
      · rintro (⟨-, hy⟩ | ⟨-, hk⟩)
        · cases hy
        · exact hk
      · intro hk
        refine Or.inr ⟨?_, hk⟩
        rintro rfl
        rw [hself, before] at hk
        cases hk
  | moved x before after move observers legal crash kept untold =>
      have hfresh (y : Transition) : ¬ Announces σ i y := by
        rw [hself, before]
        simp
      refine .moved i x hfresh move legal ?_ observers (Nat.le_of_eq kept.symm) untold fun k y => ?_
      · intro k y hk
        refine final_of_moved hinv hw hk hi ?_ hp legal crash
        rintro rfl
        exact hfresh y hk
      · rw [hpending, after, Option.some.injEq, eq_comm (a := x)]
        refine or_congr_right ⟨And.right, fun hk => ⟨?_, hk⟩⟩
        rintro rfl
        exact hfresh y hk
  | told x before after same kept told =>
      refine .told i x (hself.mpr before) same (Nat.le_of_eq kept.symm) told fun k y => ?_
      rw [hpending, after]
      simp

/-- **What a step means to an observer.** -/
theorem Step.beat (o : Nat) (hinv : Invariant σ) (hw : Watched σ) (h : Step g σ es σ') :
    Beat o σ es σ' := by
  cases h with
  | call task cancelled hasty entry =>
      exact beat_of_mute o (Mute.refl _) (sameTasks_of_call rfl entry) (by simp)
  | observe =>
      exact .rest rfl (Nat.le_succ _) rfl fun _ _ => Iff.rfl
  | advance here moves => exact beat_of_advance o hinv hw here moves
  | cancel here minds =>
      exact beat_of_mute o (State.release_mute _ _ _) (sameTasks_of_set rfl here rfl) (by simp)
  | expire here =>
      exact beat_of_mute o (State.release_mute _ _ _) (sameTasks_of_set rfl here rfl) (by simp)
  | deed d => exact beat_of_mute o (d.act_mute _) (sameTasks_of_eq rfl) (Nat.le_refl _)

end Beat

/-! ### What was told, and what is still to be told -/

def moves : List Lifecycle → List (Lifecycle × Lifecycle)
  | a :: b :: path => (a, b) :: moves (b :: path)
  | _ => []

theorem moves_concat {path : List Lifecycle} {a : Lifecycle} (h : path.getLast? = some a) (b : Lifecycle) :
    moves (path ++ [b]) = moves path ++ [(a, b)] := by
  induction path with
  | nil => cases h
  | cons c path ih =>
      cases path with
      | nil =>
          cases h
          rfl
      | cons d path =>
          rw [List.getLast?_cons_cons] at h
          exact congrArg ((c, d) :: ·) (ih h)

theorem moves_visit {path : List Lifecycle} {a b : Lifecycle} (h : path.getLast? = some a) :
    moves (visit path b) = moves path ++ if b = a then [] else [(a, b)] := by
  by_cases hb : b = a
  · rw [visit_of_last (hb ▸ h), if_pos hb, List.append_nil]
  · rw [visit_of_ne (by rw [h]; simpa using Ne.symm hb), if_neg hb, moves_concat h]

/-- Threads with the transitions they have still to tell of. -/
structure Queued (σ : System) (ps : List (Nat × Transition)) : Prop where
  iff : ∀ i x, Announces σ i x ↔ (i, x) ∈ ps
  nodup : (ps.map Prod.fst).Nodup

/-- The moves of threads that have still to tell of them. -/
def due (ps : List (Nat × Transition)) : List (Lifecycle × Lifecycle) := ps.map (·.2.move)

/-- What was `heard` of some moves and what is due come in the order in which it happened,
except that the last move may be told before the one before it. -/
def InTime (ts heard : List (Lifecycle × Lifecycle)) (ps : List (Nat × Transition)) (ended : Prop) : Prop :=
  ts = heard ++ due ps ∧ ps.length ≤ 2 ∧ (ps.length = 2 → ended) ∨
    ended ∧ ps.length ≤ 1 ∧ ∃ before x y, ts = before ++ [x, y] ∧ heard ++ due ps = before ++ [y, x]

/-- The server is stopped for good, by the last of some moves, and it had been started. -/
def Ended (ts : List (Lifecycle × Lifecycle)) (s : State) : Prop :=
  s.IsFinal ∧ ∀ m, ts.getLast? = some m → m.1 ≠ .starting

/-- What an observer has heard of some moves, and what it has still to be told. -/
structure Delivery (o : Nat) (σ : System) (ts heard : List (Lifecycle × Lifecycle)) : Prop where
  registered : o < σ.state.observers
  queued : ∃ ps, Queued σ ps ∧ (∀ q ∈ ps, o < q.2.observers) ∧ InTime ts heard ps (Ended ts σ.state)

section Delivery

variable {o : Nat} {g : Settings} {σ σ' : System} {es : List Effect}
  {ts heard : List (Lifecycle × Lifecycle)} {ps : List (Nat × Transition)} {i : Nat} {x : Transition}
  {ended ended' : Prop}

theorem InTime.mono (h : InTime ts heard ps ended) (ho : ended → ended') : InTime ts heard ps ended' :=
  h.imp (fun ⟨hts, hlen, hover⟩ => ⟨hts, hlen, fun hl => ho (hover hl)⟩)
    fun ⟨hover, hrest⟩ => ⟨ho hover, hrest⟩

/-- One more move, which is to be told of. -/
theorem InTime.moved (h : InTime ts heard ps ended) (hnot : ¬ ended) (hlast : ps ≠ [] → ended') :
    InTime (ts ++ [x.move]) heard (ps ++ [(i, x)]) ended' := by
  rcases h with ⟨hts, hlen, hover⟩ | ⟨hover, -⟩
  · refine Or.inl ⟨?_, ?_, ?_⟩
    · rw [hts, List.append_assoc, due, due, List.map_append]
      rfl
    · have hne : ps.length ≠ 2 := fun h => hnot (hover h)
      rw [List.length_append, List.length_singleton]
      omega
    · intro hl
      apply hlast
      rintro rfl
      cases hl
  · exact absurd hover hnot

/-- One of those that are due is told. -/
theorem InTime.told (h : InTime ts heard ps ended) (hx : (i, x) ∈ ps) (hn : (ps.map Prod.fst).Nodup) :
    InTime ts (heard ++ [x.move]) (ps.filter (·.1 ≠ i)) ended := by
  match ps, h with
  | [], _ => cases hx
  | [(j, y)], h =>
      cases List.mem_singleton.mp hx
      have hnone : [(i, x)].filter (·.1 ≠ i) = [] := by simp
      rw [hnone]
      rcases h with ⟨hts, -⟩ | ⟨hover, -, before, u, v, hts, hheard⟩
      · exact Or.inl ⟨by rw [hts]; exact (List.append_nil _).symm, by simp, by simp⟩
      · exact Or.inr ⟨hover, by simp, before, u, v, hts, (List.append_nil _).trans hheard⟩
  | [(j, y), (k, z)], h =>
      have hjk : j ≠ k := by simpa using hn
      rcases h with ⟨hts, -, hover⟩ | ⟨-, hlen, -⟩
      · rcases List.mem_pair.mp hx with hx | hx <;> cases hx
        · have hrest : [(i, x), (k, z)].filter (·.1 ≠ i) = [(k, z)] := by simp [Ne.symm hjk]
          rw [hrest]
          exact Or.inl ⟨by rw [hts, List.append_assoc]; rfl, by simp, by simp⟩
        · -- the last move is told before the one before it
          have hrest : [(j, y), (i, x)].filter (·.1 ≠ i) = [(j, y)] := by simp [hjk]
          rw [hrest]
          exact Or.inr ⟨hover rfl, by simp, heard, y.move, x.move, hts, List.append_assoc ..⟩
      · simp at hlen
  | _ :: _ :: _ :: _, h =>
      rcases h with ⟨-, hlen, -⟩ | ⟨-, hlen, -⟩ <;> simp at hlen

theorem Queued.rest (h : Queued σ ps) (hp : ∀ k y, Announces σ' k y ↔ Announces σ k y) : Queued σ' ps :=
  ⟨fun k y => (hp k y).trans (h.iff k y), h.nodup⟩

/-- A new transition goes behind those that wait to be told of. -/
theorem Queued.moved (h : Queued σ ps) (fresh : ∀ y, ¬ Announces σ i y)
    (hp : ∀ k y, Announces σ' k y ↔ k = i ∧ y = x ∨ Announces σ k y) : Queued σ' (ps ++ [(i, x)]) where
  iff := by
    intro k y
    rw [hp, h.iff, List.mem_append, List.mem_singleton, Prod.mk.injEq, or_comm]
  nodup := by
    rw [List.map_append, List.nodup_append]
    refine ⟨h.nodup, by simp, ?_⟩
    rintro k hk _ hi rfl
    rw [List.mem_singleton.mp hi] at hk
    obtain ⟨⟨j, y⟩, hy, rfl⟩ := List.mem_map.mp hk
    exact fresh y ((h.iff _ y).mpr hy)

/-- A transition that was told of leaves the queue. -/
theorem Queued.told (h : Queued σ ps) (hp : ∀ k y, Announces σ' k y ↔ k ≠ i ∧ Announces σ k y) :
    Queued σ' (ps.filter (·.1 ≠ i)) where
  iff := by
    intro k y
    rw [hp, h.iff, List.mem_filter, and_comm, decide_eq_true_eq]
  nodup := h.nodup.sublist (List.filter_sublist.map Prod.fst)

/-- **One step, and what an observer is told in it.** -/
theorem Delivery.step (h : Delivery o σ ts heard) (hb : Beat o σ es σ')
    (hstays : σ.state.IsFinal → σ'.state.IsFinal) :
    Delivery o σ'
      (ts ++ if σ'.state.lifecycle = σ.state.lifecycle then [] else [(σ.state.lifecycle, σ'.state.lifecycle)])
      (heard ++ callbacks [o] es) := by
  obtain ⟨hregistered, ps, hqueued, hknown, htime⟩ := h
  cases hb with
  | rest same observers untold pending =>
      rw [if_pos same, untold, List.append_nil, List.append_nil]
      exact ⟨Nat.lt_of_lt_of_le hregistered observers, ps, hqueued.rest pending, hknown,
        htime.mono fun he => ⟨hstays he.1, he.2⟩⟩
  -- A legal step always goes somewhere else.
  | moved i x fresh move legal last hx observers untold pending =>
      have hchanged : σ'.state.lifecycle ≠ σ.state.lifecycle := by
        intro he
        rw [he] at legal
        revert legal
        cases σ.state.lifecycle <;> simp [Lifecycle.canStep]
      have hnot : ¬ σ.state.IsFinal := fun hf => hchanged ((hstays hf).1.trans hf.1.symm)
      rw [if_neg hchanged, untold, List.append_nil, ← move]
      refine ⟨Nat.lt_of_lt_of_le hregistered observers, _, hqueued.moved fresh pending, ?_, ?_⟩
      · intro q hq
        rcases List.mem_append.mp hq with hq | hq
        · exact hknown q hq
        · rw [List.mem_singleton.mp hq, hx]
          exact hregistered
      -- Whoever has not yet announced is overtaken, which only happens at the end.
      · refine htime.moved (fun he => hnot he.1) fun hne => ?_
        obtain ⟨⟨k, y⟩, hk⟩ := List.exists_mem_of_ne_nil ps hne
        obtain ⟨hfinal, hstarted⟩ := last k y ((hqueued.iff k y).mpr hk)
        refine ⟨hfinal, fun m hm => ?_⟩
        rw [List.getLast?_concat, move] at hm
        cases hm
        exact hstarted
  | told i x due same observers told pending =>
      have hmem := (hqueued.iff i x).mp due
      rw [if_pos same, told, if_pos (hknown _ hmem), List.append_nil]
      exact ⟨Nat.lt_of_lt_of_le hregistered observers, _, hqueued.told pending,
        fun q hq => hknown q (List.mem_filter.mp hq).1,
        (htime.told hmem hqueued.nodup).mono fun he => ⟨hstays he.1, he.2⟩⟩

/-- A server that is stopped for good stays stopped. -/
theorem State.IsFinal.step {σ σ' : System} {es : List Effect} (h : σ.state.IsFinal) (hinv : Invariant σ)
    (hs : Step g σ es σ') : σ'.state.IsFinal := by
  obtain ⟨-, _, _, ht⟩ := hs.invariant hinv
  exact ⟨ht.stays_stopped h.2 h.1, ht.used h.2⟩

/-- Before anybody has started the server nothing is to be told. -/
theorem delivery_unused (hinv : Invariant σ) (hw : Watched σ) (hu : σ.state.used = false)
    (ho : o < σ.state.observers) : Delivery o σ [] [] := by
  have hnobody (i : Nat) (x : Transition) : ¬ Announces σ i x := by
    intro hx
    have hused : σ.state.used = true := by
      rcases over_or_starter_of_announces hinv hw hx with (hl | ⟨-, hused⟩) | ⟨t, ht, hstarter⟩
      · exact hinv.sound.used_of_ne (by rw [hl]; simp)
      · exact hused
      · exact (hinv.fits i t ht).used hstarter
    rw [hu] at hused
    cases hused
  exact ⟨ho, [], ⟨fun i x => iff_of_false (hnobody i x) (by simp), by simp⟩, by simp,
    Or.inl ⟨rfl, by simp, by simp⟩⟩

/-- **What an observer has heard of a run.** -/
theorem Steps.delivery {path : List Lifecycle} {τ : System} (hinv : Invariant σ) (hw : Watched σ)
    (hu : σ.state.used = false) (ho : o < σ.state.observers) (h : Steps g σ path es τ) :
    path.getLast? = some τ.state.lifecycle ∧ Delivery o τ (moves path) (callbacks [o] es) := by
  induction h with
  | refl => exact ⟨rfl, delivery_unused hinv hw hu ho⟩
  | step hsteps hstep ih =>
      have hinv' := hsteps.invariant hinv
      obtain ⟨hlast, hdelivery⟩ := ih
      refine ⟨getLast?_visit _ _, ?_⟩
      rw [moves_visit hlast, callbacks_append]
      exact hdelivery.step (hstep.beat o hinv' (hsteps.watched hinv hw)) fun hf => hf.step hinv' hstep

end Delivery

/-! ### The order of what is told -/

/-- The last move stops a server that had been started, and is told before the one before it. -/
def Overtaken (made told : List (Lifecycle × Lifecycle)) : Prop :=
  ∃ before x source, source ≠ .starting ∧
    made = before ++ [x, (source, .stopped)] ∧ told = before ++ [(source, .stopped), x]

/-- Each move begins where the one before it has ended. -/
theorem isChain_moves (path : List Lifecycle) : (moves path).IsChain fun x y => x.2 = y.1 := by
  match path with
  | [] | [_] | [_, _] => simp [moves]
  | a :: b :: c :: path =>
      rw [moves, moves, List.isChain_cons_cons, ← moves]
      exact ⟨rfl, isChain_moves (b :: c :: path)⟩

/-- The last move ends where the path does. -/
theorem getLast?_of_moves {path : List Lifecycle} {m : Lifecycle × Lifecycle}
    (h : (moves path).getLast? = some m) : path.getLast? = some m.2 := by
  match path with
  | [] | [_] => cases h
  | [a, b] =>
      cases h
      rfl
  | a :: b :: c :: path =>
      rw [moves, moves, List.getLast?_cons_cons, ← moves] at h
      rw [List.getLast?_cons_cons]
      exact getLast?_of_moves h

theorem due_eq_nil {σ : System} {ps : List (Nat × Transition)} (h : Queued σ ps)
    (hnone : ∀ i x, ¬ Announces σ i x) : due ps = [] := by
  cases ps with
  | nil => rfl
  | cons q ps => exact absurd ((h.iff q.1 q.2).mpr (List.mem_cons_self ..)) (hnone q.1 q.2)

/-- What was heard comes first in an order in which everything is heard. -/
theorem Delivery.told {o : Nat} {σ : System} {path : List Lifecycle} {heard : List (Lifecycle × Lifecycle)}
    (h : Delivery o σ (moves path) heard) (hlast : path.getLast? = some σ.state.lifecycle) :
    ∃ told, (told = moves path ∨ Overtaken (moves path) told) ∧ heard <+: told ∧
      ((∀ i x, ¬ Announces σ i x) → heard = told) := by
  obtain ⟨-, ps, hqueued, -, htime⟩ := h
  refine ⟨heard ++ due ps, ?_, List.prefix_append .., fun hnone => ?_⟩
  · rcases htime with ⟨hts, -⟩ | ⟨⟨⟨hstopped, -⟩, hstarted⟩, -, before, x, y, hts, hheard⟩
    · exact Or.inl hts.symm
    · obtain ⟨source, target⟩ := y
      have hmove : (moves path).getLast? = some (source, target) := by rw [hts]; simp
      have htarget : some target = some Lifecycle.stopped := by
        rw [← hstopped, ← hlast]
        exact (getLast?_of_moves hmove).symm
      cases htarget
      exact Or.inr ⟨before, x, source, hstarted _ hmove, hts, hheard⟩
  · rw [due_eq_nil hqueued hnone, List.append_nil]

/-- Who has to tell of a transition can always do so. -/
theorem advances_of_announcing {g : Settings} {i : Nat} {t : Thread} {s : State} {x : Transition}
    (h : t.task.announcing? = some x) : ∃ p, step g i t s = some p := by
  unfold step
  cases htask : t.task with
  | start mode q | stop q | watch q =>
      rw [htask] at h
      cases q <;> first | exact ⟨_, rfl⟩ | cases h
  | notify | done => rw [htask] at h; cases h

/-! ### Runs that are observed -/

/-- So many observers before the server is started. -/
def observed (n : Nat) : System where
  state := { observers := n }

def startEvents : List Event :=
  [.call (.start .run .enter) false false, .advance 0, .advance 0, .advance 0, .advance 0,
    .advance 0, .deed (.send greetingFrame), .advance 0, .advance 0, .advance 0, .advance 0]

/-- It exits of its own accord, which is told before it is stopped. -/
def promptEvents : List Event :=
  startEvents.append [.deed (.exit 3), .advance 1, .advance 1, .advance 1, .advance 1,
    .call (.stop .acquire) false false, .advance 2, .advance 2, .advance 2, .advance 2, .advance 2,
    .advance 2, .advance 2]

/-- It exits of its own accord, which is told after it is stopped. -/
def hastyEvents : List Event :=
  crashEvents.append [.advance 2, .advance 2, .advance 1, .advance 1, .advance 1]

/-- It is stopped, and exits when it is asked to. -/
def calmEvents : List Event :=
  startEvents.append [.call (.stop .acquire) false false, .advance 2, .advance 2, .advance 2,
    .deed (.exit 0), .advance 2, .advance 2, .advance 2, .advance 2, .advance 2, .advance 2, .advance 1]

theorem observed_reached (n : Nat) : ∃ path es, Steps presentServer {} path es (observed n) := by
  induction n with
  | zero => exact ⟨_, _, .refl⟩
  | succ n ih =>
      obtain ⟨path, es, h⟩ := ih
      exact ⟨_, _, h.step .observe⟩

/-- Who has returned has nothing to tell. -/
theorem not_announces_of_done {σ : System} (h : σ.threads.all (·.task.isDone) = true) (i : Nat)
    (x : Transition) :
    ¬ Announces σ i x := by
  rintro ⟨t, ht, hx⟩
  rw [Task.eq_done (List.all_eq_true.mp h t (List.mem_of_getElem? ht))] at hx
  cases hx

/-- A run that was played until every call had returned. -/
theorem steps_of_played {n : Nat} {who : List Nat} {path : List Lifecycle} {last : Lifecycle}
    {told : List (Lifecycle × Lifecycle)} (events : List Event)
    (h : ((Run.begin (observed n)).play? presentServer events).map
        (fun r => (r.path, callbacks who r.effects, r.system.threads.all (·.task.isDone))) =
      some (path, told, true)) (hlast : path.getLast? = some last) :
    ∃ es τ, Steps presentServer (observed n) path es τ ∧ callbacks who es = told ∧
      (∀ j x, ¬ Announces τ j x) ∧ τ.state.lifecycle = last := by
  obtain ⟨r, hr, hsame⟩ := Option.map_eq_some_iff.mp h
  simp only [Prod.mk.injEq] at hsame
  obtain ⟨rfl, htold, hdone⟩ := hsame
  obtain ⟨path₀, es₀, h₀⟩ := observed_reached n
  have hs := Run.steps_of_play? hr
  have hpath := hs.pathFits_of_unused (h₀.invariant invariant_initial) rfl
  exact ⟨r.effects, r.system, hs, htold, not_announces_of_done hdone,
    Option.some.inj (hpath.last.symm.trans hlast)⟩

theorem prompt_played : ∃ es τ,
    Steps presentServer (observed 1) [.stopped, .starting, .running, .failed, .stopped] es τ ∧
    callbacks [0] es =
      [(.stopped, .starting), (.starting, .running), (.running, .failed), (.failed, .stopped)] ∧
    (∀ j x, ¬ Announces τ j x) ∧ τ.state.lifecycle = .stopped :=
  steps_of_played promptEvents (by decide +kernel) rfl

theorem hasty_played : ∃ es τ,
    Steps presentServer (observed 1) [.stopped, .starting, .running, .failed, .stopped] es τ ∧
    callbacks [0] es =
      [(.stopped, .starting), (.starting, .running), (.failed, .stopped), (.running, .failed)] ∧
    (∀ j x, ¬ Announces τ j x) ∧ τ.state.lifecycle = .stopped :=
  steps_of_played hastyEvents (by decide +kernel) rfl

theorem calm_played : ∃ es τ,
    Steps presentServer (observed 2) [.stopped, .starting, .running, .stopped] es τ ∧
    callbacks [0, 1] es =
      [(.stopped, .starting), (.stopped, .starting), (.starting, .running), (.starting, .running),
        (.running, .stopped), (.running, .stopped)] ∧
    (∀ j x, ¬ Announces τ j x) ∧ τ.state.lifecycle = .stopped :=
  steps_of_played calmEvents (by decide +kernel) rfl

/-! ### History as it is told -/

/-- **Observers see history in order**, in every interleaving, except that the last transition,
to stopped, may be told before the one before it if that was to running or failed. An observer
that was registered before the server is started is told of every transition once. What it was
told at any time is the beginning of such an order; all of it, when nobody has anything left to
tell; and who has can tell it at once, whatever the others do. -/
theorem observed_in_order {g : Settings} {path₀ path : List Lifecycle} {es₀ es : List Effect} {σ τ : System}
    {o : Nat} (h₀ : Steps g {} path₀ es₀ σ) (hunused : σ.state.used = false) (ho : o < σ.state.observers)
    (h : Steps g σ path es τ) :
    path.head? = some .stopped ∧ path.getLast? = some τ.state.lifecycle ∧
    path.IsChain (fun a b => a.canStep b = true) ∧
    (moves path).IsChain (fun x y => x.2 = y.1) ∧
    (∀ m, (moves path).getLast? = some m → m.2 = τ.state.lifecycle) ∧
    (∃ told, (told = moves path ∨ Overtaken (moves path) told) ∧ callbacks [o] es <+: told ∧
      ((∀ j x, ¬ Announces τ j x) → callbacks [o] es = told)) ∧
    ∀ j x, Announces τ j x → ∃ t p, τ.threads[j]? = some t ∧ step g j t τ.state = some p ∧
      callbacks [o] p.effects = [x.move] ∧ ∀ y, ¬ Announces (τ.advance j t p) j y := by
  have hinv := h₀.invariant invariant_initial
  have hpath := h.pathFits_of_unused hinv hunused
  have hdelivery := (h.delivery hinv (h₀.watched invariant_initial watched_initial) hunused ho).2
  refine ⟨hpath.head, hpath.last, hpath.chain, isChain_moves path, ?_, hdelivery.told hpath.last, ?_⟩
  · intro m hm
    exact Option.some.inj ((getLast?_of_moves hm).symm.trans hpath.last)
  -- Whoever is about to announce can do so, and is then done.
  · rintro j x ⟨t, ht, hx⟩
    obtain ⟨p, hp⟩ := advances_of_announcing (g := g) (i := j) (s := τ.state) hx
    obtain ⟨ps, hqueued, hknown, -⟩ := hdelivery.queued
    have hheard := hknown _ ((hqueued.iff j x).mp ⟨t, ht, hx⟩)
    refine ⟨t, p, ht, hp, ?_⟩
    cases step_voice (o := o) ((h.invariant hinv).fits j t ht) hp with
    | mute before after | moved _ before after =>
        rw [before] at hx
        cases hx
    | told y before after same kept told =>
        obtain rfl := Option.some.inj (hx.symm.trans before)
        rw [told, if_pos hheard]
        refine ⟨rfl, ?_⟩
        rintro y ⟨u, hu, hy⟩
        obtain rfl := Option.some.inj ((System.getElem?_advance_self ht p).symm.trans hu)
        rw [after] at hy
        cases hy

/-- An observer hears of a server that fails, and is stopped later on, in order. -/
theorem failure_observed :
    ∃ es τ, Steps presentServer (observed 1) [.stopped, .starting, .running, .failed, .stopped] es τ ∧
      τ.state.lifecycle = .stopped ∧
      (callbacks [0] es = moves [.stopped, .starting, .running, .failed, .stopped] ∨
        Overtaken (moves [.stopped, .starting, .running, .failed, .stopped]) (callbacks [0] es)) ∧
      callbacks [0] es =
        [(.stopped, .starting), (.starting, .running), (.running, .failed), (.failed, .stopped)] := by
  obtain ⟨path₀, es₀, h₀⟩ := observed_reached 1
  obtain ⟨es, τ, hs, htold, hnobody, hlast⟩ := prompt_played
  obtain ⟨-, -, -, -, -, ⟨told, horder, -, hall⟩, -⟩ :=
    observed_in_order (o := 0) h₀ rfl Nat.zero_lt_one hs
  rw [← hall hnobody] at horder
  exact ⟨es, τ, hs, hlast, horder, htold⟩

/-- A server that fails and is stopped at once: its observer is told last of the failure, and
not of the state that it ends in. -/
theorem stop_told_before_failure :
    (∃ es τ, Steps presentServer (observed 1) [.stopped, .starting, .running, .failed, .stopped] es τ ∧
      (∀ j x, ¬ Announces τ j x) ∧
      callbacks [0] es ≠ moves [.stopped, .starting, .running, .failed, .stopped] ∧
      ¬ (callbacks [0] es).IsChain (fun x y => x.2 = y.1) ∧
      (callbacks [0] es).getLast? = some (.running, .failed) ∧ τ.state.lifecycle = .stopped) ∧
    -- who observes twice hears of everything twice
    ∃ es τ, Steps presentServer (observed 2) [.stopped, .starting, .running, .stopped] es τ ∧
      (∀ j x, ¬ Announces τ j x) ∧
      callbacks [0, 1] es ≠ moves [.stopped, .starting, .running, .stopped] := by
  refine ⟨?_, ?_⟩
  · obtain ⟨es, τ, hs, htold, hnobody, hlast⟩ := hasty_played
    refine ⟨es, τ, hs, hnobody, ?_, ?_, ?_, hlast⟩ <;> rw [htold] <;> decide
  · obtain ⟨es, τ, hs, htold, hnobody, -⟩ := calm_played
    refine ⟨es, τ, hs, hnobody, ?_⟩
    rw [htold]
    decide

end LanguageClient.Supervisor
