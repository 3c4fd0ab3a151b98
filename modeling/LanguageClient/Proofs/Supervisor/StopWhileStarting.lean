import LanguageClient.Activation
import LanguageClient.Proofs.Supervisor.Observers
import LanguageClient.Proofs.Supervisor.Startup

/-! # What comes of a start that somebody asks to stop.

Whoever finds the server starting leaves a request behind and waits. The call that
starts the server looks at the request once, when the handshake is done. If it comes
that far, or if its caller gives up during the handshake, it returns that a stop was
requested, and the server never counts as failed. If it fails before, it returns why it
failed: the request is not looked at then.

* `Attended`             — while the server is starting, one call starts it;
* `Task.Pledged`         — where that call can stand once the request is there;
* `stopped_start_returns` — what it returns. -/

namespace LanguageClient.Supervisor

variable {g : Settings} {path : List Lifecycle} {s : State} {i : Nat} {t : Thread} {p : Progress}

/-! ### Somebody starts a server that is starting -/

/-- While the server is starting, one call is starting it. -/
def Attended (σ : System) : Prop :=
  σ.state.lifecycle = .starting → ∃ (j : Nat) (u : Thread), σ.threads[j]? = some u ∧ u.task.isStarter = true

/-- Only a start makes the server starting. -/
theorem Does.begins {τ : Task} (h : Does g i t s τ p) (hbefore : s.lifecycle ≠ .starting)
    (hafter : p.state.lifecycle = .starting) : p.task.isStarter = true := by
  cases h with
  | @shifts _ s₁ target e _ row =>
      -- the server is said to start only where that is the target
      have hl := congrArg State.lifecycle row.same
      have htarget : target = .starting := by
        unfold State.transition at hafter
        split at hafter
        · exact hafter
        · exact absurd (hl.symm.trans hafter) hbefore
      cases row with
      | begin => rfl
      | _ => cases htarget
  | marks row => cases row <;> exact absurd hafter hbefore
  | informs row => cases row <;> exact absurd hafter hbefore
  | spawns _ _ result => rcases result with ⟨_, -, rfl, rfl⟩ | ⟨-, rfl, rfl⟩ <;> exact absurd hafter hbefore
  | returns row => cases row <;> exact absurd hafter hbefore
  | kills => exact absurd ((State.kill_calm g s).quiet.lifecycle.symm.trans hafter) hbefore
  | closes => exact absurd ((State.closeConnection_calm s).quiet.lifecycle.symm.trans hafter) hbefore
  | passes | talks | sends | tells => exact absurd hafter hbefore

/-- Whoever makes the server start goes on to start it. -/
theorem isStarter_of_starting (h : step g i t s = some p) (hbefore : s.lifecycle ≠ .starting)
    (hafter : p.state.lifecycle = .starting) : p.task.isStarter = true :=
  (does_of_step h).begins hbefore hafter

/-- A starter goes on as one, or it is done and the server is not starting any more. -/
theorem Does.starter {τ : Task} (h : Does g i t s τ p) (ht : τ.isStarter = true) (hf : τ.Fits s i) :
    p.task.isStarter = true ∨ p.task = .done ∧ p.state.lifecycle ≠ .starting := by
  cases h with
  | passes row | talks _ row | kills row | closes row => exact Or.inl (row.follows.starter.trans ht)
  | marks row =>
      cases row with
      | refrain => exact Or.inl rfl
      | _ => cases ht
  | shifts row =>
      cases row with
      | run | refrain | fail => exact Or.inl rfl
      | _ => cases ht
  | informs row =>
      cases row with
      | starting => exact Or.inl rfl
      | running | finish => exact Or.inr ⟨rfl, hf.2.1⟩
      | _ => cases ht
  | spawns _ _ result => rcases result with ⟨_, -, -, rfl⟩ | ⟨-, -, rfl⟩ <;> exact Or.inl rfl
  | returns row => cases row <;> cases ht
  | sends | tells => cases ht

/-- The call that starts the server goes on, or returns when the server is not starting
any longer. -/
theorem starter_step (ht : t.task.isStarter = true) (hf : t.task.Fits s i)
    (h : step g i t s = some p) :
    p.task.isStarter = true ∨ p.task = .done ∧ p.state.lifecycle ≠ .starting :=
  (does_of_step h).starter ht hf

/-- Threads that stay where they are go on starting the server. -/
theorem Attended.quiet {σ σ' : System} (h : Attended σ) (hl : σ'.state.lifecycle = σ.state.lifecycle)
    (ht : SameTasks σ σ') (hlen : σ.threads.length ≤ σ'.threads.length) : Attended σ' := by
  intro hstarting
  obtain ⟨j, u, hj, hu⟩ := h (hl.symm.trans hstarting)
  have hlt : j < σ'.threads.length := Nat.lt_of_lt_of_le (List.getElem?_eq_some_iff.mp hj).1 hlen
  refine ⟨j, σ'.threads[j], List.getElem?_eq_getElem hlt, ?_⟩
  rcases ht j _ (List.getElem?_eq_getElem hlt) with ⟨hnone, _⟩ | ⟨v, hv, he⟩
  · rw [hj] at hnone
    cases hnone
  · obtain rfl := Option.some.inj (hj.symm.trans hv)
    rw [he]
    exact hu

theorem Attended.advance {σ : System} (h : Attended σ) (hinv : Invariant σ)
    (hi : σ.threads[i]? = some t) (hp : step g i t σ.state = some p) :
    Attended (σ.advance i t p) := by
  intro hstarting
  have hself := System.getElem?_advance_self hi p
  have hfit := hinv.fits i t hi
  by_cases hl : σ.state.lifecycle = .starting
  · obtain ⟨j, u, hj, hu⟩ := h hl
    by_cases hji : j = i
    · subst hji
      obtain rfl := Option.some.inj (hi.symm.trans hj)
      rcases starter_step hu hfit hp with hgo | ⟨_, hover⟩
      · exact ⟨j, _, hself, hgo⟩
      · exact absurd hstarting hover
    · exact ⟨j, u, System.getElem?_advance_of_ne hj hji t p, hu⟩
  · exact ⟨i, _, hself, isStarter_of_starting hp hl hstarting⟩

/-- **A server that is starting is being started by somebody**, in every interleaving. -/
theorem Steps.attended {es : List Effect} {σ : System} (hs : Steps g {} path es σ) : Attended σ := by
  induction hs with
  | refl =>
      intro h
      cases h
  | step hsteps hstep ih =>
      have hinv := hsteps.invariant invariant_initial
      rcases hstep.calm_or_advances with ⟨hc, hsame⟩ | ⟨i, t, p, hi, hp, rfl, rfl⟩
      · exact ih.quiet hc.quiet.lifecycle hsame hstep.length_le
      · exact ih.advance hinv hi hp

/-! ### What a start may return -/

/-- The errors with which starting fails: the binary cannot be executed, there is no
process, or the handshake fails. -/
def IsStartFailure (e : Error) : Prop :=
  e.class? = some .missingBinary ∨ e.class? = some .spawn ∨ e.class? = some .protocolStart

/-- What a start that was asked to stop returns, by the states the server went through
since: that a stop was requested, if it went straight to being stopped, and otherwise why
it failed. -/
def Verdict (path : List Lifecycle) (e : Error) : Prop :=
  e = .condition .stopRequested ∧ path = [.starting, .stopped] ∨
    IsStartFailure e ∧ [.starting, .failed] <+: path

/-- Where a call can stand that starts a server and was asked to stop. -/
def Task.Pledged (path : List Lifecycle) : Task → Prop
  | .start _ (.announceRunning _ _) => False
  | .start _ (.finish _ r) => ∃ e, r = some e ∧ Verdict path e
  | _ => True

theorem isStartFailure_of_check {fs : FileSystem} {b : Binary} {e : Error}
    (h : checkExecutable fs b = .error e) : IsStartFailure e := by
  unfold checkExecutable at h
  (repeat' split at h) <;> cases h <;> exact Or.inl rfl

/-- Where starting is about to fail, it fails for one of these reasons. -/
def Task.Honest (t : Task) : Prop :=
  ∀ mode e, t = .start mode (.fail e) → IsStartFailure e

theorem honest_shutting (starter : Option LaunchMode) (q : Option ShutdownPoint) :
    (Task.shutting starter q).Honest := by
  intro mode e hfail
  obtain ⟨-, hq⟩ := Task.shutting_eq_start hfail
  cases q <;> cases hq

/-- Every step leads to an honest task. -/
theorem Does.honest {τ : Task} (h : Does g i t s τ p) : p.task.Honest := by
  intro mode e hfail
  cases h with
  | passes row =>
      cases row with
      | unusable found =>
          cases hfail
          exact isStartFailure_of_check found
      | _ => first | cases hfail | exact honest_shutting _ _ mode e hfail
  | spawns _ _ result =>
      rcases result with ⟨cause, -, -, rfl⟩ | ⟨-, -, rfl⟩ <;> cases hfail
      exact Or.inr (Or.inl rfl)
  | closes row =>
      cases row with
      | aborted =>
          cases hfail
          exact Or.inr (Or.inr rfl)
      | _ => first | cases hfail | exact honest_shutting _ _ mode e hfail
  | talks _ row | kills row => cases row <;> first | cases hfail | exact honest_shutting _ _ mode e hfail
  | marks row | shifts row | informs row => cases row <;> cases hfail
  | sends | returns | tells => cases hfail

theorem honest_of_step (h : step g i t s = some p) : p.task.Honest :=
  (does_of_step h).honest

def Honest (σ : System) : Prop :=
  ∀ (j : Nat) (u : Thread), σ.threads[j]? = some u → u.task.Honest

theorem Honest.step {σ σ' : System} {es : List Effect} (h : Honest σ) (hinv : Invariant σ)
    (hs : Step g σ es σ') : Honest σ' := by
  refine hs.tasks hinv ?_ ?_ (fun _ _ _ _ => honest_of_step) h
  · rintro task hentry mode e rfl
    cases hentry
  · intro mode e hfail
    cases hfail

theorem Steps.honest {es : List Effect} {σ τ : System} (hs : Steps g σ path es τ)
    (hinv : Invariant σ) (h : Honest σ) : Honest τ := by
  induction hs with
  | refl => exact h
  | step hsteps hstep ih => exact ih.step (hsteps.invariant hinv) hstep

/-- The server leaves the state in which it was starting, and the call is about to say
why. -/
theorem pledged_of_leaving {mode : LaunchMode} {target : Lifecycle} {cause : Option Error}
    {e : Error} (hl : s.lifecycle = .starting)
    (hv : target = .stopped ∧ e = .condition .stopRequested ∨ target = .failed ∧ IsStartFailure e) :
    (Task.start mode (.finish (s.transition target cause).2.2 (some e))).Pledged
      (visit [.starting] (s.transition target cause).1.lifecycle) := by
  have hlegal : s.lifecycle.canStep target = true := by
    rcases hv with ⟨rfl, _⟩ | ⟨rfl, _⟩ <;> rw [hl] <;> rfl
  rw [State.transition_of_canStep hlegal]
  show ∃ e', some e = some e' ∧ Verdict (visit [.starting] target) e'
  refine ⟨e, rfl, ?_⟩
  rcases hv with ⟨rfl, rfl⟩ | ⟨rfl, hfail⟩
  · exact Or.inl ⟨rfl, rfl⟩
  · exact Or.inr ⟨hfail, List.prefix_rfl⟩

theorem pledged_shutting (starter : Option LaunchMode) (q : Option ShutdownPoint) :
    (Task.shutting starter q).Pledged path := by
  cases starter <;> cases q <;> trivial

/-- A starter that was asked to stop keeps its pledge. -/
theorem Does.pledged {τ : Task} (h : Does g i t s τ p) (hq : τ.Pledged path) (ht : τ.isStarter = true)
    (hf : τ.Fits s i) (hhonest : τ.Honest) (hasked : s.stopRequested = true)
    (hpath : s.lifecycle = .starting → path = [.starting]) :
    p.task.Pledged (visit path p.state.lifecycle) := by
  cases h with
  | passes row | talks _ row | kills row | closes row =>
      cases row <;> first | trivial | exact pledged_shutting _ _
  | marks row => cases row <;> trivial
  | shifts row =>
      cases row with
      | refrain here =>
          have hl : s.lifecycle = .starting := by
            rcases here with rfl | rfl <;> exact hf.2.1
          obtain rfl := hpath hl
          exact pledged_of_leaving hl (Or.inl ⟨rfl, rfl⟩)
      | fail =>
          obtain rfl := hpath hf.2.1
          exact pledged_of_leaving hf.2.1 (Or.inr ⟨rfl, hhonest _ _ rfl⟩)
      | run unasked =>
          -- the request would be seen, so the server is not said to run
          rw [hasked] at unasked
          cases unasked
      | _ => cases ht
  | informs row =>
      cases row with
      | running => exact hq.elim
      | _ => trivial
  | spawns _ _ result => rcases result with ⟨_, -, -, rfl⟩ | ⟨-, -, rfl⟩ <;> trivial
  | sends | returns | tells => trivial

/-- **One step of a call that starts a server and was asked to stop.** -/
theorem Task.Pledged.step (hq : t.task.Pledged path) (ht : t.task.isStarter = true)
    (hf : t.task.Fits s i) (hhonest : t.task.Honest) (hasked : s.stopRequested = true)
    (hpath : s.lifecycle = .starting → path = [.starting]) (h : step g i t s = some p) :
    p.task.Pledged (visit path p.state.lifecycle) :=
  (does_of_step h).pledged hq ht hf hhonest hasked hpath

/-! ### From the request to the return -/

theorem prefix_visit (path : List Lifecycle) (b : Lifecycle) : path <+: visit path b := by
  unfold visit
  split
  · exact List.prefix_rfl
  · exact List.prefix_append path [b]

/-- What a start has to return is not changed by what others do meanwhile. -/
theorem Verdict.turn {b : Bool} {me : Option Nat} {s' : State} {e : Error} (h : Verdict path e)
    (hlast : path.getLast? = some s.lifecycle) (hu : s.used = true) (ht : Turn b me s s') :
    Verdict (visit path s'.lifecycle) e := by
  rcases h with ⟨he, rfl⟩ | ⟨he, hpath⟩
  · have hl : s.lifecycle = .stopped := (Option.some.inj hlast).symm
    refine Or.inl ⟨he, ?_⟩
    rw [ht.stays_stopped hu hl]
    rfl
  · exact Or.inr ⟨he, hpath.trans (prefix_visit path s'.lifecycle)⟩

theorem Task.Pledged.turn {b : Bool} {me : Option Nat} {s' : State} {u : Task} (h : u.Pledged path)
    (hlast : path.getLast? = some s.lifecycle) (hu : s.used = true) (ht : Turn b me s s') :
    u.Pledged (visit path s'.lifecycle) := by
  cases u with
  | start mode q =>
      cases q with
      | finish moved r =>
          obtain ⟨e, he, hv⟩ := h
          exact ⟨e, he, hv.turn hlast hu ht⟩
      | _ => exact h
  | _ => exact h

/-- What holds since thread `j` was starting the server and was asked to stop. -/
structure Asked (j : Nat) (path : List Lifecycle) (σ : System) : Prop where
  doomed : Doomed σ.state
  last : path.getLast? = some σ.state.lifecycle
  begun : σ.state.lifecycle = .starting → path = [.starting]
  thread : ∃ u : Thread, σ.threads[j]? = some u ∧
    (u.task.isStarter = true ∧ u.task.Pledged path ∨ u.task = .done)

/-- The thread has moved, or somebody else has. -/
theorem Asked.turn {b : Bool} {me : Option Nat} {j : Nat} {σ σ' : System} (h : Asked j path σ)
    (ht : Turn b me σ.state σ'.state) (hthread : ∃ u : Thread, σ'.threads[j]? = some u ∧
      (u.task.isStarter = true ∧ u.task.Pledged (visit path σ'.state.lifecycle) ∨ u.task = .done)) :
    Asked j (visit path σ'.state.lifecycle) σ' where
  doomed := h.doomed.turn ht
  last := getLast?_visit path _
  begun := by
    intro hstarting
    rcases ht.entersStarting hstarting with hl | ⟨hu, _⟩
    · rw [h.begun hl, hstarting]
      rfl
    · rw [h.doomed.used] at hu
      cases hu
  thread := hthread

/-- **Whoever moves, what holds since the request holds on.** -/
theorem Asked.happen {j : Nat} {es : List Effect} {σ σ' : System} (h : Asked j path σ)
    (hinv : Invariant σ) (hhonest : Honest σ) (hs : Step g σ es σ') :
    Asked j (visit path σ'.state.lifecycle) σ' := by
  obtain ⟨u, hj, hstands⟩ := h.thread
  rcases hs.calm_or_advances with ⟨hc, hsame⟩ | ⟨i, t, p, hi, hp, rfl, rfl⟩
  · have ht := hc.quiet.turn false none
    have hlt := Nat.lt_of_lt_of_le (List.getElem?_eq_some_iff.mp hj).1 hs.length_le
    have htask : σ'.threads[j].task = u.task := by
      rcases hsame j _ (List.getElem?_eq_getElem hlt) with ⟨hnone, _⟩ | ⟨v, hv, he⟩
      · rw [hj] at hnone
        cases hnone
      · obtain rfl := Option.some.inj (hj.symm.trans hv)
        exact he
    refine h.turn ht ⟨_, List.getElem?_eq_getElem hlt, ?_⟩
    rw [htask]
    -- The start that was under way has not moved.
    exact hstands.imp_left fun ⟨hstart, hq⟩ => ⟨hstart, hq.turn h.last h.doomed.used ht⟩
  · have hfit := hinv.fits i t hi
    have ht := (step_proper hinv.sound hfit hp).turn
    by_cases hji : j = i
    · subst hji
      obtain rfl := Option.some.inj (hi.symm.trans hj)
      -- It moves itself, and what it then is depends on the request.
      refine h.turn ht ⟨_, System.getElem?_advance_self hi p, ?_⟩
      rcases hstands with ⟨hstart, hq⟩ | hdone
      · rcases starter_step hstart hfit hp with hgo | ⟨hdone, _⟩
        · exact Or.inl ⟨hgo, hq.step hstart hfit (hhonest j t hi) h.doomed.requested h.begun hp⟩
        · exact Or.inr hdone
      · simp only [step, hdone] at hp
        cases hp
    · refine h.turn ht ⟨u, System.getElem?_advance_of_ne hj hji t p, ?_⟩
      exact hstands.imp_left fun ⟨hstart, hq⟩ => ⟨hstart, hq.turn h.last h.doomed.used ht⟩

/-- After a stop was asked for, the starter keeps its pledge along the path of the run. -/
theorem Steps.asked {j : Nat} {es : List Effect} {σ τ : System} (hs : Steps g σ path es τ)
    (hinv : Invariant σ) (hhonest : Honest σ) (h : Asked j [.starting] σ) : Asked j path τ := by
  induction hs with
  | refl =>
      have hl : σ.state.lifecycle = .starting := (Option.some.inj h.last).symm
      rw [hl]
      exact h
  | step hsteps hstep ih =>
      exact ih.happen (hsteps.invariant hinv) (hsteps.honest hinv hhonest) hstep

/-- A starter that keeps its pledge returns the verdict on its path. -/
theorem Does.result {τ : Task} (h : Does g i t s τ p) (hq : τ.Pledged path) (ht : τ.isStarter = true)
    (hdone : p.task = .done) :
    ∃ e moved, p.effects = State.announce moved ++ [.returned i (some e)] ∧ Verdict path e := by
  -- Only the last point of a start is done, and it returns.
  have hgoes {τ' : Task} (hfollows : Follows τ τ') : τ' ≠ .done := by
    rintro rfl
    rw [← hfollows.starter] at ht
    cases ht
  cases h with
  | informs row =>
      cases row with
      | finish =>
          obtain ⟨e, rfl, hverdict⟩ := hq
          exact ⟨e, _, rfl, hverdict⟩
      | running => exact hq.elim
      | _ => cases hdone
  | passes row | talks _ row | kills row | closes row => exact absurd hdone (hgoes row.follows)
  | marks row | shifts row => cases row <;> cases hdone
  | returns row => cases row <;> cases ht
  | spawns => cases hdone
  | sends | tells => cases ht

/-- When the call returns, it returns what it pledged. -/
theorem Asked.returns {j : Nat} {u : Thread} {σ : System} (h : Asked j path σ)
    (hj : σ.threads[j]? = some u) (hp : step g j u σ.state = some p) (hdone : p.task = .done) :
    ∃ e moved, p.effects = State.announce moved ++ [.returned j (some e)] ∧ Verdict path e := by
  obtain ⟨v, hv, hstands⟩ := h.thread
  obtain rfl := Option.some.inj (hj.symm.trans hv)
  rcases hstands with ⟨hstart, hq⟩ | hend
  · exact (does_of_step hp).result hq hstart hdone
  · simp only [step, hend] at hp
    cases hp

/-! ### Two runs

In both, somebody asks to stop before the server has answered. -/

/-- A run and the step with which the call that starts the server returns, if it comes
to that. -/
def finale (events : List Event) : Option (Run × Thread × Progress) :=
  ((Run.begin (interruptedStart.advance 1 { task := .stop .look } stopNoted)).play?
    presentServer events).bind fun r => r.system.threads[0]?.bind fun v =>
      (step presentServer 0 v r.system.state).map fun p => (r, v, p)

/-- What the user is shown of errors when calls return. -/
def complaints (es : List Effect) : List String :=
  es.flatMap fun
    | .returned _ r => Report.errors (Activator.startReports r)
    | _ => []

theorem steps_of_finale {events : List Event} {r : Run} {v : Thread} {p' : Progress}
    (h : finale events = some (r, v, p')) :
    Steps presentServer (interruptedStart.advance 1 { task := .stop .look } stopNoted) r.path
        r.effects r.system ∧
      r.system.threads[0]? = some v ∧ step presentServer 0 v r.system.state = some p' := by
  obtain ⟨r', hr, h⟩ := Option.bind_eq_some_iff.mp h
  obtain ⟨v', hv, h⟩ := Option.bind_eq_some_iff.mp h
  obtain ⟨p'', hp, h⟩ := Option.map_eq_some_iff.mp h
  cases h
  exact ⟨Run.steps_of_play? hr, hv, hp⟩

/-- The server agrees on the protocol all the same, and is shut down. -/
theorem stopped_finale : ∃ q, finale (interruptedEvents.take 14) = some q ∧
    (q.1.path, q.2.2.task.isDone) = ([.starting, .stopped], true) :=
  Option.map_eq_some_iff.mp (by decide +kernel)

/-- What a server answers that does not agree on the protocol. -/
def refusalFrame : Bytes :=
  Frame.encode (utf8 "\x7b\"jsonrpc\":\"2.0\",\"id\":1,\"error\":\x7b\"code\":1,\"message\":\"no\"\x7d\x7d")

/-- The server does not agree on the protocol, and is killed. -/
theorem refused_finale : ∃ q, finale
      [.advance 0, .advance 0, .advance 0, .advance 0, .deed (.send refusalFrame), .advance 0,
        .advance 0, .advance 0, .advance 0, .advance 0] = some q ∧
    (q.1.path, q.2.2.task.isDone, complaints q.2.2.effects) = ([.starting, .failed], true,
      ["Failed to start GBNF LSP: language server protocol failed to start: " ++
        "initialize request: rpc error 1: no"]) :=
  Option.map_eq_some_iff.mp (by decide +kernel)

/-! ### Asked to stop while starting -/

/-- **What a start returns that is asked to stop.** Take any run and any call to stop the
server in it that finds the server starting. Somebody is starting it, and however things
go on, that call never returns that the server runs. If it returns that a stop was
requested, the server went from starting straight to stopped, and the user is shown no
error. Otherwise starting has failed, the server has gone through that state, and the
user is shown why. -/
theorem stopped_start_returns {path₀ : List Lifecycle} {es₀ : List Effect} {σ : System}
    (h₀ : Steps g {} path₀ es₀ σ) (hi : σ.threads[i]? = some t) (hlook : t.task = .stop .look)
    (hp : step g i t σ.state = some p) (hfound : σ.state.lifecycle = .starting) :
    ∃ (j : Nat) (u : Thread), σ.threads[j]? = some u ∧ u.task.isStarter = true ∧
      ∀ path es τ v p', Steps g (σ.advance i t p) path es τ → τ.threads[j]? = some v →
        step g j v τ.state = some p' → p'.task = .done →
        ∃ e moved, p'.effects = State.announce moved ++ [.returned j (some e)] ∧
          (e = .condition .stopRequested ∧ path = [.starting, .stopped] ∧
              Report.errors (Activator.startReports (some e)) = [] ∨
            IsStartFailure e ∧ [.starting, .failed] <+: path ∧ (e.isA .stopRequested = false →
              Report.errors (Activator.startReports (some e)) =
                ["Failed to start GBNF LSP: " ++ e.message])) := by
  have hinv := h₀.invariant invariant_initial
  have hproper := step_proper hinv.sound (hinv.fits i t hi) hp
  have hinv' := hinv.advance hi hproper
  have hhonest : Honest (σ.advance i t p) :=
    (h₀.honest invariant_initial (by simp [Honest])).step hinv (.advance hi hp)
  obtain ⟨j, u, hj, hu⟩ := h₀.attended hfound
  refine ⟨j, u, hj, hu, ?_⟩
  have hfit := hinv.fits j u hj
  have hused := hfit.used hu
  -- The look leaves a request behind, and whoever starts the server has not left that state.
  obtain ⟨hl, hr⟩ : p.state.lifecycle = .starting ∧ p.state.stopRequested = true := by
    simp only [step, hlook, stopStep, hfound] at hp
    cases hp
    exact ⟨rfl, rfl⟩
  have hji : j ≠ i := by
    rintro rfl
    obtain rfl := Option.some.inj (hi.symm.trans hj)
    rw [hlook] at hu
    cases hu
  have hpledged : u.task.Pledged [.starting] := by
    cases htask : u.task with
    | start mode q =>
        rw [htask] at hfit
        cases q with
        | announceRunning moved info | finish moved r => exact absurd hfound hfit.2.1
        | _ => trivial
    | _ => trivial
  have hasked : Asked j [.starting] (σ.advance i t p) :=
    { doomed := ⟨hproper.turn.used hused, hr, by simp [System.advance, hl]⟩
      last := congrArg some hl.symm
      begun := fun _ => rfl
      thread := ⟨u, System.getElem?_advance_of_ne hj hji t p, Or.inl ⟨hu, hpledged⟩⟩ }
  intro path es τ v p' hs hv hp' hdone
  obtain ⟨e, moved, heffects, hverdict⟩ := (hs.asked hinv' hhonest hasked).returns hv hp' hdone
  refine ⟨e, moved, heffects, ?_⟩
  rcases hverdict with ⟨rfl, hpath⟩ | ⟨hfail, hpath⟩
  · exact Or.inl ⟨rfl, hpath, by simp [Activator.startReports, Error.isA, Report.errors]⟩
  · refine Or.inr ⟨hfail, hpath, ?_⟩
    intro hno
    simp [Activator.startReports, hno, Report.errors]

/-- A start that agrees on the protocol after the request returns that a stop was
requested. -/
theorem stopped_start_returned :
    ∃ path es τ v p' moved,
      Steps presentServer (interruptedStart.advance 1 { task := .stop .look } stopNoted) path es τ ∧
        τ.threads[0]? = some v ∧ step presentServer 0 v τ.state = some p' ∧
        p'.effects =
          State.announce moved ++ [.returned 0 (some (.condition .stopRequested))] ∧
        path = [.starting, .stopped] := by
  obtain ⟨path₀, es₀, h₀⟩ := interruptedStart_reached
  obtain ⟨⟨r, v, p'⟩, hplayed, hsame⟩ := stopped_finale
  obtain ⟨hs, hv, hp'⟩ := steps_of_finale hplayed
  obtain ⟨hpath, hdone⟩ := Prod.mk.inj hsame
  obtain ⟨j, u, hj, hu, hreturns⟩ :=
    stopped_start_returns (g := presentServer) (i := 1) (p := stopNoted) h₀ rfl rfl rfl rfl
  obtain rfl : j = 0 := by
    -- The other thread is the one that asks.
    match j with
    | 0 => rfl
    | 1 => cases hj; cases hu
    | _ + 2 => cases hj
  obtain ⟨e, moved, heffects, hwhich⟩ := hreturns _ _ _ v p' hs hv hp' (Task.eq_done hdone)
  rcases hwhich with ⟨rfl, _, _⟩ | ⟨_, hfailed, _⟩
  · exact ⟨_, _, _, v, p', moved, hs, hv, hp', heffects, hpath⟩
  · rw [hpath] at hfailed
    exact absurd hfailed (by decide)

/-- A server that refuses the handshake after the request makes the start fail: the
server counts as failed, and the user is shown an error. -/
theorem stop_overruled_by_failure :
    ∃ path es τ v p',
      Steps presentServer (interruptedStart.advance 1 { task := .stop .look } stopNoted) path es τ ∧
        τ.threads[0]? = some v ∧ step presentServer 0 v τ.state = some p' ∧ p'.task = .done ∧
        path = [.starting, .failed] ∧
        complaints p'.effects =
          ["Failed to start GBNF LSP: language server protocol failed to start: " ++
            "initialize request: rpc error 1: no"] := by
  obtain ⟨⟨r, v, p'⟩, hplayed, hsame⟩ := refused_finale
  obtain ⟨hs, hv, hp'⟩ := steps_of_finale hplayed
  obtain ⟨hpath, hrest⟩ := Prod.mk.inj hsame
  obtain ⟨hdone, hshown⟩ := Prod.mk.inj hrest
  exact ⟨_, _, _, v, p', hs, hv, hp', Task.eq_done hdone, hpath, hshown⟩

end LanguageClient.Supervisor
