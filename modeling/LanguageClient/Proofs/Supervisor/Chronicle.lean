import LanguageClient.Proofs.Supervisor.Disclosure
import LanguageClient.Proofs.Supervisor.Observers

/-! # The chronicle of a supervisor.

A `Steps` says which states a server goes through. A `Chronicle` says in addition who makes
each change and what is told of it, so that what a call returns, what is recorded as the
last error and what is reported can be compared with the change behind it.

* `Site`                  — the places at which a thread changes the state;
* `step_account`          — a step makes such a change, or leaves state and last error alone;
* `steps_iff_chronicle`   — every run has its chronicle;
* `Chronicle.failure`     — a server fails at most once, and that error is the last one. -/

namespace LanguageClient.Supervisor

variable {g : Settings} {s s' : State} {i : Nat} {t : Thread} {p : Progress}

/-! ### What a step does to the state of the server -/

/-- Where a thread stands that makes the transition `x`, and where it goes: calls that start
the server make five kinds of transition, calls that stop it two, and who watches it one. -/
inductive Site (s : State) (x : Transition) : Task → Task → Prop where
  | begin {mode : LaunchMode} (unused : s.used = false) (target : x.target = .starting)
      (error : x.error = none) : Site s x (.start mode .enter) (.start mode (.announceStarting (some x)))
  | run {mode : LaunchMode} {info : Option ProgramInfo} (target : x.target = .running)
      (error : x.error = none) : Site s x (.start mode (.publish info)) (.start mode (.announceRunning (some x) info))
  | refrain {mode : LaunchMode} {q : StartPoint} (here : q = .cancelled ∨ q = .stopped)
      (target : x.target = .stopped) (error : x.error = none) :
      Site s x (.start mode q) (.start mode (.finish (some x) (some (.condition .stopRequested))))
  | fail {mode : LaunchMode} {e : Error} (target : x.target = .failed) (error : x.error = some e) :
      Site s x (.start mode (.fail e)) (.start mode (.finish (some x) (some e)))
  | stop (running : s.lifecycle = .running) (target : x.target = .stopped) (error : x.error = none) :
      Site s x (.stop .stopped) (.stop (.announceStopped (some x)))
  | stopFailed (failed : s.lifecycle = .failed) (target : x.target = .stopped) (error : x.error = none) :
      Site s x (.stop .failedStopped) (.stop (.announceFailedStopped (some x)))
  | crash {code : Int} (running : s.lifecycle = .running) (unasked : s.stopping = false)
      (exited : s.exitCode? = some code) (target : x.target = .failed)
      (error : x.error = some (exitedError code)) :
      Site s x (.watch .awaitExit) (.watch (.announce (some x) code))

/-- What a step does to the state of the server: nothing, or it makes a transition and
records its error. -/
inductive Account (t : Task) (s : State) (p : Progress) : Prop where
  | aside (lifecycle : p.state.lifecycle = s.lifecycle) (used : p.state.used = s.used)
      (lastError : p.state.lastError = s.lastError) : Account t s p
  | change (x : Transition) (move : x.move = (s.lifecycle, p.state.lifecycle))
      (legal : s.lifecycle.canStep p.state.lifecycle = true)
      (lastError : p.state.lastError = x.error.or s.lastError) (effects : p.effects = [])
      (site : Site s x t p.task) : Account t s p

/-- What is told of a transition is what was done. -/
theorem Site.announcing? {x : Transition} {t t' : Task} (h : Site s x t t') : t'.announcing? = some x := by
  cases h <;> rfl

theorem Quiet.lastError (h : Quiet s s') : s'.lastError = s.lastError :=
  congrArg Control.lastError h.control

/-- A step that makes a legal transition has made it. -/
theorem account_of_transition {t : Task} {u : State} {target : Lifecycle} {e : Option Error}
    (hl : u.lifecycle = s.lifecycle) (he : u.lastError = s.lastError)
    (hlegal : s.lifecycle.canStep target = true) (hstate : p.state = (u.transition target e).1)
    (heffects : p.effects = (u.transition target e).2.1)
    (site : (u.transition target e).2.2 = some ⟨s.lifecycle, target, e, u.observers⟩ →
      Site s ⟨s.lifecycle, target, e, u.observers⟩ t p.task) : Account t s p := by
  have hmade := State.transition_of_canStep (s := u) (e := e) (by rw [hl]; exact hlegal)
  rw [hmade] at hstate heffects
  rw [hmade, hl] at site
  have htarget : p.state.lifecycle = target := by rw [hstate]
  refine .change _ ?_ ?_ ?_ heffects (site rfl)
  · rw [htarget]
    rfl
  · rw [htarget]
    exact hlegal
  · rw [hstate, ← he]

/-- A change of state is legal where the thread stands, and made at one of the places. -/
theorem Shifts.account {τ : Task} {s₁ : State} {target : Lifecycle} {e : Option Error}
    {next : Option Transition → Task} (row : Shifts s τ s₁ target e next) (hs : Sound s) (hf : τ.Fits s i) :
    Account τ s
      { state := (s₁.transition target e).1, task := next (s₁.transition target e).2.2
        effects := (s₁.transition target e).2.1 } := by
  have hl := congrArg State.lifecycle row.same
  have he := congrArg State.lastError row.same
  -- Every row is at a state from which its target can be reached.
  have hlegal : s.lifecycle.canStep target = true := by
    cases row with
    | begin unused =>
        rw [(hs.unused unused).1]
        rfl
    | run | fail =>
        rw [hf.2.1]
        rfl
    | refrain here =>
        have hstarting : s.lifecycle = .starting := by
          rcases here with rfl | rfl <;> exact hf.2.1
        rw [hstarting]
        rfl
    | stop =>
        obtain ⟨-, hrunning, -⟩ := hf (by simp)
        rw [hrunning]
        rfl
    | stopFailed =>
        obtain ⟨-, hfailed⟩ := hf (by simp)
        rw [show s.lifecycle = .failed from hfailed]
        rfl
    | crash _ _ running =>
        rw [running]
        rfl
  refine account_of_transition hl he hlegal rfl rfl ?_
  -- If the state has moved, the row says which change this is.
  intro hmoved
  rw [hmoved]
  cases row with
  | begin unused => exact .begin unused rfl rfl
  | run => exact .run rfl rfl
  | refrain here => exact .refrain here rfl rfl
  | fail => exact .fail rfl rfl
  | stop =>
      obtain ⟨-, hrunning, -⟩ := hf (by simp)
      exact .stop hrunning rfl rfl
  | stopFailed =>
      obtain ⟨-, hfailed⟩ := hf (by simp)
      exact .stopFailed hfailed rfl rfl
  | crash exited unasked running => exact .crash running unasked exited rfl rfl

theorem Does.account {τ : Task} (h : Does g i t s τ p) (hs : Sound s) (hf : τ.Fits s i) : Account τ s p := by
  cases h with
  | passes | tells => exact .aside rfl rfl rfl
  | marks row => cases row <;> exact .aside rfl rfl rfl
  | shifts row => exact row.account hs hf
  | informs row => cases row <;> exact .aside rfl rfl rfl
  | spawns _ _ result => rcases result with ⟨e, -, rfl, rfl⟩ | ⟨-, rfl, rfl⟩ <;> exact .aside rfl rfl rfl
  | talks | sends => exact .aside rfl rfl rfl
  | kills =>
      have hquiet := (State.kill_calm g s).quiet
      exact .aside hquiet.lifecycle hquiet.used hquiet.lastError
  | closes =>
      have hquiet := (State.closeConnection_calm s).quiet
      exact .aside hquiet.lifecycle hquiet.used hquiet.lastError
  | returns row => cases row <;> exact .aside rfl rfl rfl

/-- **What a step of a thread does to the state of the server.** -/
theorem step_account (hs : Sound s) (hf : t.task.Fits s i) (h : step g i t s = some p) :
    Account t.task s p :=
  (does_of_step h).account hs hf

/-! ### Chronicles -/

/-- A change of the state of the server, and the thread that makes it. -/
structure Change extends Transition where
  maker : Nat

/-- Any number of steps from one system to another, with the changes of state in the order
in which they are made, and all that can be seen. -/
inductive Chronicle (g : Settings) (σ : System) : List Change → List Effect → System → Prop where
  | refl : Chronicle g σ [] [] σ
  /-- A step that leaves the server in its state. -/
  | aside {cs : List Change} {es new : List Effect} {τ υ : System} :
      Chronicle g σ cs es τ → Step g τ new υ → υ.state.lifecycle = τ.state.lifecycle →
        Chronicle g σ cs (es ++ new) υ
  /-- A step of thread `i` that changes the state, as it is going to tell. -/
  | change {cs : List Change} {es : List Effect} {τ : System} {i : Nat} {t : Thread} {p : Progress}
      {x : Transition} : Chronicle g σ cs es τ → τ.threads[i]? = some t →
        step g i t τ.state = some p → p.state.lifecycle ≠ τ.state.lifecycle →
        p.task.announcing? = some x →
        Chronicle g σ (cs ++ [{ x with maker := i }]) (es ++ p.effects) (τ.advance i t p)

section Chronicles

variable {σ τ υ : System} {cs : List Change} {es : List Effect} {path : List Lifecycle}

/-- One chronicle after another. -/
theorem Chronicle.trans {ds : List Change} {new : List Effect} (h : Chronicle g σ cs es τ)
    (h' : Chronicle g τ ds new υ) : Chronicle g σ (cs ++ ds) (es ++ new) υ := by
  induction h' with
  | refl => simpa using h
  | aside _ hstep hsame ih =>
      rw [← List.append_assoc]
      exact ih.aside hstep hsame
  | change _ here moves left told ih =>
      rw [← List.append_assoc, ← List.append_assoc]
      exact ih.change here moves left told

/-- A step of a thread that leaves the server in its state. -/
theorem Chronicle.advance (h : Chronicle g σ cs es τ) (here : τ.threads[i]? = some t)
    (moves : step g i t τ.state = some p) (same : p.state.lifecycle = τ.state.lifecycle) :
    Chronicle g σ cs (es ++ p.effects) (τ.advance i t p) :=
  h.aside (.advance here moves) same

/-- The change that a step makes. -/
theorem change_of_step (hs : Sound s) (hf : t.task.Fits s i) (h : step g i t s = some p)
    (left : p.state.lifecycle ≠ s.lifecycle) {x : Transition} (told : p.task.announcing? = some x) :
    x.move = (s.lifecycle, p.state.lifecycle) ∧ s.lifecycle.canStep p.state.lifecycle = true ∧
      p.state.lastError = x.error.or s.lastError ∧ p.effects = [] ∧ Site s x t.task p.task := by
  cases step_account hs hf h with
  | aside lifecycle => exact absurd lifecycle left
  | change y move legal lastError effects site =>
      obtain rfl := Option.some.inj (site.announcing?.symm.trans told)
      exact ⟨move, legal, lastError, effects, site⟩

/-- The changes of a chronicle are the path of a run. -/
theorem Chronicle.path_fits (h : Chronicle g σ cs es τ) (hinv : Invariant σ) :
    Steps g σ (σ.state.lifecycle :: cs.map (·.target)) es τ ∧ Invariant τ ∧
      (σ.state.lifecycle :: cs.map (·.target)).getLast? = some τ.state.lifecycle := by
  induction h with
  | refl => exact ⟨Steps.refl, hinv, rfl⟩
  | aside _ hstep hsame ih =>
      obtain ⟨hsteps, hinv', hlast⟩ := ih
      rw [← hsame] at hlast
      have hsteps' := hsteps.step hstep
      rw [visit_of_last hlast] at hsteps'
      exact ⟨hsteps', (hstep.invariant hinv').1, hlast⟩
  | @change cs es τ i t p x _ here moves left told ih =>
      -- The change is the one the step made, and visits a new state.
      obtain ⟨hsteps, hinv', hlast⟩ := ih
      obtain ⟨hmove, -⟩ := change_of_step hinv'.sound (hinv'.fits i t here) moves left told
      have htarget : x.target = p.state.lifecycle := congrArg Prod.snd hmove
      have hsteps' := hsteps.step (.advance here moves)
      have hne : (σ.state.lifecycle :: cs.map (·.target)).getLast? ≠ some p.state.lifecycle := by
        rw [hlast]
        intro he
        exact left (Option.some.inj he).symm
      rw [show (τ.advance i t p).state = p.state from rfl, visit_of_ne hne, List.cons_append, ← htarget] at hsteps'
      refine ⟨?_, ((Step.advance here moves).invariant hinv').1, ?_⟩
      · rw [List.map_append]
        exact hsteps'
      · rw [List.map_append, ← List.cons_append, List.map_singleton, List.getLast?_concat]
        exact congrArg some htarget

theorem Chronicle.steps (h : Chronicle g σ cs es τ) (hinv : Invariant σ) :
    Steps g σ (σ.state.lifecycle :: cs.map (·.target)) es τ :=
  (h.path_fits hinv).1

theorem Chronicle.invariant (h : Chronicle g σ cs es τ) (hinv : Invariant σ) : Invariant τ :=
  (h.path_fits hinv).2.1

/-- Every run has a chronicle. -/
theorem Steps.exists_chronicle (h : Steps g σ path es τ) (hinv : Invariant σ) :
    ∃ cs, path = σ.state.lifecycle :: cs.map (·.target) ∧ Chronicle g σ cs es τ := by
  induction h with
  | refl => exact ⟨[], rfl, .refl⟩
  | @step _ _ _ τ υ hsteps hstep ih =>
      obtain ⟨cs, rfl, hchronicle⟩ := ih
      obtain ⟨-, hinv', hlast⟩ := hchronicle.path_fits hinv
      -- A step that stays where it is adds nothing to the chronicle.
      by_cases hsame : υ.state.lifecycle = τ.state.lifecycle
      · refine ⟨cs, ?_, hchronicle.aside hstep hsame⟩
        exact visit_of_last (by rw [hlast, hsame])
      · rcases hstep.calm_or_advances with ⟨hcalm, -⟩ | ⟨i, t, p, here, moves, rfl, rfl⟩
        · exact absurd hcalm.quiet.lifecycle hsame
        · cases step_account hinv'.sound (hinv'.fits i t here) moves with
          | aside lifecycle => exact absurd lifecycle hsame
          | change x move legal lastError effects site =>
              refine ⟨_, ?_, hchronicle.change here moves hsame site.announcing?⟩
              have htarget : x.target = p.state.lifecycle := congrArg Prod.snd move
              rw [visit_of_ne, List.map_append, List.map_singleton, htarget]
              · rfl
              · rw [hlast]
                intro he
                exact hsame (Option.some.inj he).symm

/-- **Every run has its chronicle, and every chronicle is one of a run.** -/
theorem steps_iff_chronicle (hinv : Invariant σ) :
    Steps g σ path es τ ↔
      ∃ cs, path = σ.state.lifecycle :: cs.map (·.target) ∧ Chronicle g σ cs es τ := by
  constructor
  · intro h
    exact h.exists_chronicle hinv
  · rintro ⟨cs, rfl, h⟩
    exact h.steps hinv

/-! ### What was recorded -/

theorem canStep_ne {a b : Lifecycle} (h : a.canStep b = true) : b ≠ a := by
  rintro rfl
  cases b <;> cases h

/-- A step that leaves the server in its state leaves the last error as well, and does not
use the supervisor. -/
theorem recorded_of_same (hs : Sound s) (hf : t.task.Fits s i) (h : step g i t s = some p)
    (hsame : p.state.lifecycle = s.lifecycle) :
    p.state.lastError = s.lastError ∧ p.state.used = s.used := by
  cases step_account hs hf h with
  | aside _ used lastError => exact ⟨lastError, used⟩
  | change x _ legal => exact absurd hsame (canStep_ne legal)

/-- A step that stays in its state leaves the last error as it was. -/
theorem Step.recorded_of_same (h : Step g τ es υ) (hinv : Invariant τ)
    (hsame : υ.state.lifecycle = τ.state.lifecycle) :
    υ.state.lastError = τ.state.lastError ∧ υ.state.used = τ.state.used := by
  rcases h.calm_or_advances with ⟨hcalm, -⟩ | ⟨i, t, p, here, moves, rfl, rfl⟩
  · exact ⟨hcalm.quiet.lastError, hcalm.quiet.used⟩
  · exact Supervisor.recorded_of_same hinv.sound (hinv.fits i t here) moves hsame

/-- A transition has an error exactly if it is one to being failed. -/
theorem Site.error_iff {x : Transition} {t t' : Task} (h : Site s x t t') :
    x.target = .failed ↔ ∃ e, x.error = some e := by
  cases h <;> simp_all

theorem State.IsOver.not_failing (h : s.IsOver) : s.lifecycle.canStep .failed = false := by
  rcases h with hl | ⟨hl, -⟩ <;> rw [hl] <;> rfl

/-- The error of the latest change to being failed. -/
def latestFailure (cs : List Change) : Option Error :=
  (cs.filter fun c => c.target = .failed).getLast?.bind (·.error)

/-- **A server fails at most once**, and is over from then on. The last error is that of the
failure. -/
theorem Chronicle.failure (h : Chronicle g {} cs es τ) :
    (τ.state.lastError = none ∧ ∀ c ∈ cs, c.target ≠ .failed) ∨
      ∃ before c after e, cs = before ++ c :: after ∧ c.target = .failed ∧ c.error = some e ∧
        τ.state.lastError = some e ∧ τ.state.IsOver ∧
        (∀ d ∈ before, d.target ≠ .failed) ∧ ∀ d ∈ after, d.target ≠ .failed := by
  induction h with
  | refl => exact Or.inl ⟨rfl, by simp⟩
  | @aside cs es new τ υ hbefore hstep hsame ih =>
      have hinv := hbefore.invariant invariant_initial
      obtain ⟨hlast, -⟩ := hstep.recorded_of_same hinv hsame
      obtain ⟨-, _, _, hturn⟩ := hstep.invariant hinv
      rcases ih with ⟨hnone, hnever⟩ | ⟨before, c, after, e, hcs, hc, he, hrecord, hover, hlate⟩
      · exact Or.inl ⟨hlast.trans hnone, hnever⟩
      · exact Or.inr ⟨before, c, after, e, hcs, hc, he, hlast.trans hrecord,
          hover.turn hinv.sound hturn, hlate⟩
  | @change cs es τ i t p x hbefore here moves left told ih =>
      have hinv := hbefore.invariant invariant_initial
      obtain ⟨hmove, hlegal, hlast, -, hsite⟩ :=
        change_of_step hinv.sound (hinv.fits i t here) moves left told
      obtain ⟨-, _, _, hturn⟩ := (Step.advance here moves).invariant hinv
      have htarget : x.target = p.state.lifecycle := congrArg Prod.snd hmove
      by_cases hfailed : x.target = .failed
      · obtain ⟨e, he⟩ := hsite.error_iff.mp hfailed
        have hrecord : p.state.lastError = some e := by rw [hlast, he, Option.some_or]
        rcases ih with ⟨-, hnever⟩ | ⟨_, _, _, _, _, _, _, _, hover, -⟩
        · exact Or.inr ⟨cs, _, [], e, rfl, hfailed, he, hrecord, Or.inl (htarget.symm.trans hfailed), hnever,
            by simp⟩
        · -- a server that is over does not fail again
          rw [← htarget, hfailed, hover.not_failing] at hlegal
          cases hlegal
      · have herror : x.error = none := by
          rw [Option.eq_none_iff_forall_ne_some]
          intro e he
          exact hfailed (hsite.error_iff.mpr ⟨e, he⟩)
        rw [herror, Option.none_or] at hlast
        rcases ih with ⟨hnone, hnever⟩ | ⟨before, c, after, e, hcs, hc, he, hrecord, hover, hearly, hlate⟩
        · refine Or.inl ⟨hlast.trans hnone, ?_⟩
          exact List.forall_mem_append.mpr ⟨hnever, List.forall_mem_singleton.mpr hfailed⟩
        · refine Or.inr ⟨before, c, after ++ [{ x with maker := i }], e, ?_, hc, he, hlast.trans hrecord,
            hover.turn hinv.sound hturn, hearly, ?_⟩
          · rw [hcs, List.append_assoc, List.cons_append]
          · exact List.forall_mem_append.mpr ⟨hlate, List.forall_mem_singleton.mpr hfailed⟩

/-- **The last error is that of the latest failure.** -/
theorem Chronicle.lastError (h : Chronicle g {} cs es τ) :
    τ.state.lastError = latestFailure cs ∧
      (τ.state.lastError ≠ none ↔ ∃ c ∈ cs, c.target = .failed) := by
  -- A failure happens once at most, and is the one that is recorded.
  rcases h.failure with ⟨hnone, hnever⟩ | ⟨before, c, after, e, rfl, hc, he, hrecord, -, hearly, hlate⟩
  · have hfilter : cs.filter (fun c => c.target = .failed) = [] := by
      rw [List.filter_eq_nil_iff]
      intro c hc
      simpa using hnever c hc
    refine ⟨?_, ?_⟩
    · rw [hnone, latestFailure, hfilter]
      rfl
    · constructor
      · intro hsome
        exact absurd hnone hsome
      · rintro ⟨c, hc, hfailed⟩
        exact absurd hfailed (hnever c hc)
  · have hafter : after.filter (fun c => c.target = .failed) = [] := by
      rw [List.filter_eq_nil_iff]
      intro d hd
      simpa using hlate d hd
    refine ⟨?_, ?_⟩
    · rw [hrecord, latestFailure, List.filter_append, List.filter_cons_of_pos (by simpa using hc), hafter,
        List.getLast?_concat, Option.bind_some, he]
    · rw [hrecord]
      exact ⟨fun _ => ⟨c, by simp, hc⟩, fun _ => by simp⟩

/-- A failure among the changes is the one that the last error is from. -/
theorem Chronicle.lastError_of_mem (h : Chronicle g {} cs es τ) {d : Change} (hd : d ∈ cs)
    (hfailed : d.target = .failed) : τ.state.lastError = d.error := by
  rcases h.failure with ⟨-, hnever⟩ | ⟨before, c, after, e, rfl, -, he, hrecord, -, hearly, hlate⟩
  · exact absurd hfailed (hnever d hd)
  · rcases List.mem_append.mp hd with hmem | hmem
    · exact absurd hfailed (hearly d hmem)
    · rcases List.mem_cons.mp hmem with rfl | hmem
      · rw [hrecord, he]
      · exact absurd hfailed (hlate d hmem)

end Chronicles

end LanguageClient.Supervisor
