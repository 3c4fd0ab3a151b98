import LanguageClient.Proofs.Supervisor.Lifecycle

/-! # A request to stop the server is never lost.

Whoever finds the server starting leaves a request behind, and the call that
starts the server reads it in the same move in which it would say that the
server runs. `stop_request_kept` says what follows in every interleaving, for
each state but stopped in which a call to stop can find the server. -/

namespace LanguageClient.Supervisor

/-! ### The server will not run -/

/-- The supervisor was used, somebody asked to stop the server, and it does not
run. -/
structure Doomed (s : State) : Prop where
  used : s.used = true
  requested : s.stopRequested = true
  idle : s.lifecycle ≠ .running

/-- A doomed server stays doomed. -/
theorem Doomed.turn {b : Bool} {me : Option Nat} {s s' : State} (h : Doomed s)
    (ht : Turn b me s s') : Doomed s' where
  used := ht.used h.used
  requested := ht.stopRequested h.requested
  idle := by
    intro hl
    rcases ht.entersRunning hl with he | ⟨_, hq⟩
    · exact h.idle he
    · rw [h.requested] at hq; cases hq

theorem mem_visit {path : List Lifecycle} {a b : Lifecycle} (h : a ∈ visit path b) :
    a ∈ path ∨ a = b := by
  unfold visit at h
  split at h
  · exact Or.inl h
  · simpa using h

/-- A doomed server never runs. -/
theorem Steps.not_running {g : Settings} {path : List Lifecycle} {es : List Effect} {σ τ : System}
    (hs : Steps g σ path es τ) (hi : Invariant σ) (h : Doomed σ.state) :
    .running ∉ path ∧ Doomed τ.state := by
  induction hs with
  | refl => exact ⟨by simpa using Ne.symm h.idle, h⟩
  | step hsteps hstep ih =>
      obtain ⟨_, _, _, ht⟩ := hstep.invariant (hsteps.invariant hi)
      have hd := ih.2.turn ht
      refine ⟨?_, hd⟩
      intro hm
      rcases mem_visit hm with hm | hm
      · exact ih.1 hm
      · exact hd.idle hm.symm

/-! ### The call will not return before the server is stopped -/

/-- What holds of a call that has found the server anything but stopped: once
it is about to return, the server is stopped. -/
def Due (s : State) : Task → Prop
  | .stop .release | .done => s.used = true ∧ s.lifecycle = .stopped
  | .stop _ => s.used = true
  | _ => False

theorem due_of_used {s : State} {q : StopPoint} (hu : s.used = true)
    (hl : q = .release → s.lifecycle = .stopped) : Due s (.stop q) := by
  cases q with
  | release => exact ⟨hu, hl rfl⟩
  | _ => exact hu

theorem Due.used {s : State} {q : StopPoint} (h : Due s (.stop q)) : s.used = true := by
  cases q with
  | release => exact h.1
  | _ => exact h

/-- A call that finds the server not stopped is due from then on. -/
theorem due_of_look {g : Settings} {i : Nat} {t : Thread} {s : State} {p : Progress}
    (ht : t.task = .stop .look) (hu : s.used = true) (hl : s.lifecycle ≠ .stopped)
    (hp : step g i t s = some p) : Due p.state p.task := by
  simp only [step, ht, stopStep] at hp
  split at hp <;> cases hp
  · next hs => exact absurd hs hl
  · exact hu
  · exact hu
  · exact hu

/-- Other threads leave a due call alone. -/
theorem Due.turn {b : Bool} {me : Option Nat} {s s' : State} {t : Task} (h : Due s t)
    (ht : Turn b me s s') : Due s' t := by
  cases t with
  | stop q =>
      refine due_of_used (ht.used h.used) ?_
      rintro rfl
      exact ht.stays_stopped h.1 h.2
  | done => exact ⟨ht.used h.1, ht.stays_stopped h.1 h.2⟩
  | _ => exact h.elim

/-- A due call stays due as it goes on. -/
theorem Due.step {g : Settings} {i : Nat} {t : Thread} {s : State} {p : Progress} (hs : Sound s)
    (hf : t.task.Fits s i) (h : Due s t.task) (hp : step g i t s = some p) :
    Due p.state p.task := by
  have ht := (step_proper hs hf hp).turn
  cases htask : t.task with
  | stop q =>
      rw [htask] at h hf
      rcases stop_cases hp htask hf with ⟨q', hne, hq'⟩ | ⟨hq', hstate, hl⟩ | ⟨rfl, hdone⟩
      · rw [hq']
        exact due_of_used (ht.used h.used) (fun he => absurd he hne)
      · rw [hq', hstate]
        exact ⟨h.used, hl⟩
      · rw [hdone]
        exact ⟨ht.used h.1, ht.stays_stopped h.1 h.2⟩
  | done => simp only [Supervisor.step, htask] at hp; cases hp
  | _ => rw [htask] at h; exact h.elim

/-- A stop that is due stays due until it returns. -/
theorem Steps.due {g : Settings} {path : List Lifecycle} {es : List Effect} {σ τ : System}
    (hs : Steps g σ path es τ) (hi : Invariant σ) {i : Nat} (hlen : i < σ.threads.length)
    (h : ∀ t, σ.threads[i]? = some t → Due σ.state t.task) :
    i < τ.threads.length ∧ ∀ u, τ.threads[i]? = some u → Due τ.state u.task := by
  induction hs with
  | refl => exact ⟨hlen, h⟩
  | @step _ _ _ τ υ hsteps hstep ih =>
      obtain ⟨hlen, hdue⟩ := ih
      have hinv := hsteps.invariant hi
      obtain ⟨_, b, me, ht⟩ := hstep.invariant hinv
      refine ⟨Nat.lt_of_lt_of_le hlen hstep.length_le, ?_⟩
      intro u hu
      rcases hstep.calm_or_advances with ⟨_, hsame⟩ | ⟨j, t, p, hj, hp, rfl, rfl⟩
      · rcases hsame i u hu with ⟨hnone, _⟩ | ⟨v, hv, he⟩
        · rw [List.getElem?_eq_none_iff] at hnone
          omega
        · rw [he]
          exact (hdue v hv).turn ht
      · rcases getElem?_set_append hu with ⟨rfl, rfl⟩ | ⟨_, hold⟩ | ⟨hnew, _⟩
        · exact Due.step hinv.sound (hinv.fits i t hj) (hdue t hj) hp
        · exact (hdue u hold).turn ht
        · omega

/-! ### Stopped for good -/

/-- A supervisor that was used and is stopped stays so, and asks for no process. -/
theorem Steps.stays_stopped {g : Settings} {path : List Lifecycle} {es : List Effect}
    {σ τ : System} (hs : Steps g σ path es τ) (hi : Invariant σ) (hu : σ.state.used = true)
    (hl : σ.state.lifecycle = .stopped) :
    τ.state.used = true ∧ τ.state.lifecycle = .stopped ∧ spawns es = 0 := by
  induction hs with
  | refl => exact ⟨hu, hl, rfl⟩
  | @step _ es new τ υ hsteps hstep ih =>
      obtain ⟨hu, hl, hes⟩ := ih
      have hinv := hsteps.invariant hi
      obtain ⟨_, _, _, ht⟩ := hstep.invariant hinv
      refine ⟨ht.used hu, ht.stays_stopped hu hl, ?_⟩
      have hplain : ∀ e ∈ new, e.Plain := by
        rcases hstep.calm_or_advances with ⟨hc, _⟩ | ⟨i, t, p, hi, hp, rfl, rfl⟩
        · exact hc.plain
        · have hfit := hinv.fits i t hi
          rcases (step_proper hinv.sound hfit hp).effects with hplain | ⟨⟨mode, hspawn⟩, _⟩
          · exact hplain
          · -- Whoever asks for a process has the server starting.
            rw [hspawn] at hfit
            have hstarting : τ.state.lifecycle = .starting := hfit.2.1
            rw [hl] at hstarting
            cases hstarting
      rw [spawns_append, hes, spawns_eq_zero hplain]

/-! ### A stop while the server starts

One run in which a request to stop comes in before the server has agreed on the
protocol. -/

def Task.isDone : Task → Bool
  | .done => true
  | _ => false

theorem Task.eq_done {t : Task} (h : t.isDone = true) : t = .done := by
  cases t with
  | done => rfl
  | _ => cases h

/-- One call is starting the server, another is about to look at it. -/
def interruptedStart : System where
  state := { lifecycle := .starting, used := true, stopper := some 1 }
  threads := [{ task := .start .run (.announceStarting (some ⟨.stopped, .starting, none, 0⟩)) },
    { task := .stop .look }]

/-- The look leaves a request behind. -/
def stopNoted : Progress where
  state := { interruptedStart.state with stopRequested := true }
  task := .stop .awaitStart

/-- The server agrees on the protocol all the same, and ends when it is asked to
shut down. Both calls return. -/
def interruptedEvents : List Event :=
  [.advance 0, .advance 0, .advance 0, .advance 0, .deed (.send greetingFrame), .advance 0,
    .advance 0, .advance 0, .advance 0, .deed (.exit 0), .advance 0, .advance 0, .advance 0,
    .advance 0, .advance 0, .advance 1, .advance 1, .advance 1]

theorem interruptedStart_reached : ∃ path es, Steps presentServer {} path es interruptedStart := by
  have hplayed : (Run.begin {}).play? presentServer
      [.call (.start .run .enter) false false, .advance 0, .call (.stop .acquire) false false,
        .advance 1] = some ⟨interruptedStart, [.stopped, .starting], []⟩ := rfl
  exact ⟨_, _, Run.steps_of_play? hplayed⟩

theorem interrupted_played :
    ∃ r, (Run.begin (interruptedStart.advance 1 { task := .stop .look } stopNoted)).play?
        presentServer interruptedEvents = some r ∧
      r.system.threads.map (·.task.isDone) = [true, true] :=
  Option.map_eq_some_iff.mp (by decide +kernel)

/-! ### Requests are kept -/

/-- A call to start a supervisor that was used returns at once. -/
theorem step_enter_used {g : Settings} {i : Nat} {t : Thread} {mode : LaunchMode} {s : State}
    (hu : s.used = true) (ht : t.task = .start mode .enter) :
    step g i t s = some { state := s, task := .done,
                          effects := [.returned i (some (.condition .supervisorUsed))] } := by
  simp only [step, ht, startStep, hu, if_true]

/-- **A request to stop is never lost.** Take any run and any call to stop the
server in it that finds the server not stopped, and go on from there in any
way. If it found the server starting, the server never runs afterwards. When
the call has returned, the server is stopped, and it is stopped forever: no
process is asked for any more, and every later call to start it returns at
once, with an error and without changing anything. -/
theorem stop_request_kept {g : Settings} {path₀ path : List Lifecycle} {es₀ es : List Effect}
    {σ τ : System} {i : Nat} {t : Thread} {p : Progress} (h₀ : Steps g {} path₀ es₀ σ)
    (hi : σ.threads[i]? = some t) (hlook : t.task = .stop .look)
    (hp : step g i t σ.state = some p) (hfound : σ.state.lifecycle ≠ .stopped)
    (hs : Steps g (σ.advance i t p) path es τ) :
    (σ.state.lifecycle = .starting → .running ∉ path) ∧
    ∀ u, τ.threads[i]? = some u → u.task = .done →
      τ.state.lifecycle = .stopped ∧
      ∀ path' es' υ, Steps g τ path' es' υ →
        υ.state.lifecycle = .stopped ∧ spawns es' = 0 ∧
        ∀ j v mode, υ.threads[j]? = some v → v.task = .start mode .enter →
          step g j v υ.state = some { state := υ.state, task := .done,
                                      effects := [.returned j (some (.condition .supervisorUsed))] } := by
  have hinv := h₀.invariant invariant_initial
  have hused := hinv.sound.used_of_ne hfound
  have hproper := step_proper hinv.sound (hinv.fits i t hi) hp
  have hinv' := hinv.advance hi hproper
  refine ⟨?_, ?_⟩
  -- The request is noted, so the start that is under way cannot succeed.
  · intro hstarting
    simp only [step, hlook, stopStep, hstarting] at hp
    cases hp
    exact (hs.not_running hinv' ⟨hused, rfl, by simp [System.advance]⟩).1
  · intro u hu hdone
    have hlen : i < (σ.advance i t p).threads.length :=
      Nat.lt_of_lt_of_le (List.getElem?_eq_some_iff.mp hi).1 (Step.advance hi hp).length_le
    -- From the look on, the stop is due until it has returned.
    have hdue : ∀ t', (σ.advance i t p).threads[i]? = some t' → Due p.state t'.task := by
      intro t' ht'
      rcases getElem?_set_append ht' with ⟨_, rfl⟩ | ⟨hne, _⟩ | ⟨hle, _⟩
      · exact due_of_look hlook hused hfound hp
      · exact absurd rfl hne
      · exact absurd (List.getElem?_eq_some_iff.mp hi).1 (Nat.not_lt.mpr hle)
    have hreturned := (hs.due hinv' hlen hdue).2 u hu
    rw [hdone] at hreturned
    obtain ⟨hu', hl'⟩ := hreturned
    refine ⟨hl', ?_⟩
    intro path' es' υ hs'
    obtain ⟨hu'', hl'', hspawn⟩ := hs'.stays_stopped (hs.invariant hinv') hu' hl'
    exact ⟨hl'', hspawn, fun j v mode _ hv => step_enter_used hu'' hv⟩

/-- A server that agrees on the protocol after the request does not run, and is
stopped when the call has returned. -/
theorem interrupted_start_stopped :
    ∃ path es τ u,
      Steps presentServer (interruptedStart.advance 1 { task := .stop .look } stopNoted) path es τ ∧
        τ.threads[1]? = some u ∧ u.task = .done ∧ .running ∉ path ∧
        τ.state.lifecycle = .stopped := by
  obtain ⟨path₀, es₀, h₀⟩ := interruptedStart_reached
  obtain ⟨r, hr, hdone⟩ := interrupted_played
  have hs := Run.steps_of_play? hr
  obtain ⟨hnever, hreturned⟩ := stop_request_kept h₀ rfl rfl rfl (by decide) hs
  have hsecond : (r.system.threads.map (·.task.isDone))[1]? = some true := by
    rw [hdone]
    rfl
  rw [List.getElem?_map] at hsecond
  obtain ⟨u, hu, hu'⟩ := Option.map_eq_some_iff.mp hsecond
  have hu' := Task.eq_done hu'
  exact ⟨r.path, r.effects, r.system, u, hs, hu, hu', hnever rfl, (hreturned u hu hu').1⟩

end LanguageClient.Supervisor
