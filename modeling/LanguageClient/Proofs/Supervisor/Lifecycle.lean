import Mathlib.Data.List.Chain
import LanguageClient.Proofs.Supervisor.System
import LanguageClient.Proofs.Supervisor.ThreadStep

/-! # The life of a supervised server, in every interleaving.

`Invariant` says that every thread stands where the shared state fits, and that
at most one call to start the server was ever let through; it holds in every
system that can be reached (`Steps.invariant`). From it:

* `lifecycle_path_legal` — the states of the server form a legal path, starting
  happens at most once, and so does asking for a process;
* `process_gone`         — a server that is stopped or has failed has left no
  process behind. -/

namespace LanguageClient.Supervisor

/-! ### The invariant -/

/-- What holds of a system whatever happened to it. -/
structure Invariant (σ : System) : Prop where
  sound : Sound σ.state
  fits : ∀ (i : Nat) (t : Thread), σ.threads[i]? = some t → t.task.Fits σ.state i
  /-- At most one call to start the server was let through. -/
  unique : ∀ (i j : Nat) (t u : Thread), σ.threads[i]? = some t → σ.threads[j]? = some u →
    t.task.isStarter = true → u.task.isStarter = true → i = j

/-- Callers begin by starting, stopping or notifying. -/
theorem Task.isEntry_cases {t : Task} (h : t.isEntry = true) :
    (∃ mode, t = .start mode .enter) ∨ t = .stop .acquire ∨
      ∃ method params, t = .notify method params .check := by
  unfold isEntry at h
  split at h
  · exact Or.inl ⟨_, rfl⟩
  · exact Or.inr (Or.inl rfl)
  · exact Or.inr (Or.inr ⟨_, _, rfl⟩)
  · cases h

theorem Task.isEntry_fits {t : Task} (h : t.isEntry = true) (s : State) (i : Nat) : t.Fits s i := by
  rcases Task.isEntry_cases h with ⟨mode, rfl⟩ | rfl | ⟨method, params, rfl⟩
  · trivial
  · intro hne
    exact absurd rfl hne
  · trivial

theorem Task.isEntry_not_starter {t : Task} (h : t.isEntry = true) : t.isStarter = false := by
  rcases Task.isEntry_cases h with ⟨mode, rfl⟩ | rfl | ⟨method, params, rfl⟩ <;> rfl

theorem StartPoint.Fits.used {s : State} {p : StartPoint} (h : p.Fits s) (hp : p ≠ .enter) :
    s.used = true := by
  cases p with
  | enter => exact absurd rfl hp
  | _ => exact h.1

/-- A starter fits only after the supervisor was used. -/
theorem Task.Fits.used {s : State} {i : Nat} {t : Task} (h : t.Fits s i)
    (hs : t.isStarter = true) : s.used = true := by
  cases t with
  | start mode p =>
      apply StartPoint.Fits.used h
      rintro rfl
      cases hs
  | _ => cases hs

theorem invariant_initial : Invariant {} where
  sound := ⟨fun _ => ⟨rfl, rfl, rfl⟩, by simp [State.running?], by simp⟩
  fits := by simp
  unique := by simp

/-- A quiet change keeps the invariant, if threads stand where they stood and
new ones stand at an entry. -/
theorem Invariant.quiet {σ σ' : System} (h : Invariant σ) (hq : Quiet σ.state σ'.state)
    (ht : SameTasks σ σ') : Invariant σ' where
  sound := h.sound.turn (hq.turn false none)
  fits := by
    intro j u hu
    rcases ht j u hu with ⟨_, he⟩ | ⟨t, hj, he⟩
    · exact Task.isEntry_fits he _ j
    · rw [he]
      exact (h.fits j t hj).turn (hq.turn false none) (fun _ => rfl) (by simp)
  unique := by
    intro i j t u hi hj hst hsu
    rcases ht i t hi with ⟨_, he⟩ | ⟨t', hi', he⟩
    · rw [Task.isEntry_not_starter he] at hst; cases hst
    · rcases ht j u hj with ⟨_, he'⟩ | ⟨u', hj', he'⟩
      · rw [Task.isEntry_not_starter he'] at hsu; cases hsu
      · rw [he] at hst
        rw [he'] at hsu
        exact h.unique i j t' u' hi' hj' hst hsu

/-- A proper step of a thread keeps the invariant. -/
theorem Invariant.advance {g : Settings} {σ : System} {i : Nat} {t : Thread} {p : Progress}
    (h : Invariant σ) (hi : σ.threads[i]? = some t) (hp : p.Proper g i t.task σ.state) :
    Invariant (σ.advance i t p) where
  sound := h.sound.turn hp.turn
  fits := by
    intro j u hu
    rcases getElem?_set_append hu with ⟨rfl, rfl⟩ | ⟨hne, hj⟩ | ⟨_, hu⟩
    · exact hp.fits
    · refine (h.fits j u hj).turn hp.turn ?_ (by simpa using Ne.symm hne)
      intro hst
      -- The thread that moves is no starter, since this one is.
      by_contra hb
      exact hne (h.unique j i u t hj hi hst (by simpa using hb))
    · obtain ⟨task, htask, rfl⟩ := List.mem_map.mp hu
      rw [hp.started task htask]
      trivial
  unique := by
    -- A thread that was no starter has become one only if the supervisor was
    -- unused, and then nobody else is.
    have hold : ∀ (j : Nat) (u : Thread), σ.threads[j]? = some u → u.task.isStarter = true →
        p.task.isStarter = true → j = i := by
      intro j u hj hsu hsp
      rcases hp.starter hsp with hst | hu
      · exact h.unique j i u t hj hi hsu hst
      · rw [(h.fits j u hj).used hsu] at hu; cases hu
    have hnew : ∀ u ∈ p.started.map Thread.ofTask, u.task.isStarter = false := by
      intro u hu
      obtain ⟨task, htask, rfl⟩ := List.mem_map.mp hu
      rw [hp.started task htask]
      rfl
    intro j k u v hj hk hsu hsv
    rcases getElem?_set_append hj with ⟨rfl, rfl⟩ | ⟨_, hj'⟩ | ⟨_, hj'⟩
    · rcases getElem?_set_append hk with ⟨rfl, rfl⟩ | ⟨_, hk'⟩ | ⟨_, hk'⟩
      · rfl
      · exact (hold k v hk' hsv hsu).symm
      · rw [hnew v hk'] at hsv; cases hsv
    · rcases getElem?_set_append hk with ⟨rfl, rfl⟩ | ⟨_, hk'⟩ | ⟨_, hk'⟩
      · exact hold j u hj' hsu hsv
      · exact h.unique j k u v hj' hk' hsu hsv
      · rw [hnew v hk'] at hsv; cases hsv
    · rw [hnew u hj'] at hsu; cases hsu

/-- **Every step keeps the invariant**, and is a turn. -/
theorem Step.invariant {g : Settings} {σ σ' : System} {es : List Effect} (hs : Step g σ es σ')
    (h : Invariant σ) : Invariant σ' ∧ ∃ b me, Turn b me σ.state σ'.state := by
  rcases hs.calm_or_advances with ⟨hc, ht⟩ | ⟨i, t, p, hi, hp, rfl, rfl⟩
  · exact ⟨h.quiet hc.quiet ht, false, none, hc.quiet.turn _ _⟩
  · have hp := step_proper h.sound (h.fits i t hi) hp
    exact ⟨h.advance hi hp, _, _, hp.turn⟩

/-- **The invariant holds in every system that can be reached.** -/
theorem Steps.invariant {g : Settings} {σ τ : System} {path : List Lifecycle} {es : List Effect}
    (hs : Steps g σ path es τ) (h : Invariant σ) : Invariant τ := by
  induction hs with
  | refl => exact h
  | step _ hstep ih => exact (hstep.invariant ih).1

/-- What holds of all tasks that calls begin with, of the watch over a server that was
started, and of whatever a step leads to, goes on holding of all threads. -/
theorem Step.tasks {g : Settings} {σ σ' : System} {es : List Effect} {P : Task → Prop}
    (hs : Step g σ es σ') (hinv : Invariant σ) (entry : ∀ task : Task, task.isEntry = true → P task)
    (watch : P (.watch .awaitExit))
    (next : ∀ i t s p, step g i t s = some p → P p.task)
    (h : ∀ (j : Nat) (u : Thread), σ.threads[j]? = some u → P u.task) :
    ∀ (j : Nat) (u : Thread), σ'.threads[j]? = some u → P u.task := by
  intro j u hj
  rcases hs.calm_or_advances with ⟨_, hsame⟩ | ⟨i, t, p, hi, hp, rfl, rfl⟩
  · rcases hsame j u hj with ⟨_, hentry⟩ | ⟨v, hv, he⟩
    · exact entry u.task hentry
    · rw [he]
      exact h j v hv
  · rcases getElem?_set_append hj with ⟨_, rfl⟩ | ⟨_, hold⟩ | ⟨_, hnew⟩
    · exact next i t _ p hp
    · exact h j u hold
    · obtain ⟨task, htask, rfl⟩ := List.mem_map.mp hnew
      rw [Thread.ofTask, (step_proper hinv.sound (hinv.fits i t hi) hp).started task htask]
      exact watch

/-! ### Paths -/

section Paths

variable {path : List Lifecycle} {a b : Lifecycle}

theorem visit_of_last (h : path.getLast? = some b) : visit path b = path := if_pos h

theorem visit_of_ne (h : path.getLast? ≠ some b) : visit path b = path ++ [b] := if_neg h

theorem getLast?_visit (path : List Lifecycle) (b : Lifecycle) : (visit path b).getLast? = some b := by
  by_cases h : path.getLast? = some b
  · rw [visit_of_last h, h]
  · rw [visit_of_ne h, List.getLast?_concat]

theorem head?_visit (h : path.head? = some a) : (visit path b).head? = some a := by
  by_cases hb : path.getLast? = some b
  · rw [visit_of_last hb, h]
  · rw [visit_of_ne hb, List.head?_append, h]
    rfl

theorem isChain_visit (hc : path.IsChain fun x y => x.canStep y = true)
    (hl : path.getLast? = some a) (h : b = a ∨ a.canStep b = true) :
    (visit path b).IsChain fun x y => x.canStep y = true := by
  by_cases hb : path.getLast? = some b
  · rw [visit_of_last hb]
    exact hc
  · have hstep : a.canStep b = true := by
      rcases h with rfl | h
      · exact absurd hl hb
      · exact h
    rw [visit_of_ne hb]
    apply hc.append (by simp)
    intro x hx y hy
    rw [hl] at hx
    cases hx
    cases hy
    exact hstep

end Paths

/-- What holds of the states a server went through, up to the present one. -/
structure PathFits (path : List Lifecycle) (s : State) : Prop where
  head : path.head? = some .stopped
  last : path.getLast? = some s.lifecycle
  chain : path.IsChain fun a b => a.canStep b = true
  once : path.count .starting ≤ 1
  fresh : s.used = false → path.count .starting = 0

theorem Turn.unused {b : Bool} {me : Option Nat} {s s' : State} (ht : Turn b me s s')
    (hu : s'.used = false) : s.used = false := by
  by_contra hn
  rw [ht.used (by simpa using hn)] at hu
  cases hu

/-- A turn goes on along the path; starting is entered only by using the
supervisor. -/
theorem PathFits.turn {b : Bool} {me : Option Nat} {path : List Lifecycle} {s s' : State}
    (h : PathFits path s) (ht : Turn b me s s') : PathFits (visit path s'.lifecycle) s' := by
  have hcount : (visit path s'.lifecycle).count .starting ≤ 1 ∧
      (s'.used = false → (visit path s'.lifecycle).count .starting = 0) := by
    by_cases hsame : path.getLast? = some s'.lifecycle
    · rw [visit_of_last hsame]
      exact ⟨h.once, fun hu => h.fresh (ht.unused hu)⟩
    · rw [visit_of_ne hsame, List.count_append]
      -- The state of starting is only entered by a supervisor that has not been used.
      by_cases hst : s'.lifecycle = .starting
      · have hne : s.lifecycle ≠ .starting := by
          intro he
          rw [h.last, he, hst] at hsame
          exact hsame rfl
        obtain ⟨hu, hu'⟩ := (ht.entersStarting hst).resolve_left hne
        rw [h.fresh hu, hst]
        refine ⟨by simp, ?_⟩
        intro hf
        rw [hu'] at hf
        cases hf
      · have hnone : [s'.lifecycle].count .starting = 0 := by
          rw [List.count_eq_zero, List.mem_singleton]
          exact fun he => hst he.symm
        rw [hnone, Nat.add_zero]
        exact ⟨h.once, fun hu => h.fresh (ht.unused hu)⟩
  exact {
    head := head?_visit h.head
    last := getLast?_visit _ _
    chain := isChain_visit h.chain h.last ht.legal
    once := hcount.1
    fresh := hcount.2 }

/-- A path that begins before the supervisor was used. -/
theorem Steps.pathFits_of_unused {g : Settings} {path : List Lifecycle} {es : List Effect} {σ τ : System}
    (hs : Steps g σ path es τ) (hinv : Invariant σ) (hu : σ.state.used = false) : PathFits path τ.state := by
  induction hs with
  | refl =>
      have hl : σ.state.lifecycle = .stopped := (hinv.sound.unused hu).1
      exact ⟨congrArg some hl, rfl, by simp, by rw [hl]; decide, fun _ => by rw [hl]; rfl⟩
  | step hsteps hstep ih =>
      obtain ⟨_, _, _, ht⟩ := hstep.invariant (hsteps.invariant hinv)
      exact ih.turn ht

/-- The path of a run fits the state it leads to. -/
theorem Steps.pathFits {g : Settings} {path : List Lifecycle} {es : List Effect} {σ : System}
    (hs : Steps g {} path es σ) : PathFits path σ.state :=
  hs.pathFits_of_unused invariant_initial rfl

/-! ### Effects -/

theorem spawns_eq_zero {es : List Effect} (h : ∀ e ∈ es, e.Plain) : spawns es = 0 := by
  unfold spawns
  rw [List.countP_eq_zero]
  intro e he hsp
  cases e with
  | spawned launch => exact h _ he
  | _ => cases hsp

/-- What holds of everything that could be seen. -/
structure EffectsFit (g : Settings) (es : List Effect) (σ : System) : Prop where
  ignored : ∀ source target, logged (ignoredLine source target) ∉ es
  once : spawns es ≤ 1
  fresh : σ.state.used = false → spawns es = 0
  launching : ∀ (i : Nat) (t : Thread), σ.threads[i]? = some t → t.task.isLaunching = true →
    spawns es = 0
  spawned : g.spawnError = none → spawns es ≠ 0 → σ.state.running? ≠ none

theorem Task.isStarter_of_isLaunching {t : Task} (h : t.isLaunching = true) : t.isStarter = true := by
  unfold isLaunching at h
  split at h
  · rfl
  · rfl
  · rfl
  · cases h

/-- Plain effects change nothing, if nobody new is about to ask for a process. -/
theorem EffectsFit.plain {g : Settings} {b : Bool} {me : Option Nat} {es new : List Effect}
    {σ σ' : System} (h : EffectsFit g es σ) (ht : Turn b me σ.state σ'.state)
    (hp : ∀ e ∈ new, e.Plain)
    (hl : ∀ (i : Nat) (t : Thread), σ'.threads[i]? = some t → t.task.isLaunching = true →
      spawns es = 0) : EffectsFit g (es ++ new) σ' := by
  have hcount : spawns (es ++ new) = spawns es := by
    rw [spawns_append, spawns_eq_zero hp, Nat.add_zero]
  refine ⟨?_, ?_, ?_, ?_, ?_⟩
  · intro source target hm
    rcases List.mem_append.mp hm with hm | hm
    · exact h.ignored source target hm
    · exact (hp _ hm).ne_ignored source target rfl
  · rw [hcount]
    exact h.once
  · intro hu
    rw [hcount]
    exact h.fresh (ht.unused hu)
  · intro i t hi hla
    rw [hcount]
    exact hl i t hi hla
  · intro he hn
    rw [hcount] at hn
    exact ht.running?_isSome (h.spawned he hn)

/-- **Every step shows only what it should.** -/
theorem EffectsFit.step {g : Settings} {es new : List Effect} {σ σ' : System}
    (h : EffectsFit g es σ) (hi : Invariant σ) (hs : Step g σ new σ') :
    EffectsFit g (es ++ new) σ' := by
  obtain ⟨_, b, me, ht⟩ := hs.invariant hi
  rcases hs.calm_or_advances with ⟨hc, hsame⟩ | ⟨i, t, p, hti, hp, rfl, rfl⟩
  · refine h.plain ht hc.plain ?_
    intro j u hu hla
    rcases hsame j u hu with ⟨_, he⟩ | ⟨v, hv, he⟩
    · have hst := Task.isStarter_of_isLaunching hla
      rw [Task.isEntry_not_starter he] at hst
      cases hst
    · exact h.launching j v hv (he ▸ hla)
  · have hp := step_proper hi.sound (hi.fits i t hti) hp
    have hstarted : ∀ u ∈ p.started.map Thread.ofTask, u.task.isLaunching = false := by
      intro u hu
      obtain ⟨task, htask, rfl⟩ := List.mem_map.mp hu
      rw [hp.started task htask]
      rfl
    rcases hp.effects with hplain | ⟨⟨mode, hspawn⟩, hnot, hproc, line, launch, hline, heffects⟩
    · refine h.plain ht hplain ?_
      intro j u hu hla
      rcases getElem?_set_append hu with ⟨rfl, rfl⟩ | ⟨_, hj⟩ | ⟨_, hj⟩
      · rcases hp.launching hla with hold | hu
        · exact h.launching j t hti hold
        · exact h.fresh hu
      · exact h.launching j u hj hla
      · rw [hstarted u hj] at hla; cases hla
    · have hlaunching : t.task.isLaunching = true := by rw [hspawn]; rfl
      have hzero : spawns es = 0 := h.launching i t hti hlaunching
      have hstarter := Task.isStarter_of_isLaunching hlaunching
      have hused : σ.state.used = true := (hi.fits i t hti).used hstarter
      have hone : spawns (es ++ p.effects) = 1 := by
        have hrest : spawns [line] = 0 := spawns_eq_zero (by simpa using hline)
        rw [spawns_append, hzero, heffects, ← List.singleton_append, spawns_append, hrest]
        rfl
      refine ⟨?_, by rw [hone], ?_, ?_, fun he _ => hproc he⟩
      · intro source target hm
        rcases List.mem_append.mp hm with hm | hm
        · exact h.ignored source target hm
        · rw [heffects] at hm
          simp only [List.mem_cons, List.not_mem_nil, or_false] at hm
          rcases hm with hm | hm
          · exact hline.ne_ignored source target hm.symm
          · cases hm
      · intro hu
        have hu := ht.unused hu
        rw [hused] at hu
        cases hu
      · -- Only one thread can have been about to ask for a process.
        intro j u hu hla
        rcases getElem?_set_append hu with ⟨rfl, rfl⟩ | ⟨hne, hj⟩ | ⟨_, hj⟩
        · rw [hnot] at hla; cases hla
        · exact absurd (hi.unique j i u t hj hti (Task.isStarter_of_isLaunching hla) hstarter) hne
        · rw [hstarted u hj] at hla; cases hla

/-- What could be seen of a run fits its end. -/
theorem Steps.effectsFit {g : Settings} {path : List Lifecycle} {es : List Effect} {σ : System}
    (hs : Steps g {} path es σ) : EffectsFit g es σ := by
  induction hs with
  | refl => exact ⟨by simp, by simp, fun _ => rfl, by simp, by simp⟩
  | step hsteps hstep ih => exact ih.step (hsteps.invariant invariant_initial) hstep

/-! ### A crash

One run in which every state of a server occurs. -/

/-- A supervisor of a binary that can be executed. -/
def presentServer : Settings where
  binary := { path := "/server", platform := ⟨"linux", "x64"⟩ }
  files := { entries := [(["server"], .file [] 0o755)] }

/-- What a server answers that agrees on the protocol. -/
def greetingFrame : Bytes :=
  Frame.encode (utf8 "\x7b\"jsonrpc\":\"2.0\",\"id\":1,\"result\":\x7b\x7d\x7d")

/-- The server is started and agrees on the protocol, exits of its own accord,
and is stopped. -/
def crashEvents : List Event :=
  [.call (.start .run .enter) false false, .advance 0, .advance 0, .advance 0, .advance 0,
    .advance 0, .deed (.send greetingFrame), .advance 0, .advance 0, .advance 0, .advance 0,
    .deed (.exit 3), .advance 1, .call (.stop .acquire) false false, .advance 2, .advance 2,
    .advance 2, .advance 2, .advance 2]

theorem crash_played :
    ∃ r, (Run.begin {}).play? presentServer crashEvents = some r ∧
      (r.path, spawns r.effects) = ([.stopped, .starting, .running, .failed, .stopped], 1) :=
  Option.map_eq_some_iff.mp (by decide +kernel)

/-! ### The life of a server -/

/-- **In every interleaving, the states of the server form a legal path.** It
begins stopped, and every next state may follow the one before. No change of
state is ever refused. Starting is entered at most once, and a process is asked
for at most once. -/
theorem lifecycle_path_legal {g : Settings} {path : List Lifecycle} {es : List Effect} {σ : System}
    (hs : Steps g {} path es σ) :
    path.head? = some .stopped ∧ path.getLast? = some σ.state.lifecycle ∧
      path.IsChain (fun a b => a.canStep b = true) ∧
      (∀ source target, logged (ignoredLine source target) ∉ es) ∧
      path.count .starting ≤ 1 ∧ spawns es ≤ 1 := by
  have hpath := hs.pathFits
  have heffects := hs.effectsFit
  exact ⟨hpath.head, hpath.last, hpath.chain, heffects.ignored, hpath.once, heffects.once⟩

/-- The path of a crash is legal, and nothing was refused on it. -/
theorem crash_path_legal :
    ∃ es σ, Steps presentServer {} [.stopped, .starting, .running, .failed, .stopped] es σ ∧
      [Lifecycle.stopped, .starting, .running, .failed, .stopped].IsChain
        (fun a b => a.canStep b = true) ∧
      (∀ source target, logged (ignoredLine source target) ∉ es) ∧ spawns es ≤ 1 := by
  obtain ⟨r, hr, hsame⟩ := crash_played
  have hs := Run.steps_of_play? hr
  rw [(Prod.mk.inj hsame).1] at hs
  obtain ⟨_, _, hchain, hignored, _, hspawns⟩ := lifecycle_path_legal hs
  exact ⟨r.effects, r.system, hs, hchain, hignored, hspawns⟩

/-- **A server that is stopped or has failed has left no process behind**, in
every interleaving: if one was spawned, it has ended. In particular none runs
when a call to stop the server has found or made it stopped and is about to
return. -/
theorem process_gone {g : Settings} {path : List Lifecycle} {es : List Effect} {σ : System}
    (hs : Steps g {} path es σ) :
    spawns es ≤ 1 ∧
    (σ.state.lifecycle = .stopped ∨ σ.state.lifecycle = .failed →
      σ.state.running? ≠ some true ∧
        (spawns es ≠ 0 → g.spawnError = none → σ.state.running? = some false)) ∧
    ∀ i t q p, σ.threads[i]? = some t → t.task = .stop q → step g i t σ.state = some p →
      p.task = .stop .release → p.state.lifecycle = .stopped ∧ p.state.running? ≠ some true := by
  have hinv := hs.invariant invariant_initial
  refine ⟨hs.effectsFit.once, ?_, ?_⟩
  · intro hl
    have hgone := hinv.sound.reaped hl
    refine ⟨hgone, ?_⟩
    intro hasked hspawn
    have hsome := hs.effectsFit.spawned hspawn hasked
    cases hr : σ.state.running? with
    | none => exact absurd hr hsome
    | some r =>
        cases r with
        | true => exact absurd hr hgone
        | false => rfl
  -- A stop that lets go has found the state stopped, and did not change it.
  · intro i t q p hi ht hp hrel
    have hfit := hinv.fits i t hi
    rw [ht] at hfit
    rcases stop_cases hp ht hfit with ⟨q', hne, hq'⟩ | ⟨_, hstate, hl⟩ | ⟨_, hdone⟩
    · rw [hrel] at hq'
      cases hq'
      exact absurd rfl hne
    · rw [hstate]
      exact ⟨hl, hinv.sound.reaped (Or.inl hl)⟩
    · rw [hrel] at hdone
      cases hdone

/-- After a crash and a stop, the process that was spawned has ended. -/
theorem crashed_process_gone :
    ∃ path es σ, Steps presentServer {} path es σ ∧ spawns es = 1 ∧
      σ.state.lifecycle = .stopped ∧ σ.state.running? = some false := by
  obtain ⟨r, hr, hsame⟩ := crash_played
  obtain ⟨hpath, hspawns⟩ := Prod.mk.inj hsame
  have hs := Run.steps_of_play? hr
  have hstopped : r.system.state.lifecycle = .stopped := by
    have hlast := hs.pathFits.last
    rw [hpath] at hlast
    exact (Option.some.inj hlast).symm
  have hgone := (process_gone hs).2.1 (Or.inl hstopped)
  exact ⟨r.path, r.effects, r.system, hs, hspawns, hstopped, hgone.2 (by omega) rfl⟩

end LanguageClient.Supervisor
