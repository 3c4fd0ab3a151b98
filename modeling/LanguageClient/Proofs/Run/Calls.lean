import LanguageClient.Proofs.Run.Course
import LanguageClient.Proofs.Supervisor.StopRequest
import LanguageClient.Proofs.Supervisor.WireOrder

/-! # Calls of a supervisor, step by step.

In a course a run makes one call of its supervisor at a time. The thread of that call
takes its steps among those of threads that watch the process, and among all else that
can happen. `Alone.happen` sorts this out: in every incident the one thread takes a step
(`Moves`) or is left alone (`Apart`), and who is left alone finds what was said, what
was returned, and a server that is up as they were.

`check_step` and `send_step` say what the steps of a notification come to. -/

namespace LanguageClient

namespace Supervisor

/-! ### Steps of single threads -/

/-- Whether a task is none that somebody waits for. -/
def Task.isAside : Task → Bool
  | .watch _ | .done => true
  | _ => false

theorem State.isReady_congr {s s' : State} (h : s'.control = s.control) : s'.isReady = s.isReady := by
  have hl : s'.lifecycle = s.lifecycle := congrArg Control.lifecycle h
  have hs : s'.stopping = s.stopping := congrArg Control.stopping h
  have ha : s'.attached = s.attached := congrArg Control.attached h
  rw [isReady, isReady, hl, hs, ha]

/-- A thread that nobody waits for says nothing and starts nobody, and it leaves a
server that is up as ready as it was. -/
theorem aside_of_step {g : Settings} {i : Nat} {t : Thread} {s : State} {p : Progress}
    (ht : t.task.isAside = true) (h : step g i t s = some p) :
    p.task.isAside = true ∧ p.started = [] ∧ t.task.purpose? = none ∧
      (s.isReady = true → s.isUp = true → p.state.isReady = true) := by
  unfold step at h
  cases htask : t.task with
  | watch q =>
      rw [htask] at h
      cases q with
      | awaitExit =>
          simp only [watchStep] at h
          split at h
          · cases h
          · next code hcode =>
              split at h <;> cases h
              · exact ⟨rfl, rfl, rfl, fun hr _ => hr⟩
              · refine ⟨rfl, rfl, rfl, fun _ hup => ?_⟩
                -- the process of a server that is up has no exit code
                have hended := State.exitCode?_isSome_iff.mp (by rw [hcode]; rfl)
                rw [State.isUp, hended] at hup
                cases hup
      | close code =>
          cases h
          exact ⟨rfl, rfl, rfl, fun hr _ =>
            (State.isReady_congr (State.closeConnection_calm s).quiet.control).trans hr⟩
      | announce moved code =>
          cases h
          exact ⟨rfl, rfl, rfl, fun hr _ => hr⟩
      | tell code =>
          cases h
          exact ⟨rfl, rfl, rfl, fun hr _ => hr⟩
  | done => rw [htask] at h; cases h
  | _ => rw [htask] at ht; cases ht

/-- The line of a notification that is written as a whole. -/
def passedLine (method : String) (params : Bytes) : Line :=
  .said (.passed method (.json params))
    (Frame.encode (Rpc.Outgoing.notification method (some params)).bytes)

/-- Sending over a connection that is up fails only if the caller has given up, and
then nothing is written. -/
theorem notify_of_up {c : Rpc.Connection} (hclosed : c.closed = false) (hleft : c.writer.left = none)
    (method : String) (params : Bytes) (abandoned : Option Condition) :
    (abandoned = none → (c.notify method (.json params) abandoned).2.2 = none) ∧
    ((c.notify method (.json params) abandoned).2.2 ≠ none →
      (c.notify method (.json params) abandoned).2.1 = []) := by
  cases abandoned with
  | some e => simp [Rpc.Connection.notify, hclosed]
  | none =>
      have hsend (m : Rpc.Outgoing) : (c.send m).2.2 = none := by
        simp [Rpc.Connection.send, Frame.write, Frame.Writer.write, hleft]
      simp [Rpc.Connection.notify, hclosed, Rpc.Params.encode, hsend]

/-- Nobody returns by what is shown of an operation on the connection. -/
theorem returned_withConnection (c : Rpc.Connection) (es : List Rpc.Effect) (s : State) (i : Nat) :
    (Event.advance i).returned (s.withConnection c es).2 = [] := by
  refine List.filterMap_eq_nil_iff.mpr ?_
  intro e he
  obtain ⟨x, _, hx⟩ := List.mem_flatMap.mp he
  cases x with
  | wrote frame => rw [List.mem_singleton.mp hx]
  | notified label method params =>
      obtain ⟨r, _, rfl⟩ := List.mem_map.mp hx
      rfl
  | returned id o => cases hx

section Notify

variable {g : Settings} {i : Nat} {t : Thread} {s : State} {p : Progress} {method : String}
  {params : Bytes}

/-- A notification is let through if the server is ready, and refused otherwise. -/
theorem check_step (ht : t.task = .notify method (.json params) .check) (h : step g i t s = some p) :
    p.started = [] ∧ p.state = s ∧
      (s.isReady = true ∧ p.task = .notify method (.json params) .send ∧ p.effects = [] ∨
        s.isReady = false ∧ p.task = .done ∧ ∃ e, p.effects = [.returned i (some e)]) := by
  simp only [step, ht, notifyStep] at h
  split at h <;> cases h
  · next hready => exact ⟨rfl, rfl, Or.inl ⟨hready, rfl, rfl⟩⟩
  · next hready => exact ⟨rfl, rfl, Or.inr ⟨by simpa [State.isReady] using hready, rfl, _, rfl⟩⟩

/-- A notification that is sent without an error is written as a whole, and over a
connection that is up nothing else is. -/
theorem send_step (ht : t.task = .notify method (.json params) .send) (h : step g i t s = some p) :
    p.started = [] ∧ p.state.control = s.control ∧ p.task = .done ∧
      ∃ r, (Event.advance i).returned p.effects = [(i, r)] ∧
        (r = none → written t.task.purpose? p.effects = [passedLine method params]) ∧
        (s.isUp = true → (t.abandoned = none → r = none) ∧
          (r ≠ none → written t.task.purpose? p.effects = [])) := by
  have hpurpose : t.task.purpose? = some (.passed method (.json params)) := by rw [ht]; rfl
  rw [hpurpose]
  simp only [step, ht, notifyStep] at h
  cases hc : s.connection with
  -- Without a connection there is nothing to write to.
  | none =>
      rw [hc] at h
      cases h
      refine ⟨rfl, rfl, rfl, _, rfl, by simp, ?_⟩
      intro hup
      simp [State.isUp, hc] at hup
  | some c =>
      cases hn : c.notify method (.json params) t.abandoned with
      | mk c' rest =>
          obtain ⟨es, failure⟩ := rest
          simp only [hc, hn] at h
          cases h
          have hreturned (r : Option Error) : (Event.advance i).returned
              ((s.withConnection c' es).2 ++ [.returned i r]) = [(i, r)] :=
            List.filterMap_append.trans (congrArg (· ++ [(i, r)]) (returned_withConnection c' es s i))
          have hwritten (r : Option Error) : written (some (.passed method (.json params)))
              ((s.withConnection c' es).2 ++ [.returned i r]) =
              (es.filterMap Rpc.Effect.frame?).map (Line.ofFrame (some (.passed method (.json params)))) := by
            rw [written, List.filterMap_append, (withConnection_eq c' es s).2.2]
            exact congrArg (List.map _) (List.append_nil _)
          refine ⟨rfl, rfl, rfl, _, hreturned _, ?_, ?_⟩
          -- No error: then the whole frame has been written.
          · intro hnone
            have hsends := (Rpc.Connection.notify_notifies (c := c) method (.json params) t.abandoned).sends
            rw [hn, Option.map_eq_none_iff.mp hnone] at hsends
            rw [hwritten]
            generalize es.filterMap Rpc.Effect.frame? = frames at hsends
            cases hsends with
            | whole h =>
                obtain ⟨q, hq, rfl⟩ := h
                cases hq
                rfl
          · intro hup
            simp only [State.isUp, hc, Option.any_some, Bool.and_eq_true, Bool.not_eq_true',
              Option.isNone_iff_eq_none] at hup
            have hfails := notify_of_up hup.2.1 hup.2.2 method params t.abandoned
            rw [hn] at hfails
            obtain ⟨hok, hempty⟩ := hfails
            refine ⟨fun h => Option.map_eq_none_iff.mpr (hok h), ?_⟩
            -- An error of a sound connection comes from before the write.
            intro hr
            have hnothing : es = [] := hempty fun h => hr (Option.map_eq_none_iff.mpr h)
            rw [hwritten, hnothing]
            rfl

end Notify

/-! ### What is said -/

/-- What the client says on purpose. -/
def spoken (lines : List Line) : List Line :=
  lines.filter fun
    | .said .. => true
    | _ => false

@[simp] theorem spoken_nil : spoken [] = [] := rfl

@[simp] theorem spoken_append (lines more : List Line) :
    spoken (lines ++ more) = spoken lines ++ spoken more := List.filter_append ..

@[simp] theorem spoken_written_none (es : List Effect) : spoken (written none es) = [] := by
  refine List.filter_eq_nil_iff.mpr ?_
  intro line hline
  obtain ⟨frame, -, rfl⟩ := List.mem_map.mp hline
  simp [Line.ofFrame]

@[simp] theorem spoken_written_some (purpose : Purpose) (es : List Effect) :
    spoken (written (some purpose) es) = written (some purpose) es := by
  refine List.filter_eq_self.mpr ?_
  intro line hline
  obtain ⟨frame, -, rfl⟩ := List.mem_map.mp hline
  rfl

@[simp] theorem spoken_heard (e : Event) (σ : System) : spoken (e.heard σ) = [] := by
  unfold Event.heard
  split
  · split <;> rfl
  · rfl

/-- Only what is said on purpose has a purpose. -/
theorem purposes_spoken (lines : List Line) : purposes (spoken lines) = purposes lines := by
  unfold purposes spoken
  rw [List.filterMap_filter]
  congr 1
  funext line
  cases line <;> rfl

end Supervisor

namespace Run

open Supervisor

/-! ### Reached systems -/

/-- A supervision that has come about by events. -/
structure Supervision.Reached (v : Supervision) : Prop where
  steps : ∃ path, Steps v.settings {} path v.effects v.system
  conversing : Conversing v.settings v.lines v.system
  returned : ∀ q ∈ v.returns, q.1 < v.system.threads.length

namespace Supervision

variable {v : Supervision}

theorem Reached.invariant (h : v.Reached) : Invariant v.system := by
  obtain ⟨path, hs⟩ := h.steps
  exact hs.invariant invariant_initial

/-- A supervision to which something has happened. -/
theorem happen_of_eq {e : Event} {r : Supervisor.Run}
    (h : (Supervisor.Run.begin v.system).happen? v.settings e = some r) :
    v.happen e =
      { v with
        system := r.system
        effects := v.effects ++ r.effects
        lines := v.lines ++ (e.heard v.system ++ written (e.purpose? v.system) r.effects)
        returns := v.returns ++ e.returned r.effects
        steady := v.steady && (!r.system.state.isReady || r.system.state.isUp) } := by
  simp only [happen, h]

theorem happen_of_none {e : Event} (h : (Supervisor.Run.begin v.system).happen? v.settings e = none) :
    v.happen e = v := by
  simp only [happen, h]

theorem settings_happen (e : Event) (v : Supervision) : (v.happen e).settings = v.settings := by
  unfold happen
  split <;> rfl

/-- Who returns is there, and stays there. -/
theorem lt_of_returned {e : Event} {r : Supervisor.Run}
    (hr : (Supervisor.Run.begin v.system).happen? v.settings e = some r) {q : Nat × Option Error}
    (hq : q ∈ e.returned r.effects) : q.1 < v.system.threads.length := by
  cases e with
  | advance i =>
      obtain ⟨x, -, hx⟩ := List.mem_filterMap.mp hq
      have hqi : q.1 = i := by
        cases x <;> cases hx
        rfl
      rw [hqi]
      by_contra hle
      simp [Supervisor.Run.happen?, Supervisor.Run.begin,
        List.getElem?_eq_none (Nat.le_of_not_lt hle)] at hr
  | _ => cases hq

theorem length_le_of_steps {g : Settings} {σ τ : System} {path : List Lifecycle} {es : List Effect}
    (h : Steps g σ path es τ) : σ.threads.length ≤ τ.threads.length := by
  induction h with
  | refl => exact Nat.le_refl _
  | step _ hstep ih => exact Nat.le_trans ih hstep.length_le

/-- Whatever happens, it is reached by events. -/
theorem Reached.happen (h : v.Reached) (e : Event) : (v.happen e).Reached := by
  cases hr : (Supervisor.Run.begin v.system).happen? v.settings e with
  | none =>
      rw [happen_of_none hr]
      exact h
  | some r =>
      rw [happen_of_eq hr]
      obtain ⟨path, hs⟩ := h.steps
      have hgoes := Supervisor.Run.happen?_steps Steps.refl hr
      refine ⟨hs.trans hgoes, (h.conversing.happen h.invariant hr).1, ?_⟩
      intro q hq
      refine Nat.lt_of_lt_of_le ?_ (length_le_of_steps hgoes)
      exact (List.mem_append.mp hq).elim (h.returned q) (lt_of_returned hr)

theorem steps_happen (e : Event) (v : Supervision) :
    ∃ path es, Steps v.settings v.system path es (v.happen e).system := by
  cases hr : (Supervisor.Run.begin v.system).happen? v.settings e with
  | none =>
      rw [happen_of_none hr]
      exact ⟨_, [], Steps.refl⟩
  | some r =>
      rw [happen_of_eq hr]
      exact ⟨_, _, Supervisor.Run.happen?_steps Steps.refl hr⟩

/-- A call is one of the events. -/
theorem Reached.fork (h : v.Reached) {task : Task} (entry : task.isEntry = true)
    (cancelled hasty : Bool) : (v.fork { task, cancelled, hasty }).Reached := by
  obtain ⟨path, hs⟩ := h.steps
  have hstep := hs.step (.call task cancelled hasty entry)
  rw [List.append_nil] at hstep
  have hcalled : (Supervisor.Run.begin v.system).happen? v.settings (.call task cancelled hasty) =
      some ((Supervisor.Run.begin v.system).extend (v.fork { task, cancelled, hasty }).system []) := by
    simp only [Supervisor.Run.happen?, entry, if_true]
    rfl
  have hsays := (h.conversing.happen h.invariant hcalled).1
  rw [show Event.heard v.system (.call task cancelled hasty) ++ written _ _ = [] from rfl,
    List.append_nil] at hsays
  refine ⟨⟨_, hstep⟩, hsays, ?_⟩
  intro q hq
  have hlt := h.returned q hq
  simp only [Supervision.fork, List.length_append, List.length_singleton]
  omega

/-- A supervisor that has just been made, and is told who observes it. -/
theorem reached_observed (g : Settings) :
    Reached { settings := g, system := { state := { observers := 1 } } } := by
  have hs := (Steps.refl (g := g) (σ := {})).step .observe
  have hsays := ((conversing_initial g).happen (e := .observe) invariant_initial rfl).1
  exact ⟨⟨_, hs⟩, hsays, by simp⟩

end Supervision

/-! ### One call at a time -/

/-- Nobody does anything that others wait for, except thread `i`. -/
structure Alone (i : Nat) (v : Supervision) : Prop where
  reached : v.Reached
  others : ∀ j t, v.system.threads[j]? = some t → j ≠ i → t.task.isAside = true
  up : v.steady = true → v.system.state.isReady = true → v.system.state.isUp = true

/-- What an event in which thread `i` does not move leaves to it. -/
structure Apart (i : Nat) (e : Event) (v v' : Supervision) : Prop where
  thread : ∀ t, v.system.threads[i]? = some t → ∃ t', v'.system.threads[i]? = some t' ∧
    t'.task = t.task ∧ (e ≠ .cancel i → e ≠ .expire i → t' = t)
  length : v'.system.threads.length = v.system.threads.length
  ready : v'.steady = true → v.system.state.isReady = true → v'.system.state.isReady = true
  used : v.system.state.used = true → v'.system.state.used = true
  spoken : spoken v'.lines = spoken v.lines
  returns : v'.returns.lookup i = v.returns.lookup i
  steady : v'.steady = true → v.steady = true

/-- Thread `i` takes a step. -/
structure Moves (i : Nat) (t : Thread) (p : Progress) (v v' : Supervision) : Prop where
  thread : v.system.threads[i]? = some t
  step : step v.settings i t v.system.state = some p
  system : v'.system = v.system.advance i t p
  spoken : spoken v'.lines = spoken v.lines ++ spoken (written t.task.purpose? p.effects)
  returns : v'.returns = v.returns ++ (Event.advance i).returned p.effects
  steady : v'.steady = true → v.steady = true

theorem Moves.after {i : Nat} {t : Thread} {p : Progress} {v v' : Supervision} (h : Moves i t p v v') :
    v'.system.threads[i]? = some { t with task := p.task } := by
  rw [h.system]
  exact System.getElem?_advance_self h.thread p

theorem Moves.state {i : Nat} {t : Thread} {p : Progress} {v v' : Supervision} (h : Moves i t p v v') :
    v'.system.state = p.state := by
  rw [h.system]
  rfl

/-- Who has returned moves no more. -/
theorem Moves.task_ne_done {i : Nat} {t : Thread} {p : Progress} {v v' : Supervision}
    (h : Moves i t p v v') : t.task ≠ .done := by
  intro hdone
  have hstep := h.step
  simp only [Supervisor.step, hdone] at hstep
  cases hstep

/-- A supervisor that was used stays so. -/
theorem Moves.used {i : Nat} {t : Thread} {p : Progress} {v v' : Supervision} (h : Moves i t p v v')
    (hinv : Invariant v.system) (hu : v.system.state.used = true) : v'.system.state.used = true := by
  rw [h.state]
  exact (step_proper hinv.sound (hinv.fits i t h.thread) h.step).turn.used hu

theorem Apart.refl (i : Nat) (e : Event) (v : Supervision) : Apart i e v v :=
  ⟨fun t ht => ⟨t, ht, rfl, fun _ _ => rfl⟩, rfl, fun _ h => h, id, rfl, rfl, id⟩

section Happen

variable {i : Nat} {e : Event} {v : Supervision}

/-- If a thread can take a step, it takes that step when it is its turn. -/
theorem moves_of_advance {t : Thread} {p : Progress} (ht : v.system.threads[i]? = some t)
    (hp : step v.settings i t v.system.state = some p) : Moves i t p v (v.happen (.advance i)) := by
  have hr : (Supervisor.Run.begin v.system).happen? v.settings (.advance i) =
      some ((Supervisor.Run.begin v.system).extend (v.system.advance i t p) p.effects) := by
    simp only [Supervisor.Run.happen?, Supervisor.Run.begin, ht, hp, Option.map_some]
  have hpurpose : (Event.advance i).purpose? v.system = t.task.purpose? := by
    rw [Event.purpose?, ht, Option.bind_some]
  rw [Supervision.happen_of_eq hr]
  refine ⟨ht, hp, rfl, ?_, rfl, fun h => (Bool.and_eq_true _ _ ▸ h).1⟩
  simp [hpurpose, Supervisor.Run.extend, Supervisor.Run.begin]

/-- A change of one thread that leaves it where it stands. -/
theorem getElem?_set_task {ts : List Thread} {j : Nat} {t : Thread} (hj : ts[j]? = some t)
    (t' : Thread) (ht : t'.task = t.task) {u : Thread} (hu : ts[i]? = some u) :
    ∃ u', (ts.set j t')[i]? = some u' ∧ u'.task = u.task ∧ (j ≠ i → u' = u) := by
  by_cases hji : j = i
  · subst hji
    obtain rfl := Option.some.inj (hu.symm.trans hj)
    have hlt := (List.getElem?_eq_some_iff.mp hj).1
    exact ⟨t', List.getElem?_set_self hlt, ht, fun hne => absurd rfl hne⟩
  · exact ⟨u, (List.getElem?_set_ne hji).trans hu, rfl, fun _ => rfl⟩

/-- In an event in which no thread moves, none is moved. -/
theorem apart_of_still {r : Supervisor.Run}
    (hr : (Supervisor.Run.begin v.system).happen? v.settings e = some r)
    (hquiet : Quiet v.system.state r.system.state)
    (hthread : ∀ t, v.system.threads[i]? = some t → ∃ t', r.system.threads[i]? = some t' ∧
      t'.task = t.task ∧ (e ≠ .cancel i → e ≠ .expire i → t' = t))
    (hlen : r.system.threads.length = v.system.threads.length)
    (hpurpose : e.purpose? v.system = none) (hreturned : e.returned r.effects = []) :
    Apart i e v (v.happen e) := by
  rw [Supervision.happen_of_eq hr]
  refine ⟨hthread, hlen, ?_, ?_, ?_, ?_, fun h => (Bool.and_eq_true _ _ ▸ h).1⟩
  · exact fun _ hready => (State.isReady_congr hquiet.control).trans hready
  · exact fun hu => hquiet.used.trans hu
  · simp [hpurpose]
  · rw [hreturned]
    simp

/-- Only the thread that moves returns. -/
theorem lookup_returned {j : Nat} (hne : i ≠ j) (es : List Effect) :
    ((Event.advance j).returned es).lookup i = none := by
  rw [List.lookup_eq_none_iff]
  intro q hq
  obtain ⟨e, -, he⟩ := List.mem_filterMap.mp hq
  cases e <;> cases he
  simpa using hne

/-- What stands aside leaves thread `i` alone. -/
theorem apart_of_moves {j : Nat} {t : Thread} {p : Progress} {v' : Supervision}
    (h : Moves j t p v v') (hinv : Invariant v.system) (haside : t.task.isAside = true) (hne : i ≠ j)
    (hup : v.steady = true → v.system.state.isReady = true → v.system.state.isUp = true) :
    Apart i (.advance j) v v' := by
  obtain ⟨-, hstarted, hpurpose, hready⟩ := aside_of_step haside h.step
  have hturn := (step_proper hinv.sound (hinv.fits j t h.thread) h.step).turn
  refine ⟨?_, ?_, ?_, ?_, ?_, ?_, h.steady⟩
  · intro u hu
    rw [h.system]
    exact ⟨u, System.getElem?_advance_of_ne hu hne t p, rfl, fun _ _ => rfl⟩
  · rw [h.system]
    simp [System.advance, hstarted]
  · rw [h.system]
    exact fun hs hr => hready hr (hup (h.steady hs) hr)
  · rw [h.system]
    exact hturn.used
  · rw [h.spoken, hpurpose]
    simp
  · rw [h.returns, List.lookup_append, lookup_returned hne, Option.or_none]

/-- Who may have moved in an incident. -/
theorem moved_of_admits {w : Circumstances} (hadm : w.admits v e = true) :
    (∀ i, Apart i e v (v.happen e)) ∨
      ∃ j t p, e = .advance j ∧ Moves j t p v (v.happen e) := by
  cases hr : (Supervisor.Run.begin v.system).happen? v.settings e with
  | none =>
      rw [Supervision.happen_of_none hr]
      exact Or.inl fun i => Apart.refl i e v
  | some r =>
      have hhappens := hr
      cases e with
      -- In these circumstances nobody else calls or observes.
      | call task cancelled hasty => cases hadm
      | observe => cases hadm
      | advance j =>
          simp only [Supervisor.Run.happen?] at hr
          split at hr
          · cases hr
          · next t ht =>
              obtain ⟨p, hp, -⟩ := Option.map_eq_some_iff.mp hr
              exact Or.inr ⟨j, t, p, rfl, moves_of_advance ht hp⟩
      | cancel j =>
          simp only [Supervisor.Run.happen?] at hr
          split at hr
          · cases hr
          · next t ht =>
              split at hr <;> cases hr
              refine Or.inl fun i => apart_of_still hhappens (State.release_calm _ _ _).quiet ?_
                List.length_set rfl rfl
              intro u hu
              obtain ⟨u', hu', htask, hsame⟩ :=
                getElem?_set_task ht { t with cancelled := true } rfl hu
              exact ⟨u', hu', htask, fun hne _ => hsame fun he => hne (he ▸ rfl)⟩
      | expire j =>
          simp only [Supervisor.Run.happen?] at hr
          split at hr
          · cases hr
          · next t ht =>
              cases hr
              refine Or.inl fun i => apart_of_still hhappens (State.release_calm _ _ _).quiet ?_
                List.length_set rfl rfl
              intro u hu
              obtain ⟨u', hu', htask, hsame⟩ :=
                getElem?_set_task ht { t with expired := true } rfl hu
              exact ⟨u', hu', htask, fun _ hne => hsame fun he => hne (he ▸ rfl)⟩
      | deed d =>
          cases hr
          exact Or.inl fun i => apart_of_still hhappens (d.act_calm _).quiet
            (fun u hu => ⟨u, hu, rfl, fun _ _ => rfl⟩) rfl rfl rfl

theorem up_happen (e : Event)
    (hup : v.steady = true → v.system.state.isReady = true → v.system.state.isUp = true) :
    (v.happen e).steady = true → (v.happen e).system.state.isReady = true →
      (v.happen e).system.state.isUp = true := by
  cases hr : (Supervisor.Run.begin v.system).happen? v.settings e with
  | none =>
      rw [Supervision.happen_of_none hr]
      exact hup
  | some r =>
      rw [Supervision.happen_of_eq hr]
      simp only [Bool.and_eq_true, Bool.or_eq_true, Bool.not_eq_true']
      rintro ⟨-, hready | hup⟩ h
      · rw [h] at hready
        cases hready
      · exact hup

/-- **In every incident, thread `i` takes a step or is left alone.** -/
theorem Alone.happen (h : Alone i v) {w : Circumstances} (hadm : w.admits v e = true) :
    Alone i (v.happen e) ∧ (Apart i e v (v.happen e) ∨ ∃ t p, Moves i t p v (v.happen e)) := by
  have hinv := h.reached.invariant
  have hup := up_happen e h.up
  have hreached := h.reached.happen e
  rcases moved_of_admits hadm with hapart | ⟨j, t, p, rfl, hmoves⟩
  · refine ⟨⟨hreached, ?_, hup⟩, Or.inl (hapart i)⟩
    intro k u hu hne
    have hlt := (List.getElem?_eq_some_iff.mp hu).1
    rw [(hapart k).length] at hlt
    obtain ⟨u', hu', htask, -⟩ := (hapart k).thread _ (List.getElem?_eq_getElem hlt)
    obtain rfl := Option.some.inj (hu.symm.trans hu')
    rw [htask]
    exact h.others k _ (List.getElem?_eq_getElem hlt) hne
  · have hothers : ∀ k u, (v.happen (.advance j)).system.threads[k]? = some u → k ≠ i →
        u.task.isAside = true := by
      intro k u hu hne
      rw [hmoves.system] at hu
      -- The thread that moves, another one, or one it has started.
      rcases getElem?_set_append hu with ⟨rfl, rfl⟩ | ⟨-, hk⟩ | ⟨-, hnew⟩
      · exact (aside_of_step (h.others k t hmoves.thread hne) hmoves.step).1
      · exact h.others k u hk hne
      · obtain ⟨task, htask, rfl⟩ := List.mem_map.mp hnew
        rw [(step_proper hinv.sound (hinv.fits j t hmoves.thread) hmoves.step).started task htask]
        rfl
    refine ⟨⟨hreached, hothers, hup⟩, ?_⟩
    by_cases hij : i = j
    · subst hij
      exact Or.inr ⟨t, p, hmoves⟩
    · exact Or.inl (apart_of_moves hmoves hinv (h.others j t hmoves.thread (Ne.symm hij)) hij h.up)

end Happen

end Run

end LanguageClient
