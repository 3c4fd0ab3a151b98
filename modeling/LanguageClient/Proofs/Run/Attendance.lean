import LanguageClient.Proofs.Run.Calls
import LanguageClient.Proofs.Supervisor.Startup

/-! # A server between the calls of a run.

A run makes one call at a time, so that between two calls no thread of the supervisor
moves but those that watch (`Idle`). `Tended` says what is known then of a server that
was started and not yet stopped, and of what was sent to it. Each kind of call has an
invariant of its own while it goes on:

* `Starting`  — nothing is passed to the server yet;
* `Notifying` — the notification is written once, as a whole, if it is sent without
  an error, and over a connection that is up an error means that nothing was written;
* `Stopping`  — nothing is passed to the server any more, and when the call has
  returned the server is stopped. -/

namespace LanguageClient.Run

open Supervisor

/-! ### Nobody moves but who watches -/

/-- All threads of the supervisor have returned, or watch. -/
structure Idle (v : Supervision) : Prop where
  reached : v.Reached
  aside : ∀ (j : Nat) (t : Thread), v.system.threads[j]? = some t → t.task.isAside = true
  up : v.steady = true → v.system.state.isReady = true → v.system.state.isUp = true

theorem Idle.alone {v : Supervision} (h : Idle v) (i : Nat) : Alone i v :=
  ⟨h.reached, fun j t hj _ => h.aside j t hj, h.up⟩

/-- All threads are idle once the one at work is aside. -/
theorem Alone.idle {i : Nat} {v : Supervision} (h : Alone i v)
    (hi : ∀ t, v.system.threads[i]? = some t → t.task.isAside = true) : Idle v where
  reached := h.reached
  aside := by
    intro j t hj
    by_cases hji : j = i
    · exact hi t (hji ▸ hj)
    · exact h.others j t hj hji
  up := h.up

theorem Alone.idle_of_done {i : Nat} {v : Supervision} {t : Thread} (h : Alone i v)
    (ht : v.system.threads[i]? = some t) (hdone : t.task = .done) : Idle v := by
  refine h.idle ?_
  intro u hu
  obtain rfl := Option.some.inj (hu.symm.trans ht)
  rw [hdone]
  rfl

/-- An idle supervision stays idle, and nobody is moved who is not there. -/
theorem Idle.happen {v : Supervision} {e : Event} {w : Circumstances} (h : Idle v)
    (hadm : w.admits v e = true) :
    Idle (v.happen e) ∧ Apart v.system.threads.length e v (v.happen e) := by
  have hnone : v.system.threads[v.system.threads.length]? = none := List.getElem?_eq_none (Nat.le_refl _)
  obtain ⟨halone, hapart | ⟨t, p, hmoves⟩⟩ := (h.alone v.system.threads.length).happen hadm
  · refine ⟨halone.idle ?_, hapart⟩
    intro t ht
    have hlt := (List.getElem?_eq_some_iff.mp ht).1
    rw [hapart.length] at hlt
    omega
  · have ht := hmoves.thread
    rw [hnone] at ht
    cases ht

/-- A call begins. -/
theorem Idle.fork {v : Supervision} (h : Idle v) (task : Task) (entry : task.isEntry = true)
    (cancelled hasty : Bool) :
    Alone v.system.threads.length (v.fork { task, cancelled, hasty }) ∧
      (v.fork { task, cancelled, hasty }).system.threads[v.system.threads.length]? =
        some { task, cancelled, hasty } := by
  refine ⟨⟨h.reached.fork entry cancelled hasty, ?_, h.up⟩, List.getElem?_concat_length⟩
  intro j t hj hne
  have hlt := (List.getElem?_eq_some_iff.mp hj).1
  simp only [Supervision.fork, List.length_append, List.length_singleton] at hlt hj
  rw [List.getElem?_append_left (by omega)] at hj
  exact h.aside j t hj

theorem idle_observed (g : Settings) :
    Idle { settings := g, system := { state := { observers := 1 } } } :=
  ⟨Supervision.reached_observed g, by simp, by simp [State.isReady]⟩

/-- A thread that has returned is done. -/
theorem done_of_result? {i : Nat} {v : Supervision} {t : Thread} {r : Option Error}
    (ht : v.system.threads[i]? = some t) (hr : v.result? i = some r) :
    t.task = .done ∧ r = (v.returns.lookup i).join := by
  simp only [Supervision.result?, ht] at hr
  split at hr
  · next hd =>
      cases hr
      rw [Option.some.inj hd]
      exact ⟨rfl, rfl⟩
  · cases hr

/-- When the one call that goes on has returned, nobody moves any more. -/
theorem Alone.idle_of_result? {i : Nat} {v : Supervision} {t : Thread} {r : Option Error} (h : Alone i v)
    (ht : v.system.threads[i]? = some t) (hr : v.result? i = some r) : Idle v :=
  h.idle_of_done ht (done_of_result? ht hr).1

/-! ### What was accepted -/

def Sent.line (s : Sent) : Line := passedLine s.method s.params

/-- What was sent without an error. -/
def accepted (sent : List Sent) : List Line := (sent.filter (·.failure.isNone)).map Sent.line

@[simp] theorem accepted_nil : accepted [] = [] := rfl

@[simp] theorem accepted_append (sent more : List Sent) :
    accepted (sent ++ more) = accepted sent ++ accepted more := by
  simp [accepted]

theorem accepted_singleton (s : Sent) : accepted [s] = if s.failure.isNone then [s.line] else [] := by
  cases h : s.failure.isNone <;> simp [accepted, h]

/-- Whether a line passes on what the run has sent. -/
def isPassed : Line → Bool
  | .said purpose _ => purpose.isPassed
  | _ => false

/-- Nothing that is sent by a call that no interruption cuts short is refused, once
something was accepted. -/
def Faithful (sent : List Sent) : Prop :=
  ∀ before s after, sent = before ++ s :: after → s.shielded = true → accepted before ≠ [] →
    s.failure = none

theorem faithful_nil : Faithful [] := by
  intro before s after h
  simp at h

theorem Faithful.concat {sent : List Sent} {s : Sent} (h : Faithful sent)
    (hs : s.shielded = true → accepted sent ≠ [] → s.failure = none) : Faithful (sent ++ [s]) := by
  intro before t after hsplit hshielded hbefore
  rcases Rpc.concat_eq_append_cons hsplit with ⟨rfl, rfl⟩ | ⟨after', rfl⟩
  · exact hs hshielded hbefore
  · exact h before t after' rfl hshielded hbefore

/-! ### Between two calls -/

/-- What is known of a server that was started, and of what was sent to it, as long
as nobody has begun to stop it. -/
structure Tended (sent : List Sent) (v : Supervision) : Prop where
  idle : Idle v
  used : v.system.state.used = true
  delivered : (accepted sent).Sublist (spoken v.lines)
  said : v.steady = true → ∃ before, (∀ l ∈ before, isPassed l = false) ∧
    spoken v.lines = before ++ accepted sent
  ready : v.steady = true → accepted sent ≠ [] → v.system.state.isReady = true
  faithful : v.steady = true → Faithful sent

theorem Tended.happen {sent : List Sent} {v : Supervision} {e : Event} {w : Circumstances}
    (h : Tended sent v) (hadm : w.admits v e = true) : Tended sent (v.happen e) := by
  obtain ⟨hidle, hapart⟩ := h.idle.happen hadm
  refine ⟨hidle, hapart.used h.used, hapart.spoken ▸ h.delivered, ?_, ?_, ?_⟩
  · intro hs
    rw [hapart.spoken]
    exact h.said (hapart.steady hs)
  · exact fun hs ha => hapart.ready hs (h.ready (hapart.steady hs) ha)
  · exact fun hs => h.faithful (hapart.steady hs)

/-! ### Starting -/

/-- What holds of thread `i` while it starts the server. -/
structure Starting (i : Nat) (v : Supervision) : Prop where
  thread : ∃ t, v.system.threads[i]? = some t ∧
    ((∃ mode, t.task = .start mode .enter) ∨
      v.system.state.used = true ∧ ((∃ mode q, t.task = .start mode q) ∨ t.task = .done))
  unpassed : ∀ l ∈ spoken v.lines, isPassed l = false

theorem isPassed_of_mem_written {purpose : Purpose} {es : List Effect} {l : Line}
    (h : l ∈ written (some purpose) es) : isPassed l = purpose.isPassed := by
  obtain ⟨frame, -, rfl⟩ := List.mem_map.mp h
  rfl

/-- Who starts or stops the server passes nothing on. -/
theorem unpassed_of_task {t : Task} (h : (∃ mode q, t = .start mode q) ∨ ∃ q, t = .stop q)
    {es : List Effect} {l : Line} (hl : l ∈ spoken (written t.purpose? es)) : isPassed l = false := by
  cases hp : t.purpose? with
  | none =>
      rw [hp, spoken_written_none] at hl
      cases hl
  | some purpose =>
      rw [hp, spoken_written_some] at hl
      rw [isPassed_of_mem_written hl]
      have hshutdown {q : ShutdownPoint} (hq : q.purpose? = some purpose) : purpose.isPassed = false := by
        cases q <;> cases hq <;> rfl
      rcases h with ⟨mode, q, rfl⟩ | ⟨q, rfl⟩
      · cases q with
        | shutdown q => exact hshutdown hp
        | greet | acknowledge _ => cases hp; rfl
        | _ => cases hp
      · cases q with
        | shutdown q => exact hshutdown hp
        | _ => cases hp

/-- The first step of starting uses the supervisor up. -/
theorem used_of_enter {g : Settings} {i : Nat} {t : Thread} {s : State} {p : Progress}
    {mode : LaunchMode} (h : startStep g i t mode s .enter = some p) : p.state.used = true := by
  simp only [startStep] at h
  split at h <;> cases h
  · next hu => exact hu
  · simp only [State.transition]
    split <;> rfl

/-- What holds of a start under way holds after each event. -/
theorem Starting.happen {i : Nat} {v : Supervision} {e : Event} {w : Circumstances}
    (h : Starting i v) (ha : Alone i v) (hadm : w.admits v e = true) : Starting i (v.happen e) := by
  obtain ⟨t, ht, hstands⟩ := h.thread
  -- The event is somebody else's, or the starting thread goes on.
  rcases (ha.happen hadm).2 with hapart | ⟨u, p, hmoves⟩
  · obtain ⟨t', ht', htask, -⟩ := hapart.thread t ht
    refine ⟨⟨t', ht', ?_⟩, by rw [hapart.spoken]; exact h.unpassed⟩
    rw [htask]
    exact hstands.imp_right fun hs => ⟨hapart.used hs.1, hs.2⟩
  · obtain rfl := Option.some.inj (ht.symm.trans hmoves.thread)
    have hstart : ∃ mode q, t.task = .start mode q := by
      rcases hstands with ⟨mode, hm⟩ | ⟨-, hm | hdone⟩
      · exact ⟨mode, _, hm⟩
      · exact hm
      · exact absurd hdone hmoves.task_ne_done
    refine ⟨⟨_, hmoves.after, Or.inr ⟨?_, ?_⟩⟩, ?_⟩
    · rcases hstands with ⟨mode, hm⟩ | ⟨hu, -⟩
      · have hstep := hmoves.step
        simp only [step, hm] at hstep
        rw [hmoves.state]
        exact used_of_enter hstep
      · exact hmoves.used ha.reached.invariant hu
    · obtain ⟨mode, q, hm⟩ := hstart
      rcases left_of_step hm hmoves.step with hdone | ⟨q', hgoes, -⟩
      · exact Or.inr hdone
      · exact Or.inl ⟨mode, q', hgoes⟩
    · intro l hl
      rw [hmoves.spoken] at hl
      rcases List.mem_append.mp hl with hl | hl
      · exact h.unpassed l hl
      · exact unpassed_of_task (Or.inl hstart) hl

/-- When the call that starts the server has returned, the server is tended. -/
theorem Starting.tended {i : Nat} {v : Supervision} {r : Option Error} (h : Starting i v)
    (ha : Alone i v) (hr : v.result? i = some r) : Tended [] v := by
  obtain ⟨t, ht, hstands⟩ := h.thread
  have hdone := (done_of_result? ht hr).1
  have hused : v.system.state.used = true := by
    rcases hstands with ⟨mode, hm⟩ | ⟨hu, -⟩
    · rw [hdone] at hm
      cases hm
    · exact hu
  exact ⟨ha.idle_of_done ht hdone, hused, List.nil_sublist _,
    fun _ => ⟨spoken v.lines, h.unpassed, by simp⟩, by simp, fun _ => faithful_nil⟩

/-! ### Sending -/

section Sending

variable {i : Nat} {method : String} {params : Bytes} {said : List Line} {ready firm : Bool}
  {v v' : Supervision} {t : Thread} {r : Option Error}

/-- A notification is still to be sent. Before that, `said` was said, and a `firm` caller
does not give up. -/
structure Pending (i : Nat) (method : String) (params : Bytes) (said : List Line) (firm : Bool)
    (v : Supervision) (t : Thread) : Prop where
  point : t.task = .notify method (.json params) .check ∨
    t.task = .notify method (.json params) .send ∧ (v.steady = true → v.system.state.isReady = true)
  waits : firm = true → t.abandoned = none
  returns : v.returns.lookup i = none
  heard : spoken v.lines = said

/-- A notification has returned. If the server was `ready`, a `firm` caller was not refused. -/
structure Passed (i : Nat) (method : String) (params : Bytes) (said : List Line) (ready firm : Bool)
    (v : Supervision) (t : Thread) (r : Option Error) : Prop where
  task : t.task = .done
  returns : v.returns.lookup i = some r
  whole : r = none → spoken v.lines = said ++ [passedLine method params]
  kept : said.Sublist (spoken v.lines)
  heard : v.steady = true →
    spoken v.lines = said ++ if r.isNone then [passedLine method params] else []
  stays : v.steady = true → r = none → v.system.state.isReady = true
  faithful : v.steady = true → ready = true → firm = true → r = none

/-- What holds of thread `i` while it sends a notification. -/
structure Notifying (i : Nat) (method : String) (params : Bytes) (said : List Line)
    (ready firm : Bool) (v : Supervision) : Prop where
  thread : ∃ t, v.system.threads[i]? = some t ∧
    (Pending i method params said firm v t ∨ ∃ r, Passed i method params said ready firm v t r)
  used : v.system.state.used = true
  ready : v.steady = true → ready = true → v.system.state.isReady = true

/-- A caller that is left alone goes on waiting. -/
theorem Pending.apart (h : Pending i method params said firm v t) {e : Event} (ha : Apart i e v v')
    {t' : Thread} (htask : t'.task = t.task) (hwaits : firm = true → t' = t) :
    Pending i method params said firm v' t' where
  point := by
    rw [htask]
    exact h.point.imp_right fun hp => ⟨hp.1, fun hs => ha.ready hs (hp.2 (ha.steady hs))⟩
  waits := by
    intro hf
    rw [hwaits hf]
    exact h.waits hf
  returns := ha.returns.trans h.returns
  heard := ha.spoken.trans h.heard

theorem Passed.apart (h : Passed i method params said ready firm v t r) {e : Event}
    (ha : Apart i e v v') {t' : Thread} (htask : t'.task = t.task) :
    Passed i method params said ready firm v' t' r where
  task := htask.trans h.task
  returns := ha.returns.trans h.returns
  whole := by rw [ha.spoken]; exact h.whole
  kept := by rw [ha.spoken]; exact h.kept
  heard := by rw [ha.spoken]; exact fun hs => h.heard (ha.steady hs)
  stays := fun hs hr => ha.ready hs (h.stays (ha.steady hs) hr)
  faithful := fun hs => h.faithful (ha.steady hs)

/-- What was looked up before is still what is found, and what is new is found else. -/
theorem lookup_returns (hnone : v.returns.lookup i = none) {es : List (Nat × Option Error)}
    (hv : v'.returns = v.returns ++ es) : v'.returns.lookup i = es.lookup i := by
  rw [hv, List.lookup_append, hnone, Option.none_or]

/-- The caller looks whether the server is ready. -/
theorem Pending.check (h : Pending i method params said firm v t) {p : Progress}
    (hcheck : t.task = .notify method (.json params) .check) (hmoves : Moves i t p v v')
    (hready : v.steady = true → ready = true → v.system.state.isReady = true) :
    v'.system.state = v.system.state ∧
      (Pending i method params said firm v' { t with task := p.task } ∨
        ∃ r, Passed i method params said ready firm v' { t with task := p.task } r) := by
  obtain ⟨-, hstate, hcases⟩ := check_step hcheck hmoves.step
  have hsame : v'.system.state = v.system.state := hmoves.state.trans hstate
  have hspoken : spoken v'.lines = said := by
    rw [hmoves.spoken, h.heard, hcheck]
    simp [Task.purpose?]
  have hreturns := lookup_returns h.returns hmoves.returns
  refine ⟨hsame, ?_⟩
  -- Past the check the notification is about to be sent; otherwise it has failed.
  rcases hcases with ⟨hr, htask, heffects⟩ | ⟨hr, htask, error, heffects⟩
  · rw [heffects] at hreturns
    exact Or.inl ⟨Or.inr ⟨htask, fun _ => hsame ▸ hr⟩, h.waits, hreturns, hspoken⟩
  · rw [heffects] at hreturns
    have hreturned : v'.returns.lookup i = some (some error) := hreturns.trans (by simp [Event.returned])
    refine Or.inr ⟨some error, htask, hreturned, by simp, ?_, ?_, by simp, ?_⟩
    · rw [hspoken]
    · simp [hspoken]
    · intro hs hready'
      rw [hready (hmoves.steady hs) hready'] at hr
      cases hr

/-- The caller writes the notification, or fails to. -/
theorem Pending.send (h : Pending i method params said firm v t) {p : Progress}
    (hsend : t.task = .notify method (.json params) .send) (hmoves : Moves i t p v v')
    (hup : v.steady = true → v.system.state.isReady = true → v.system.state.isUp = true) :
    v'.system.state.isReady = v.system.state.isReady ∧
      ∃ r, Passed i method params said ready firm v' { t with task := p.task } r := by
  -- It would not have come here if the server had not been ready.
  have hthrough : v'.steady = true → v.system.state.isReady = true := by
    intro hs
    rcases h.point with hcheck | ⟨-, hready⟩
    · rw [hsend] at hcheck
      cases hcheck
    · exact hready (hmoves.steady hs)
  obtain ⟨-, hcontrol, htask, r, hreturned, hwhole, hsends⟩ := send_step hsend hmoves.step
  have hsame : v'.system.state.isReady = v.system.state.isReady := by
    rw [hmoves.state]
    exact State.isReady_congr hcontrol
  have hisUp (hs : v'.steady = true) := hsends (hup (hmoves.steady hs) (hthrough hs))
  have hspoken := hmoves.spoken
  rw [hsend] at hspoken hwhole hisUp
  simp only [Task.purpose?, spoken_written_some] at hspoken hwhole hisUp
  rw [h.heard] at hspoken
  refine ⟨hsame, r, htask, ?_, ?_, ?_, ?_, ?_, ?_⟩
  · rw [lookup_returns h.returns hmoves.returns, hreturned]
    simp
  · exact fun hr => by rw [hspoken, hwhole hr]
  · rw [hspoken]
    exact List.sublist_append_left _ _
  · intro hs
    rw [hspoken]
    cases r with
    | none => rw [hwhole rfl]; rfl
    | some error => rw [(hisUp hs).2 (by simp)]; rfl
  · exact fun hs _ => hsame.trans (hthrough hs)
  · exact fun hs _ hf => (hisUp hs).1 (h.waits hf)

/-- What holds of a notification under way holds after each event. -/
theorem Notifying.happen {e : Event} {w : Circumstances}
    (h : Notifying i method params said ready firm v) (ha : Alone i v) (hadm : w.admits v e = true)
    (hfirm : firm = true → (w.interrupted && !w.shielded) = false) :
    Notifying i method params said ready firm (v.happen e) := by
  obtain ⟨t, ht, hstands⟩ := h.thread
  rcases (ha.happen hadm).2 with hapart | ⟨u, p, hmoves⟩
  · obtain ⟨t', ht', htask, hsame⟩ := hapart.thread t ht
    refine ⟨⟨t', ht', ?_⟩, hapart.used h.used, fun hs hr => hapart.ready hs (h.ready (hapart.steady hs) hr)⟩
    refine hstands.imp (fun hp => hp.apart hapart htask ?_) fun ⟨r, hp⟩ => ⟨r, hp.apart hapart htask⟩
    -- nobody but the run gives up a call, and a notification has no time limit
    intro hf
    refine hsame ?_ ?_
    · rintro rfl
      exact Bool.false_ne_true ((hfirm hf).symm.trans hadm)
    · rintro rfl
      rw [Circumstances.admits, ht] at hadm
      rcases hp.point with hp | ⟨hp, -⟩ <;> simp [hp, Task.isNotification] at hadm
  · obtain rfl := Option.some.inj (ht.symm.trans hmoves.thread)
    have hused := hmoves.used ha.reached.invariant h.used
    have hready : (v.happen e).steady = true → ready = true → v.system.state.isReady = true :=
      fun hs => h.ready (hmoves.steady hs)
    rcases hstands with hp | ⟨r, hp⟩
    · rcases hp.point with hcheck | ⟨hsend, -⟩
      · obtain ⟨hsame, hnext⟩ := hp.check hcheck hmoves h.ready
        exact ⟨⟨_, hmoves.after, hnext⟩, hused, fun hs hr => hsame ▸ hready hs hr⟩
      · obtain ⟨hsame, hnext⟩ := hp.send hsend hmoves ha.up
        exact ⟨⟨_, hmoves.after, Or.inr hnext⟩, hused, fun hs hr => hsame.trans (hready hs hr)⟩
    · exact absurd hp.task hmoves.task_ne_done

/-- A notification begins. -/
theorem Tended.notifying {sent : List Sent} (h : Tended sent v) (method : String) (params : Bytes)
    {cancelled : Bool} (hfirm : firm = true → cancelled = false) :
    Notifying v.system.threads.length method params (spoken v.lines) (!(accepted sent).isEmpty) firm
      (v.fork { task := .notify method (.json params) .check, cancelled }) := by
  refine ⟨⟨_, (h.idle.fork _ rfl cancelled false).2, Or.inl ⟨Or.inl rfl, ?_, ?_, rfl⟩⟩, h.used, ?_⟩
  · intro hf
    simp [Thread.abandoned, hfirm hf]
  · rw [Supervision.fork, List.lookup_eq_none_iff]
    intro q hq
    have hlt := h.idle.reached.returned q hq
    simp only [bne_iff_ne, ne_eq]
    omega
  · intro hs hready
    apply h.ready hs
    simpa using hready

/-- When a notification has returned, the server is tended as before. -/
theorem Notifying.tended {sent : List Sent} {v₀ : Supervision} (h₀ : Tended sent v₀)
    (h : Notifying i method params (spoken v₀.lines) (!(accepted sent).isEmpty) firm v) (ha : Alone i v)
    (hr : v.result? i = some r) (hsteady : v.steady = true → v₀.steady = true) :
    Tended (sent ++ [⟨method, params, firm, r⟩]) v := by
  obtain ⟨t, ht, hstands⟩ := h.thread
  obtain ⟨hdone, hresult⟩ := done_of_result? ht hr
  rcases hstands with hp | ⟨r', hp⟩
  -- A call that has returned is no longer on its way.
  · rcases hp.point with hcheck | ⟨hsend, -⟩
    · rw [hdone] at hcheck
      cases hcheck
    · rw [hdone] at hsend
      cases hsend
  · obtain rfl : r = r' := by rw [hresult, hp.returns]; rfl
    refine ⟨ha.idle_of_done ht hdone, h.used, ?_, ?_, ?_, ?_⟩
    · rw [accepted_append, accepted_singleton]
      -- Accepted notifications are on the wire, all others may be.
      cases r with
      | none => exact (hp.whole rfl) ▸ h₀.delivered.append (List.Sublist.refl _)
      | some error => exact (List.append_nil _).symm ▸ h₀.delivered.trans hp.kept
    · intro hs
      obtain ⟨before, hbefore, hspoken⟩ := h₀.said (hsteady hs)
      refine ⟨before, hbefore, ?_⟩
      rw [hp.heard hs, hspoken, accepted_append, accepted_singleton, List.append_assoc]
      rfl
    · intro hs hne
      rw [accepted_append, accepted_singleton] at hne
      cases r with
      | none => exact hp.stays hs rfl
      | some error =>
          simp only [Option.isNone_some, Bool.false_eq_true, if_false, List.append_nil] at hne
          exact h.ready hs (by simpa using hne)
    · intro hs
      refine (h₀.faithful (hsteady hs)).concat fun hshielded hne => ?_
      exact hp.faithful hs (by simpa using hne) hshielded

end Sending

/-! ### Stopping -/

/-- What holds of thread `i` while it stops the server. Before that, `said` was said. -/
structure Stopping (i : Nat) (said : List Line) (v₀ v : Supervision) : Prop where
  thread : ∃ t, v.system.threads[i]? = some t ∧ ((∃ q, t.task = .stop q) ∨ t.task = .done)
  unpassed : ∃ after, spoken v.lines = said ++ after ∧ ∀ l ∈ after, isPassed l = false
  goes : ∃ path es, Steps v.settings v₀.system path es v.system

/-- What holds of a stop under way holds after each event. -/
theorem Stopping.happen {i : Nat} {said : List Line} {v₀ v : Supervision} {e : Event}
    {w : Circumstances} (h : Stopping i said v₀ v) (ha : Alone i v) (hadm : w.admits v e = true) :
    Stopping i said v₀ (v.happen e) := by
  obtain ⟨t, ht, hstands⟩ := h.thread
  obtain ⟨after, hsaid, hafter⟩ := h.unpassed
  have hgoes : ∃ path es, Steps (v.happen e).settings v₀.system path es (v.happen e).system := by
    obtain ⟨path, es, hs⟩ := h.goes
    obtain ⟨path', es', hs'⟩ := Supervision.steps_happen e v
    obtain ⟨path'', hs''⟩ := hs.trans hs'
    rw [Supervision.settings_happen]
    exact ⟨path'', _, hs''⟩
  rcases (ha.happen hadm).2 with hapart | ⟨u, p, hmoves⟩
  · obtain ⟨t', ht', htask, -⟩ := hapart.thread t ht
    refine ⟨⟨t', ht', by rwa [htask]⟩, ⟨after, ?_, hafter⟩, hgoes⟩
    rw [hapart.spoken, hsaid]
  · obtain rfl := Option.some.inj (ht.symm.trans hmoves.thread)
    rcases hstands with ⟨q, hq⟩ | hdone
    · have hfits := ha.reached.invariant.fits i t ht
      rw [hq] at hfits
      have hstays : (∃ q', p.task = .stop q') ∨ p.task = .done := by
        -- It goes on, or lets go of the lock, or returns.
        rcases stop_cases hmoves.step hq hfits with ⟨q', -, hgoes⟩ | ⟨hrelease, -⟩ | ⟨-, hreturned⟩
        · exact Or.inl ⟨q', hgoes⟩
        · exact Or.inl ⟨_, hrelease⟩
        · exact Or.inr hreturned
      have hspoken := hmoves.spoken
      rw [hsaid, List.append_assoc] at hspoken
      refine ⟨⟨_, hmoves.after, hstays⟩, ⟨_, hspoken, ?_⟩, hgoes⟩
      intro l hl
      rcases List.mem_append.mp hl with hl | hl
      · exact hafter l hl
      · exact unpassed_of_task (Or.inr ⟨q, hq⟩) hl
    · exact absurd hdone hmoves.task_ne_done

/-- When the call that stops the server has returned, the server is stopped. -/
theorem Stopping.stopped {i : Nat} {said : List Line} {v₀ v : Supervision} {r : Option Error}
    (h : Stopping i said v₀ v) (hinv : Invariant v₀.system) (hr : v.result? i = some r)
    (hi : ∃ cancelled hasty, v₀.system.threads[i]? = some { task := .stop .acquire, cancelled, hasty })
    (hused : v₀.system.state.used = true) :
    v.system.state.lifecycle = .stopped ∧ v.system.state.running? ≠ some true := by
  obtain ⟨path, es, hs⟩ := h.goes
  obtain ⟨cancelled, hasty, hi⟩ := hi
  obtain ⟨t, ht, -⟩ := h.thread
  have hdue := (hs.due hinv (List.getElem?_eq_some_iff.mp hi).1 ?_).2 t ht
  · rw [(done_of_result? ht hr).1] at hdue
    exact ⟨hdue.2, (hs.invariant hinv).sound.reaped (Or.inl hdue.2)⟩
  · intro u hu
    obtain rfl := Option.some.inj (hu.symm.trans hi)
    exact hused

end LanguageClient.Run
