import Mathlib.Data.List.Perm.Subperm
import LanguageClient.Proofs.Supervisor.Startup
import LanguageClient.Proofs.Supervisor.WireOrder

/-! # Messages in flight when the server is shut down.

A notification is checked under the lock and sent outside it. Whoever shuts the server
down says so under the lock (`State.stopping`) before the request is written. From then
on no check succeeds, but a message whose check came before is in flight
(`System.inFlight`), and nothing keeps it from being written behind the request.

Nothing takes flight any more once the server is stopping: what an event writes for the
callers of notifications and what is in flight behind it were in flight before
(`inFlight_happen`). What follows for the rest of a run is `notifications_in_flight`. -/

namespace LanguageClient.Supervisor

open scoped List

/-! ### Messages in flight -/

/-- The messages that were written for callers of notifications. -/
def passed (lines : List Line) : List Purpose := (purposes lines).filter Purpose.isPassed

/-- The message of a notification that is past its check and not yet written. -/
def Task.pending? : Task → Option Purpose
  | .notify method params .send => some (.passed method params)
  | _ => none

/-- The message that a thread is about to write for its caller. -/
def Thread.pending? (t : Thread) : Option Purpose := t.task.pending?

/-- The messages of the notifications that are past their check and not yet written. -/
def System.inFlight (σ : System) : List Purpose := σ.threads.filterMap Thread.pending?

@[simp] theorem passed_append (lines more : List Line) :
    passed (lines ++ more) = passed lines ++ passed more := by
  rw [passed, purposes_append, List.filter_append]
  rfl

theorem passed_of_purposes {lines : List Line} (h : purposes lines = []) : passed lines = [] := by
  rw [passed, h, List.filter_nil]

theorem Task.isEntry_pending? {t : Task} (h : t.isEntry = true) : t.pending? = none := by
  rcases Task.isEntry_cases h with ⟨mode, rfl⟩ | rfl | ⟨method, params, rfl⟩ <;> rfl

/-- Only a notification past its check writes what its caller asked for. -/
theorem Task.isPassed_purpose {t : Task} {q : Purpose} (h : t.purpose? = some q)
    (hq : q.isPassed = true) : t.pending? = some q := by
  have hshutdown {p : ShutdownPoint} (hp : p.purpose? = some q) : False := by
    cases p <;> cases hp <;> cases hq
  unfold Task.purpose? at h
  split at h
  · cases h
    cases hq
  · cases h
    cases hq
  · exact (hshutdown h).elim
  · exact (hshutdown h).elim
  · exact h
  · cases h

/-- Only a notification that is past its check is pending. -/
theorem Task.notify_of_pending? {t : Task} {q : Purpose} (h : t.pending? = some q) :
    ∃ method params, t = .notify method params .send ∧ q = .passed method params := by
  unfold Task.pending? at h
  split at h
  · next method params =>
      cases h
      exact ⟨method, params, rfl, rfl⟩
  · cases h

/-- A thread that stands elsewhere, without a message, takes its message out of flight. -/
theorem inFlight_set {threads : List Thread} {i : Nat} {t t' : Thread} (hi : threads[i]? = some t)
    (h : t'.pending? = none) :
    (t.pending?.toList ++ (threads.set i t').filterMap Thread.pending?).Perm
      (threads.filterMap Thread.pending?) := by
  obtain ⟨hlt, rfl⟩ := List.getElem?_eq_some_iff.mp hi
  have hset : (threads.set i t').filterMap Thread.pending? =
      (threads.take i).filterMap Thread.pending? ++
        (threads.drop (i + 1)).filterMap Thread.pending? := by
    rw [List.set_eq_take_append_cons_drop, if_pos hlt, List.filterMap_append,
      List.filterMap_cons_none h]
  have hall : threads.filterMap Thread.pending? =
      (threads.take i).filterMap Thread.pending? ++ (threads[i].pending?.toList ++
        (threads.drop (i + 1)).filterMap Thread.pending?) := by
    conv_lhs => rw [← List.take_append_drop i threads, List.drop_eq_getElem_cons hlt]
    rw [List.filterMap_append, List.filterMap_cons]
    cases threads[i].pending? <;> rfl
  rw [hset, hall]
  exact List.perm_append_comm_assoc _ _ _

/-- A thread that is told something keeps its message. -/
theorem inFlight_told {threads : List Thread} {i : Nat} {t t' : Thread} (hi : threads[i]? = some t)
    (h : t'.pending? = t.pending?) :
    (threads.set i t').filterMap Thread.pending? = threads.filterMap Thread.pending? := by
  obtain ⟨hlt, rfl⟩ := List.getElem?_eq_some_iff.mp hi
  conv_rhs => rw [← List.take_append_drop i threads, List.drop_eq_getElem_cons hlt]
  rw [List.set_eq_take_append_cons_drop, if_pos hlt, List.filterMap_append, List.filterMap_append,
    List.filterMap_cons, List.filterMap_cons, h]

/-! ### What happens in an event -/

section Events

variable {g : Settings} {σ : System} {e : Event} {r : Run}

/-- An event in which nobody goes on: nothing is written on purpose, and all messages stay
in flight. -/
structure Event.Idle (e : Event) (σ : System) (r : Run) : Prop where
  silent : purposes (e.heard σ ++ written (e.purpose? σ) r.effects) = []
  inFlight : r.system.inFlight = σ.inFlight
  quiet : Quiet σ.state r.system.state
  same : SameTasks σ r.system

/-- **In an event nobody goes on, or a thread takes a step.** -/
theorem Event.idle_or_advances (h : (Run.begin σ).happen? g e = some r) :
    e.Idle σ r ∨
      ∃ i t p, σ.threads[i]? = some t ∧ step g i t σ.state = some p ∧ r.system = σ.advance i t p ∧
        e.heard σ ++ written (e.purpose? σ) r.effects = written t.task.purpose? p.effects := by
  -- Only an advance moves a thread: everything else is idle.
  cases e with
  | call task cancelled hasty =>
      simp only [Run.happen?] at h
      split at h <;> cases h
      next entry =>
        have hnone : Thread.pending? { task, cancelled, hasty } = none := Task.isEntry_pending? entry
        refine Or.inl ⟨purposes_written_none _, ?_, Quiet.refl _, sameTasks_of_call rfl entry⟩
        exact List.filterMap_append.trans (by rw [List.filterMap_cons_none hnone]; exact List.append_nil _)
  | observe =>
      cases h
      exact Or.inl ⟨purposes_written_none _, rfl, ⟨rfl, Or.inl rfl⟩, sameTasks_of_eq rfl⟩
  | advance i =>
      simp only [Run.happen?] at h
      split at h
      · cases h
      · next t hi =>
          obtain ⟨p, hp, rfl⟩ := Option.map_eq_some_iff.mp h
          have hi : σ.threads[i]? = some t := hi
          refine Or.inr ⟨i, t, p, hi, hp, rfl, ?_⟩
          rw [Event.purpose?, hi]
          rfl
  | cancel i =>
      simp only [Run.happen?] at h
      split at h
      · cases h
      · next t hi =>
          split at h <;> cases h
          exact Or.inl ⟨purposes_written_none _, inFlight_told hi rfl,
            (State.release_calm _ _ _).quiet, sameTasks_of_set rfl hi rfl⟩
  | expire i =>
      simp only [Run.happen?] at h
      split at h
      · cases h
      · next t hi =>
          cases h
          exact Or.inl ⟨purposes_written_none _, inFlight_told hi rfl,
            (State.release_calm _ _ _).quiet, sameTasks_of_set rfl hi rfl⟩
  | deed d =>
      cases h
      refine Or.inl ⟨?_, rfl, (d.act_calm _).quiet, sameTasks_of_eq rfl⟩
      rw [purposes_append, show (Event.deed d).purpose? σ = none from rfl, purposes_written_none,
        List.append_nil]
      apply purposes_received
      intro line hline
      cases d with
      | send bytes =>
          simp only [Event.heard] at hline
          split at hline
          · exact ⟨bytes, List.mem_singleton.mp hline⟩
          · cases hline
      | _ => cases hline

end Events

/-! ### Steps of a server that is stopping -/

section Steps

variable {g : Settings} {i : Nat} {t : Thread} {s : State} {p : Progress}

theorem pending?_shutting (starter : Option LaunchMode) (q : Option ShutdownPoint) :
    (Task.shutting starter q).pending? = none := by
  cases starter <;> cases q <;> rfl

/-- No check succeeds once the server is stopping. -/
theorem pending?_of_step (hs : s.stopping = true) (h : step g i t s = some p) :
    p.task.pending? = none := by
  have hdoes := does_of_step h
  generalize t.task = τ at hdoes
  cases hdoes with
  | passes row =>
      cases row with
      | ready _ unstopped =>
          rw [hs] at unstopped
          cases unstopped
      | _ => first | rfl | exact pending?_shutting _ _
  | talks _ row | kills row | closes row => cases row <;> first | rfl | exact pending?_shutting _ _
  | marks row | shifts row | informs row => cases row <;> rfl
  | spawns | sends | returns | tells => rfl

/-- Sending a message writes at most one frame. -/
theorem sends_of_send {method : String} {params : Rpc.Params} (ht : t.task = .notify method params .send)
    (h : step g i t s = some p) :
    ∃ done, Rpc.Sends (Purpose.Body g (.passed method params)) done (p.effects.filterMap Effect.frame?) := by
  simp only [step, ht, notifyStep] at h
  split at h <;> cases h
  · exact ⟨false, .nothing⟩
  · next c hc =>
      obtain ⟨-, -, hsends⟩ := Rpc.Connection.notify_notifies (c := c) method params t.abandoned
      obtain ⟨-, -, hframes⟩ := withConnection_eq (c.notify method params t.abandoned).1
        (c.notify method params t.abandoned).2.1 s
      refine ⟨(c.notify method params t.abandoned).2.2.isNone, ?_⟩
      rw [List.filterMap_append, hframes]
      exact (List.append_nil _).symm ▸ hsends

/-- A thread writes at most the one message that it has in flight for its caller. -/
theorem passed_of_step (h : step g i t s = some p) :
    passed (written t.task.purpose? p.effects) <+~ t.task.pending?.toList := by
  -- A task that is not about to send passes nothing.
  cases hp : t.task.pending? with
  | none =>
      have hnone : passed (written t.task.purpose? p.effects) = [] := by
        rw [passed, List.filter_eq_nil_iff]
        intro q hq hpassed
        rw [Task.isPassed_purpose (mem_purposes_written hq) hpassed] at hp
        cases hp
      rw [hnone]
      exact List.nil_subperm
  | some purpose =>
      obtain ⟨method, params, htask, -⟩ := Task.notify_of_pending? hp
      obtain ⟨done, hsends⟩ := sends_of_send htask h
      have hpurpose : t.task.purpose? = some purpose := by rw [← hp, htask]; rfl
      rw [hpurpose]
      rcases written_of_sends purpose hsends with ⟨-, hnone⟩ | ⟨body, frame, hone, -⟩
      · rw [hnone]
        exact List.nil_subperm
      · rw [hone]
        exact List.filter_sublist.subperm

/-- **Once the server is stopping nothing takes flight.** What an event writes for the
callers of notifications, and what is in flight behind it, was in flight before. -/
theorem inFlight_happen {σ : System} {e : Event} {r : Run} (hinv : Invariant σ)
    (hs : σ.state.stopping = true) (h : (Run.begin σ).happen? g e = some r) :
    passed (e.heard σ ++ written (e.purpose? σ) r.effects) ++ r.system.inFlight <+~ σ.inFlight := by
  rcases Event.idle_or_advances h with hidle | ⟨i, t, p, hi, hp, hr, hlines⟩
  · rw [passed_of_purposes hidle.silent, hidle.inFlight]
    exact List.Subperm.refl _
  · have hstarted : (p.started.map Thread.ofTask).filterMap Thread.pending? = [] := by
      rw [List.filterMap_eq_nil_iff]
      intro u hu
      obtain ⟨task, htask, rfl⟩ := List.mem_map.mp hu
      rw [(step_proper hinv.sound (hinv.fits i t hi) hp).started task htask]
      rfl
    have hflight : r.system.inFlight =
        (σ.threads.set i { t with task := p.task }).filterMap Thread.pending? := by
      rw [hr, System.inFlight, System.advance, List.filterMap_append, hstarted, List.append_nil]
    have hlanded : ({ t with task := p.task } : Thread).pending? = none := pending?_of_step hs hp
    rw [hlines, hflight]
    exact ((List.subperm_append_right _).mpr (passed_of_step hp)).trans
      (inFlight_set hi hlanded).subperm

end Steps

/-! ### Runs -/

/-- Who shuts the server down within starting it. -/
def Task.isUnwinding : Task → Bool
  | .start _ (.shutdown _) => true
  | _ => false

/-- What holds of a system and of what has been said over it: the request to shut down
comes only when the server is stopping. -/
structure Flagged (lines : List Line) (σ : System) : Prop where
  requested : .shutdown ∈ purposes lines → σ.state.stopping = true
  unwinding : ∀ (i : Nat) (t : Thread), σ.threads[i]? = some t → t.task.isUnwinding = true →
    σ.state.stopping = true

theorem flagged_initial : Flagged [] {} := ⟨by simp, by simp⟩

section Runs

variable {g : Settings} {σ τ : System} {lines more : List Line} {events : List Event}

/-- A start comes to shut the server down when it says that the server is stopping, and goes on
with that. -/
theorem Does.unwinding {i : Nat} {t : Thread} {s : State} {p : Progress} {τ : Task} (h : Does g i t s τ p)
    (hp : p.task.isUnwinding = true) : τ.isUnwinding = true ∨ p.state.stopping = true := by
  have hshutting {starter : Option LaunchMode} {q : ShutdownPoint} {next : Option ShutdownPoint}
      (hp : (Task.shutting starter next).isUnwinding = true) : (Task.shutting starter (some q)).isUnwinding = true := by
    cases starter with
    | some mode => rfl
    | none => cases next <;> cases hp
  cases h with
  | passes row | talks _ row | kills row | closes row => cases row <;> first | exact Or.inl (hshutting hp) | cases hp
  | marks row =>
      cases row with
      | refrain => exact Or.inr rfl
      | _ => cases hp
  | shifts row | informs row => cases row <;> cases hp
  | spawns _ _ result => rcases result with ⟨_, -, -, rfl⟩ | ⟨-, -, rfl⟩ <;> cases hp
  | sends | returns | tells => cases hp

/-- A start that shuts the server down has said before that it is stopping. -/
theorem stopping_of_unwinding {i : Nat} {t : Thread} {s : State} {p : Progress} {b : Bool}
    {me : Option Nat} (ht : t.task.isUnwinding = true → s.stopping = true)
    (hturn : Turn b me s p.state) (h : step g i t s = some p) (hp : p.task.isUnwinding = true) :
    p.state.stopping = true := by
  rcases (does_of_step h).unwinding hp with hbefore | hnow
  · exact hturn.stopping (ht hbefore)
  · exact hnow

/-- **Every event keeps what is known of the request to shut down.** -/
theorem Flagged.happen {e : Event} {r : Run} (h : Flagged lines σ) (hinv : Invariant σ)
    (hr : (Run.begin σ).happen? g e = some r) :
    Flagged (lines ++ (e.heard σ ++ written (e.purpose? σ) r.effects)) r.system := by
  rcases Event.idle_or_advances hr with hidle | ⟨i, t, p, hi, hp, hsystem, hlines⟩
  · refine ⟨?_, ?_⟩
    · rw [purposes_append, hidle.silent, List.append_nil]
      exact fun hm => hidle.quiet.stopping.trans (h.requested hm)
    · intro j u hj hunwinding
      rcases hidle.same j u hj with ⟨-, hentry⟩ | ⟨v, hv, he⟩
      · rcases Task.isEntry_cases hentry with ⟨mode, he⟩ | he | ⟨method, params, he⟩ <;>
          rw [he] at hunwinding <;> cases hunwinding
      · exact hidle.quiet.stopping.trans (h.unwinding j v hv (he ▸ hunwinding))
  · have hfits := hinv.fits i t hi
    have hproper := step_proper hinv.sound hfits hp
    have hkept (hs : σ.state.stopping = true) : r.system.state.stopping = true := by
      rw [hsystem]
      exact hproper.turn.stopping hs
    refine ⟨?_, ?_⟩
    · rw [purposes_append, List.mem_append, hlines]
      rintro (hm | hm)
      · exact hkept (h.requested hm)
      · -- whoever writes the request stands where the server is stopping
        rcases Task.shuts_of_purpose (mem_purposes_written hm) (Or.inl rfl) with
          ⟨mode, q, htask⟩ | ⟨q, htask⟩
        · exact hkept (h.unwinding i t hi (by rw [htask]; rfl))
        · rw [htask] at hfits
          exact hkept (hfits (by simp)).2.2.1
    · intro j u hj hunwinding
      rw [hsystem] at hj
      rcases getElem?_set_append hj with ⟨rfl, rfl⟩ | ⟨-, hj⟩ | ⟨-, hu⟩
      · rw [hsystem]
        exact stopping_of_unwinding (h.unwinding j t hi) hproper.turn hp hunwinding
      · exact hkept (h.unwinding j u hj hunwinding)
      · obtain ⟨task, htask, rfl⟩ := List.mem_map.mp hu
        rw [Thread.ofTask, hproper.started task htask] at hunwinding
        cases hunwinding

/-- Every event keeps the invariant, and a server that is stopping stays so. -/
theorem Event.keeps {e : Event} {r : Run} (hinv : Invariant σ)
    (hr : (Run.begin σ).happen? g e = some r) :
    Invariant r.system ∧ (σ.state.stopping = true → r.system.state.stopping = true) := by
  rcases Event.idle_or_advances hr with hidle | ⟨i, t, p, hi, hp, hsystem, -⟩
  · exact ⟨hinv.quiet hidle.quiet hidle.same, fun hs => hidle.quiet.stopping.trans hs⟩
  · have hproper := step_proper hinv.sound (hinv.fits i t hi) hp
    rw [hsystem]
    exact ⟨hinv.advance hi hproper, hproper.turn.stopping⟩

/-- **The request to shut down is written only when the server is stopping.** -/
theorem Flagged.converse (h : Flagged lines σ) (hinv : Invariant σ)
    (hplayed : converse? g events σ = some (τ, more)) : Flagged (lines ++ more) τ ∧ Invariant τ := by
  induction events generalizing σ lines more with
  | nil =>
      cases hplayed
      rw [List.append_nil]
      exact ⟨h, hinv⟩
  | cons e events ih =>
      obtain ⟨r, hr, hplayed⟩ := Option.bind_eq_some_iff.mp hplayed
      obtain ⟨⟨υ, rest⟩, hrest, he⟩ := Option.map_eq_some_iff.mp hplayed
      cases he
      have hlast := ih (h.happen hinv hr) (Event.keeps hinv hr).1 hrest
      rwa [List.append_assoc] at hlast

/-- **In the run of a server that is stopping, what is written for the callers of
notifications and what is still in flight at its end was in flight at its beginning.** -/
theorem inFlight_converse (hinv : Invariant σ) (hs : σ.state.stopping = true)
    (hplayed : converse? g events σ = some (τ, more)) :
    passed more ++ τ.inFlight <+~ σ.inFlight ∧ τ.state.stopping = true := by
  induction events generalizing σ more with
  | nil =>
      cases hplayed
      exact ⟨List.Subperm.refl _, hs⟩
  | cons e events ih =>
      obtain ⟨r, hr, hplayed⟩ := Option.bind_eq_some_iff.mp hplayed
      obtain ⟨⟨υ, rest⟩, hrest, he⟩ := Option.map_eq_some_iff.mp hplayed
      cases he
      obtain ⟨hinv', hkept⟩ := Event.keeps hinv hr
      obtain ⟨hrest, hstopping⟩ := ih hinv' (hkept hs) hrest
      refine ⟨?_, hstopping⟩
      rw [passed_append, List.append_assoc]
      exact ((List.subperm_append_left _).mpr hrest).trans (inFlight_happen hinv hs hr)

end Runs

/-! ### Late notifications -/

/-- A notification that is checked once the server is stopping is turned away, and nothing
is written for it. -/
theorem step_late {g : Settings} {i : Nat} {t : Thread} {s : State} {method : String}
    {params : Rpc.Params} (ht : t.task = .notify method params .check) (hs : s.stopping = true) :
    step g i t s = some { state := s, task := .done,
                          effects := [.returned i (some (.condition .notRunning))] } := by
  simp only [step, ht, notifyStep, hs, Bool.not_true, Bool.and_false, Bool.false_and]
  rfl

/-- So is one that is past its check when the connection has been closed. -/
theorem step_closed {g : Settings} {i : Nat} {t : Thread} {s : State} {method : String}
    {params : Rpc.Params} {c : Rpc.Connection} (ht : t.task = .notify method params .send)
    (hc : s.connection = some c) (hclosed : c.closed = true) :
    step g i t s = some { state := s, task := .done,
                          effects := [.returned i (some (.condition .notRunning))] } := by
  have hsame : (s.withConnection c []) = (s, []) := by
    simp only [State.withConnection, List.filterMap_nil, List.flatMap_nil, List.append_nil, ← hc]
  simp only [step, ht, notifyStep, hc, Rpc.Connection.notify, hclosed, if_true, hsame]
  rfl

/-- **Behind the request to shut down, only messages in flight are written for callers.**
In every interleaving of calls to start, to stop and to notify, and whatever the server
does: the request to shut down is written only when the server is stopping. From then on
every message that is written for a caller of a notification is one of those in flight, of
which each is written at most once; and a notification that has not been checked, or is
made later, can go on at once, and then has returned that the server does not run, with
nothing written for it. So has one that was in flight when the connection is closed. -/
theorem notifications_in_flight {g : Settings} {events later : List Event} {σ τ : System}
    {lines more : List Line} (hplayed : converse? g events {} = some (σ, lines))
    (hlater : converse? g later σ = some (τ, more)) :
    (.shutdown ∈ purposes lines → σ.state.stopping = true) ∧
    (σ.state.stopping = true →
      passed more ++ τ.inFlight <+~ σ.inFlight ∧
      ∀ i t method params, τ.threads[i]? = some t →
        t.task = .notify method params .check ∨
          t.task = .notify method params .send ∧ (∃ c, τ.state.connection = some c ∧ c.closed = true) →
        step g i t τ.state = some { state := τ.state, task := .done,
                                    effects := [.returned i (some (.condition .notRunning))] }) := by
  obtain ⟨hflagged, hinv⟩ := flagged_initial.converse invariant_initial hplayed
  refine ⟨hflagged.requested, ?_⟩
  intro hs
  obtain ⟨hlands, hstopping⟩ := inFlight_converse hinv hs hlater
  refine ⟨hlands, ?_⟩
  rintro i t method params hi (hcheck | ⟨hsend, c, hc, hclosed⟩)
  · exact step_late hcheck hstopping
  · exact step_closed hsend hc hclosed

/-- The server is started. A notification is checked, and then somebody begins to stop the
server. -/
def overtakingEvents : List Event :=
  [.call (.start .run .enter) false false, .advance 0, .advance 0, .advance 0, .advance 0,
    .advance 0, .deed (.send greetingFrame), .advance 0, .advance 0, .advance 0, .advance 0,
    .call (.notify "textDocument/didSave" .absent .check) false false, .advance 2,
    .call (.stop .acquire) false false, .advance 3, .advance 3]

/-- The request to shut down is written. Another notification is made, and the first one
goes on. -/
def overtakenEvents : List Event :=
  [.advance 3, .call (.notify "textDocument/didClose" .absent .check) false false, .advance 2]

theorem overtaken_conversed :
    ∃ p, converse? presentServer overtakingEvents {} = some p ∧
      ∃ q, converse? presentServer overtakenEvents p.1 = some q ∧
        (p.1.state.stopping, purposes p.2, purposes q.2) =
          (true, [.greeting, .acknowledgement], [.shutdown, .passed "textDocument/didSave" .absent]) := by
  have hplayed : ((converse? presentServer overtakingEvents {}).bind fun p =>
      (converse? presentServer overtakenEvents p.1).map fun q =>
        (p.1.state.stopping, purposes p.2, purposes q.2)) =
      some (true, [.greeting, .acknowledgement], [.shutdown, .passed "textDocument/didSave" .absent]) := by
    decide +kernel
  obtain ⟨p, hp, hrest⟩ := Option.bind_eq_some_iff.mp hplayed
  obtain ⟨q, hq, hsame⟩ := Option.map_eq_some_iff.mp hrest
  exact ⟨p, hp, q, hq, hsame⟩

/-- Of two notifications, the one that was in flight is written behind the request to shut
down, and the other one is turned away. -/
theorem overtaken_in_flight :
    ∃ σ τ lines more, converse? presentServer overtakingEvents {} = some (σ, lines) ∧
      converse? presentServer overtakenEvents σ = some (τ, more) ∧ σ.state.stopping = true ∧
      purposes more = [.shutdown, .passed "textDocument/didSave" .absent] ∧
      passed more ++ τ.inFlight <+~ σ.inFlight ∧
      ∀ i t method params, τ.threads[i]? = some t → t.task = .notify method params .check →
        step presentServer i t τ.state =
          some { state := τ.state, task := .done,
                 effects := [.returned i (some (.condition .notRunning))] } := by
  obtain ⟨⟨σ, lines⟩, hp, ⟨τ, more⟩, hq, hsame⟩ := overtaken_conversed
  simp only [Prod.mk.injEq] at hsame
  obtain ⟨hs, -, hmore⟩ := hsame
  obtain ⟨hlands, hlate⟩ := (notifications_in_flight hp hq).2 hs
  exact ⟨σ, τ, lines, more, hp, hq, hs, hmore, hlands,
    fun i t method params hi hcheck => hlate i t method params hi (Or.inl hcheck)⟩

def Line.said? : Line → Option (Purpose × Bytes)
  | .said purpose frame => some (purpose, frame)
  | _ => none

/-- The farewell to a server, which callers can pass too. -/
def farewellFrame : Bytes := Frame.encode (Rpc.Outgoing.notification "exit" none).bytes

theorem served_said :
    ∃ p, converse? presentServer servedEvents {} = some p ∧
      (purposes p.2, (p.2.filterMap Line.said?).filter (·.2 = farewellFrame)) =
        ([.greeting, .acknowledgement, .passed "exit" .absent, .shutdown, .exit],
          [(.passed "exit" .absent, farewellFrame), (.exit, farewellFrame)]) :=
  Option.map_eq_some_iff.mp (by decide +kernel)

/-- **A message that a caller passes can be written behind the request to shut down**: one
that was in flight. And where none is in flight, what is written there can still be octet
for octet a message that a caller has passed. -/
theorem shutdown_overtaken :
    (∃ σ τ lines more, converse? presentServer overtakingEvents {} = some (σ, lines) ∧
      converse? presentServer overtakenEvents σ = some (τ, more) ∧
      purposes (lines ++ more) =
        [.greeting, .acknowledgement, .shutdown, .passed "textDocument/didSave" .absent]) ∧
    ∃ σ lines frame, converse? presentServer servedEvents {} = some (σ, lines) ∧
      purposes lines = [.greeting, .acknowledgement, .passed "exit" .absent, .shutdown, .exit] ∧
      (.passed "exit" .absent, frame) ∈ lines.filterMap Line.said? ∧
      (.exit, frame) ∈ lines.filterMap Line.said? := by
  refine ⟨?_, ?_⟩
  · obtain ⟨⟨σ, lines⟩, hp, ⟨τ, more⟩, hq, hsame⟩ := overtaken_conversed
    simp only [Prod.mk.injEq] at hsame
    refine ⟨σ, τ, lines, more, hp, hq, ?_⟩
    rw [purposes_append, hsame.2.1, hsame.2.2]
    rfl
  · obtain ⟨⟨σ, lines⟩, hc, hsame⟩ := served_said
    obtain ⟨hpurposes, hframes⟩ := Prod.mk.inj hsame
    refine ⟨σ, lines, farewellFrame, hc, hpurposes, ?_, ?_⟩
    · exact List.mem_of_mem_filter (hframes ▸ List.mem_cons_self)
    · exact List.mem_of_mem_filter (hframes ▸ List.mem_cons_of_mem _ List.mem_cons_self)

end LanguageClient.Supervisor
