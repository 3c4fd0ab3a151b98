import LanguageClient.Proofs.Bridge.Wire
import LanguageClient.Proofs.Run.Dialogue

/-! # A bridge to a server that stays up.

Document events are passed on one after the other, by calls of a supervisor that can be
interleaved with anything else that happens to it. While the server is up, each event of
a document that is selected is told in one frame, in the order of the calls, and nothing
is told of other documents (`forwardAll_said`). No call needs anybody's help to return
(`forwardAll_returns`). -/

namespace LanguageClient

/-- Passes events on, one after the other, with what each call returns. -/
def Bridge.forwardAll (b : Bridge σ) : List (DocumentEvent × Document) → σ → σ × List (Except Error Bool)
  | [], s => (s, [])
  | (event, doc) :: calls, s =>
    let (s, r) := b.forward event doc s
    let (s, rs) := b.forwardAll calls s
    (s, r :: rs)

/-- What a bridge returns for an event. Unless its caller may have given up, it says
whether the document is selected. -/
def Selector.Flags (selector : Selector) (cutsShort : Bool) (call : DocumentEvent × Document)
    (r : Except Error Bool) : Prop :=
  r = .ok (selector.selects call.2) ∨ cutsShort = true ∧ selector.selects call.2 = true ∧ ∃ e, r = .error e

theorem Selector.Flags.mono {selector : Selector} {cut cut' : Bool} {call : DocumentEvent × Document}
    {r : Except Error Bool} (h : selector.Flags cut call r) (hcut : cut' = false → cut = false) :
    selector.Flags cut' call r := by
  refine h.imp_right fun ⟨hc, hrest⟩ => ⟨?_, hrest⟩
  by_contra hn
  rw [hcut (Bool.eq_false_of_not_eq_true hn)] at hc
  cases hc

/-- If no caller gave up, the calls say which documents are selected. -/
theorem Selector.eq_map_of_flags {selector : Selector} {calls : List (DocumentEvent × Document)}
    {rs : List (Except Error Bool)} (h : List.Forall₂ (selector.Flags false) calls rs) :
    rs = (calls.map fun call => selector.selects call.2).map .ok := by
  induction h with
  | nil => rfl
  | cons hflag _ ih =>
      rcases hflag with rfl | ⟨hcut, -⟩
      · rw [List.map_cons, List.map_cons, ← ih]
      · cases hcut

/-- The events that were passed on, by what the calls returned. -/
def forwarded (calls : List (DocumentEvent × Document)) (rs : List (Except Error Bool)) :
    List (DocumentEvent × Document) :=
  (calls.zip rs).filterMap fun
    | (call, .ok true) => some call
    | _ => none

namespace Run

open Supervisor

/-- Whether callers may give up. -/
def Circumstances.cutsShort (w : Circumstances) : Bool := w.interrupted && !w.shielded

/-! ### Waiting -/

section Waiting

variable {α : Type} {ready : Circumstances → Incident → Option α} {w w' : Circumstances}
  {ahead rest : List Incident} {a : α}

/-- If callers may not give up after an incident, they could not before. -/
theorem cutsShort_undergo (i : Incident) (h : (w.undergo i).cutsShort = false) : w.cutsShort = false := by
  cases i with
  | interrupt =>
      simp only [Circumstances.undergo, Circumstances.cutsShort, Bool.true_and] at h
      rw [Circumstances.cutsShort, h, Bool.and_false]
  | event e =>
      simp only [Circumstances.undergo] at h
      split at h
      · exact h
      · split at h <;> exact h
  | _ => exact h

theorem cutsShort_await (h : (Run.await ready ahead w).1.cutsShort = false) : w.cutsShort = false := by
  induction ahead generalizing w with
  | nil => exact h
  | cons i ahead ih =>
      simp only [Run.await] at h
      split at h
      · exact h
      · exact cutsShort_undergo i (ih h)

/-- What no incident ends as long as nobody may give up holds at the end of a wait
after which nobody may. -/
theorem await_uncut {Q : Supervision → Prop}
    (hQ : ∀ (w : Circumstances) (v : Supervision) (e : Event), w.cutsShort = false →
      w.admits v e = true → Q v → Q (v.happen e))
    (h : ∀ v, w.server = some v → Q v) (hend : (Run.await ready ahead w).1.cutsShort = false) :
    ∀ v, (Run.await ready ahead w).1.server = some v → Q v := by
  induction ahead generalizing w with
  | nil => exact h
  | cons i ahead ih =>
      have huncut := cutsShort_await hend
      simp only [Run.await] at hend ⊢
      cases hr : ready w i with
      | some b => exact h
      | none =>
          simp only [hr] at hend ⊢
          refine ih ?_ hend
          cases i with
          | event e =>
              simp only [Circumstances.undergo]
              split
              · exact h
              · next v hv =>
                  split
                  · next hadm =>
                      rintro u ⟨⟩
                      exact hQ w v e huncut hadm (h v hv)
                  · exact h
          | _ => exact h

/-- A wait that has ended does not see what is ahead behind that. -/
theorem await_append (h : Run.await ready ahead w = (w', rest, some a)) (more : List Incident) :
    Run.await ready (ahead ++ more) w = (w', rest ++ more, some a) := by
  induction ahead generalizing w with
  | nil => cases h
  | cons i ahead ih =>
      simp only [Run.await, List.cons_append] at h ⊢
      cases hr : ready w i with
      | some b =>
          rw [hr] at h
          cases h
          rfl
      | none =>
          rw [hr] at h
          exact ih h

/-- A wait that has not ended goes on with what is ahead behind that. -/
theorem await_append_of_none (h : Run.await ready ahead w = (w', rest, none)) (more : List Incident) :
    Run.await ready (ahead ++ more) w = Run.await ready more w' := by
  induction ahead generalizing w with
  | nil =>
      cases h
      rfl
  | cons i ahead ih =>
      simp only [Run.await, List.cons_append] at h ⊢
      cases hr : ready w i with
      | some b =>
          rw [hr] at h
          cases h
      | none =>
          rw [hr] at h
          exact ih h

end Waiting

section Calls

variable {p : Course} {v : Supervision} {t : Thread}

theorem now_await {α : Type} (ready : Circumstances → Incident → Option α) (p : Course) :
    (p.await ready).1.now = (Run.await ready p.ahead p.now).1 := by
  rw [Course.await]
  cases Run.await ready p.ahead p.now with
  | mk now rest =>
      obtain ⟨ahead, _ | a⟩ := rest <;> rfl

/-- A call leaves the world as awaiting the result of its thread does. -/
theorem now_call (hv : p.now.server = some v) (t : Thread) : (p.call t).1.now =
    (Run.await (Circumstances.result? v.system.threads.length) p.ahead
      { p.now with server := some (v.fork t) }).1 := by
  simp only [Course.call, hv]
  exact now_await (Circumstances.result? v.system.threads.length)
    { p with now.server := some (v.fork t) }

theorem cutsShort_call (h : (p.call t).1.now.cutsShort = false) : p.now.cutsShort = false := by
  cases hv : p.now.server with
  | none => simpa [Course.call, hv] using h
  | some v =>
      rw [now_call hv] at h
      have hfork := cutsShort_await h
      exact hfork

/-- A call after which callers may not have given up. -/
theorem call_uncut {Q : Supervision → Prop} (hv : p.now.server = some v)
    (hQ : ∀ (w : Circumstances) (v : Supervision) (e : Event), w.cutsShort = false →
      w.admits v e = true → Q v → Q (v.happen e))
    (h : Q (v.fork t)) (hend : (p.call t).1.now.cutsShort = false) {v' : Supervision}
    (hv' : (p.call t).1.now.server = some v') : Q v' := by
  rw [now_call hv] at hend hv'
  refine await_uncut hQ ?_ hend v' hv'
  rintro u ⟨⟩
  exact h

end Calls

/-! ### One notification -/

/-- A server that is ready as long as it is up, between two calls. -/
structure Serving (v : Supervision) : Prop where
  idle : Idle v
  used : v.system.state.used = true
  ready : v.steady = true → v.system.state.isReady = true

section Notify

variable {p : Course} {v : Supervision} {method : String} {params : Bytes}

/-- The thread of a call that sends a notification. -/
def notifier (w : Circumstances) (method : String) (params : Bytes) : Thread :=
  { task := .notify method (.json params) .check, cancelled := w.cutsShort }

/-- A server that is ready takes up a notification while nobody else is at work. -/
theorem Serving.notifying (h : Serving v) (method : String) (params : Bytes) {firm : Bool}
    {w : Circumstances} (hfirm : firm = true → w.cutsShort = false) :
    Alone v.system.threads.length (v.fork (notifier w method params)) ∧
      Notifying v.system.threads.length method params (spoken v.lines) true firm
        (v.fork (notifier w method params)) := by
  obtain ⟨halone, hthread⟩ := h.idle.fork (.notify method (.json params) .check) rfl w.cutsShort false
  refine ⟨halone, ⟨_, hthread, Or.inl ⟨Or.inl rfl, ?_, ?_, rfl⟩⟩, h.used, fun hs _ => h.ready hs⟩
  · intro hf
    simp [Thread.abandoned, hfirm hf]
  · rw [Supervision.fork, List.lookup_eq_none_iff]
    intro q hq
    have hlt := h.idle.reached.returned q hq
    simp only [bne_iff_ne, ne_eq]
    omega

/-- A notification that has returned was passed on as its result says. -/
theorem Notifying.passed {i : Nat} {said : List Line} {ready firm : Bool} {r : Option Error}
    (h : Notifying i method params said ready firm v) (hr : v.result? i = some r) :
    ∃ t, v.system.threads[i]? = some t ∧ Passed i method params said ready firm v t r := by
  obtain ⟨t, ht, hstands⟩ := h.thread
  obtain ⟨hdone, hresult⟩ := done_of_result? ht hr
  rcases hstands with hp | ⟨r', hp⟩
  · rcases hp.point with hcheck | ⟨hsend, -⟩
    · rw [hdone] at hcheck
      cases hcheck
    · rw [hdone] at hsend
      cases hsend
  · obtain rfl : r = r' := by rw [hresult, hp.returns]; rfl
    exact ⟨t, ht, hp⟩

/-- **What a notification comes to**, whatever else happens while it is sent. -/
theorem notify_said (hv : p.now.server = some v) (h : Serving v) (method : String) (params : Bytes)
    (hl : (p.notify method params).1.lost = false) :
    ∃ v', (p.notify method params).1.now.server = some v' ∧ Serving v' ∧
      (v'.steady = true → v.steady = true ∧
        spoken v'.lines = spoken v.lines ++
          (if (p.notify method params).2.isNone then [passedLine method params] else []) ∧
        ((p.notify method params).1.now.cutsShort = false → (p.notify method params).2 = none)) := by
  have hl' : (p.call (notifier p.now method params)).1.lost = false := hl
  -- the call as it goes on while callers may give up, and while they may not
  obtain ⟨halone, hnotifying⟩ := h.notifying (w := p.now) method params fun hfirm : false = true => nomatch hfirm
  obtain ⟨v', hv', ⟨halone', hnotifying', hsteady⟩, -, -, hgoes⟩ := Course.call_kept
    (Q := fun u => Alone v.system.threads.length u ∧
      Notifying v.system.threads.length method params (spoken v.lines) true false u ∧
      (u.steady = true → v.steady = true)) hv (notifier p.now method params)
    (fun w u e _ hadm h => ⟨(h.1.happen hadm).1, h.2.1.happen h.1 hadm (by simp),
      fun hs => h.2.2 (steady_happen hs)⟩)
    ⟨halone, hnotifying, id⟩
  have hresult := (hgoes hl').2
  obtain ⟨t, ht, hpassed⟩ := hnotifying'.passed hresult
  refine ⟨v', hv', ⟨halone'.idle_of_done ht hpassed.task, hnotifying'.used,
    fun hs => hnotifying'.ready hs rfl⟩, fun hs => ⟨hsteady hs, hpassed.heard hs, fun huncut => ?_⟩⟩
  obtain ⟨-, hfirm⟩ := h.notifying method params fun _ => cutsShort_call huncut
  obtain ⟨-, hfirm'⟩ := call_uncut
    (Q := fun u => Alone v.system.threads.length u ∧
      Notifying v.system.threads.length method params (spoken v.lines) true true u) hv
    (fun w u e hw hadm h => ⟨(h.1.happen hadm).1, h.2.happen h.1 hadm fun _ => hw⟩)
    ⟨halone, hfirm⟩ huncut hv'
  obtain ⟨_, -, hsent⟩ := hfirm'.passed hresult
  exact hsent.faithful hs rfl rfl

end Notify

/-! ### Events, one after the other -/

section Forward

variable (selector : Selector)

def relay : Bridge Course := Ledger.bridge selector Course.notify

/-- What tells the server of an event that was passed on. -/
def toldLine (call : DocumentEvent × Document) : Line :=
  .said (.passed call.1.method (.json (call.1.params call.2))) (call.1.frame call.2)

variable {p : Course} {v : Supervision} {event : DocumentEvent} {doc : Document}

/-- The event of a document that is selected is sent. -/
theorem forward_selected (h : selector.selects doc = true) (event : DocumentEvent) (p : Course) :
    (relay selector).forward event doc p =
      ((p.notify event.method (event.params doc)).1,
        match (p.notify event.method (event.params doc)).2 with
        | none => .ok true
        | some e => .error (.context (event.method ++ " " ++ doc.uri) e)) := by
  simp only [relay, Ledger.bridge, Bridge.forward, h, if_true]
  cases p.notify event.method (event.params doc) with
  | mk q failure => cases failure <;> rfl

/-- A document of another language is not passed on, and nothing changes. -/
theorem forward_unselected (h : selector.selects doc = false) (event : DocumentEvent) (p : Course) :
    (relay selector).forward event doc p = (p, .ok false) :=
  Ledger.forward_unselected selector h p

theorem forward_lost (hl : ((relay selector).forward event doc p).1.lost = false) : p.lost = false := by
  cases h : selector.selects doc with
  | false =>
      rw [forward_unselected selector h] at hl
      exact hl
  | true =>
      rw [forward_selected selector h] at hl
      exact call_lost (t := notifier p.now event.method (event.params doc)) hl

theorem cutsShort_forward (hc : ((relay selector).forward event doc p).1.now.cutsShort = false) :
    p.now.cutsShort = false := by
  cases h : selector.selects doc with
  | false =>
      rw [forward_unselected selector h] at hc
      exact hc
  | true =>
      rw [forward_selected selector h] at hc
      exact cutsShort_call (t := notifier p.now event.method (event.params doc)) hc

theorem forwardAll_cons (call : DocumentEvent × Document) (calls : List (DocumentEvent × Document)) (p : Course) :
    (relay selector).forwardAll (call :: calls) p =
      (((relay selector).forwardAll calls ((relay selector).forward call.1 call.2 p).1).1,
        ((relay selector).forward call.1 call.2 p).2 ::
          ((relay selector).forwardAll calls ((relay selector).forward call.1 call.2 p).1).2) := rfl

theorem forwardAll_lost {calls : List (DocumentEvent × Document)}
    (hl : ((relay selector).forwardAll calls p).1.lost = false) : p.lost = false := by
  induction calls generalizing p with
  | nil => exact hl
  | cons call calls ih => exact forward_lost selector (ih hl)

theorem cutsShort_forwardAll {calls : List (DocumentEvent × Document)}
    (hc : ((relay selector).forwardAll calls p).1.now.cutsShort = false) : p.now.cutsShort = false := by
  induction calls generalizing p with
  | nil => exact hc
  | cons call calls ih => exact cutsShort_forward selector (ih hc)

theorem forwarded_cons (call : DocumentEvent × Document) (calls : List (DocumentEvent × Document))
    (r : Except Error Bool) (rs : List (Except Error Bool)) :
    forwarded (call :: calls) (r :: rs) = forwarded [call] [r] ++ forwarded calls rs := by
  rw [forwarded, List.zip_cons_cons, ← List.singleton_append, List.filterMap_append]
  rfl

/-- **What one event comes to**, whatever else happens while it is passed on. -/
theorem forward_said (hv : p.now.server = some v) (h : Serving v) (event : DocumentEvent) (doc : Document)
    (hl : ((relay selector).forward event doc p).1.lost = false) :
    ∃ v', ((relay selector).forward event doc p).1.now.server = some v' ∧ Serving v' ∧
      (v'.steady = true → v.steady = true ∧
        selector.Flags ((relay selector).forward event doc p).1.now.cutsShort (event, doc)
          ((relay selector).forward event doc p).2 ∧
        spoken v'.lines = spoken v.lines ++
          (forwarded [(event, doc)] [((relay selector).forward event doc p).2]).map toldLine) := by
  cases hsel : selector.selects doc with
  -- Documents of other languages are not sent.
  | false =>
      simp only [forward_unselected selector hsel]
      refine ⟨v, hv, h, fun hs => ⟨hs, Or.inl (congrArg _ hsel.symm), ?_⟩⟩
      exact (List.append_nil _).symm
  | true =>
      rw [forward_selected selector hsel] at hl ⊢
      obtain ⟨v', hv', hserving, htells⟩ := notify_said hv h event.method (event.params doc) hl
      refine ⟨v', hv', hserving, fun hs => ?_⟩
      obtain ⟨hsteady, hspoken, hfirm⟩ := htells hs
      refine ⟨hsteady, ?_⟩
      dsimp only
      cases hr : (p.notify event.method (event.params doc)).2 with
      | none =>
          rw [hr] at hspoken
          exact ⟨Or.inl (congrArg _ hsel.symm), hspoken⟩
      -- It failed, so the caller may have been cut short: otherwise it would have been sent.
      | some e =>
          rw [hr] at hspoken
          refine ⟨Or.inr ⟨?_, hsel, _, rfl⟩, hspoken⟩
          by_contra huncut
          rw [hfirm (Bool.eq_false_of_not_eq_true huncut)] at hr
          cases hr

/-- **What all events come to**, in the order of the calls. -/
theorem forwardAll_said (hv : p.now.server = some v) (h : Serving v)
    (calls : List (DocumentEvent × Document))
    (hl : ((relay selector).forwardAll calls p).1.lost = false) :
    ∃ v', ((relay selector).forwardAll calls p).1.now.server = some v' ∧ Serving v' ∧
      (v'.steady = true → v.steady = true ∧
        List.Forall₂ (selector.Flags ((relay selector).forwardAll calls p).1.now.cutsShort) calls
          ((relay selector).forwardAll calls p).2 ∧
        spoken v'.lines = spoken v.lines ++
          (forwarded calls ((relay selector).forwardAll calls p).2).map toldLine) := by
  induction calls generalizing p v with
  | nil => exact ⟨v, hv, h, fun hs => ⟨hs, .nil, (List.append_nil _).symm⟩⟩
  | cons call calls ih =>
      obtain ⟨event, doc⟩ := call
      rw [forwardAll_cons] at hl ⊢
      obtain ⟨v₁, hv₁, hserving₁, htells₁⟩ := forward_said selector hv h event doc (forwardAll_lost selector hl)
      obtain ⟨v₂, hv₂, hserving₂, htells₂⟩ := ih hv₁ hserving₁ hl
      refine ⟨v₂, hv₂, hserving₂, fun hs => ?_⟩
      obtain ⟨hs₁, hflags, hspoken⟩ := htells₂ hs
      obtain ⟨hs₀, hflag, hspoken₁⟩ := htells₁ hs₁
      refine ⟨hs₀, .cons (hflag.mono (cutsShort_forwardAll selector)) hflags, ?_⟩
      rw [hspoken, hspoken₁, forwarded_cons (event, doc) calls, List.map_append, List.append_assoc]

end Forward

/-! ### Calls return

Two steps of its thread are all that a call needs to return. -/

/-- What a caller does itself: its thread takes a step, and it sees that the call has
returned. -/
def Incident.IsOwn : Incident → Prop
  | .event (.advance _) | .proceed => True
  | _ => False

section Return

variable {i : Nat} {method : String} {params : Bytes} {v : Supervision} {t : Thread}

/-- A notification never waits. -/
theorem exists_step {g : Settings} {s : State} {q : NotifyPoint}
    (h : t.task = .notify method (.json params) q) : ∃ p, step g i t s = some p := by
  simp only [step, h]
  cases q <;> simp only [notifyStep] <;> split <;> exact ⟨_, rfl⟩

/-- What a step shows of a server that is up. -/
theorem steady_of_moves {p : Progress} (ht : v.system.threads[i]? = some t)
    (hp : step v.settings i t v.system.state = some p) :
    (v.happen (.advance i)).steady = (v.steady && (!p.state.isReady || p.state.isUp)) := by
  have hr : (Supervisor.Run.begin v.system).happen? v.settings (.advance i) =
      some ((Supervisor.Run.begin v.system).extend (v.system.advance i t p) p.effects) := by
    simp only [Supervisor.Run.happen?, Supervisor.Run.begin, ht, hp, Option.map_some]
  rw [Supervision.happen_of_eq hr]
  rfl

/-- A server that is up stays up when a notification is sent. -/
theorem up_of_send {g : Settings} {s : State} {p : Progress}
    (ht : t.task = .notify method (.json params) .send) (h : step g i t s = some p)
    (hup : s.isUp = true) : p.state.isUp = true := by
  simp only [step, ht, notifyStep] at h
  cases hc : s.connection with
  | none => simp [State.isUp, hc] at hup
  | some c =>
      simp only [State.isUp, hc, Option.any_some, Bool.and_eq_true, Bool.not_eq_true',
        Option.isNone_iff_eq_none, decide_eq_true_eq] at hup
      obtain ⟨hrunning, hopen, hleft⟩ := hup
      have hkept : (c.notify method (.json params) t.abandoned).1.closed = false ∧
          (c.notify method (.json params) t.abandoned).1.writer.left = none := by
        cases t.abandoned <;>
          simp [Rpc.Connection.notify, Rpc.Params.encode, Rpc.Connection.send, Frame.write,
            Frame.Writer.write, hopen, hleft]
      rw [hc] at h
      simp only [Option.some.injEq] at h
      subst h
      rw [State.isUp, Bool.and_eq_true, decide_eq_true_eq]
      exact ⟨hrunning, by simp [State.withConnection, hkept]⟩

/-- Whether a thread has still to take the steps of a notification. -/
inductive Notifies (method : String) (params : Bytes) : Task → Prop where
  | check : Notifies method params (.notify method (.json params) .check)
  | send : Notifies method params (.notify method (.json params) .send)
  | done : Notifies method params .done

theorem Notifying.notifies {said : List Line} {ready firm : Bool}
    (h : Notifying i method params said ready firm v) :
    ∃ t, v.system.threads[i]? = some t ∧ Notifies method params t.task := by
  obtain ⟨t, ht, hp | ⟨r, hp⟩⟩ := h.thread
  · rcases hp.point with hcheck | ⟨hsend, -⟩
    · exact ⟨t, ht, hcheck ▸ .check⟩
    · exact ⟨t, ht, hsend ▸ .send⟩
  · exact ⟨t, ht, hp.task ▸ .done⟩

theorem happen_done (ht : v.system.threads[i]? = some t) (hdone : t.task = .done) :
    v.happen (.advance i) = v := by
  apply Supervision.happen_of_none
  simp [Supervisor.Run.happen?, Supervisor.Run.begin, ht, step, hdone]

/-- The step behind which a notification has returned. -/
theorem happen_send (ht : v.system.threads[i]? = some t)
    (hsend : t.task = .notify method (.json params) .send) :
    ∃ t', (v.happen (.advance i)).system.threads[i]? = some t' ∧ t'.task = .done := by
  obtain ⟨p, hp⟩ := exists_step (g := v.settings) (i := i) (s := v.system.state) hsend
  exact ⟨_, (moves_of_advance ht hp).after, (send_step hsend hp).2.2.1⟩

/-- After two steps a notification has returned. -/
theorem done_of_notifies (h : ∃ t, v.system.threads[i]? = some t ∧ Notifies method params t.task) :
    ∃ t, ((v.happen (.advance i)).happen (.advance i)).system.threads[i]? = some t ∧ t.task = .done := by
  obtain ⟨t, ht, hnotifies⟩ := h
  generalize htask : t.task = task at hnotifies
  cases hnotifies with
  | check =>
      obtain ⟨p, hp⟩ := exists_step (g := v.settings) (i := i) (s := v.system.state) htask
      have hafter := (moves_of_advance ht hp).after
      obtain ⟨-, -, ⟨-, hnext, -⟩ | ⟨-, hnext, -⟩⟩ := check_step htask hp
      · exact happen_send hafter hnext
      · rw [happen_done hafter hnext]
        exact ⟨_, hafter, hnext⟩
  | send =>
      obtain ⟨t', ht', hdone⟩ := happen_send ht htask
      rw [happen_done ht' hdone]
      exact ⟨t', ht', hdone⟩
  | done =>
      rw [happen_done ht htask, happen_done ht htask]
      exact ⟨t, ht, htask⟩

/-- A server that is up stays up while a notification takes its two steps. -/
theorem steady_of_check (ht : v.system.threads[i]? = some t)
    (hcheck : t.task = .notify method (.json params) .check) (hsteady : v.steady = true)
    (hready : v.system.state.isReady = true) (hup : v.system.state.isUp = true) :
    ((v.happen (.advance i)).happen (.advance i)).steady = true := by
  obtain ⟨p, hp⟩ := exists_step (g := v.settings) (i := i) (s := v.system.state) hcheck
  have hmoves := moves_of_advance ht hp
  obtain ⟨-, hstate, ⟨-, hnext, -⟩ | ⟨hrefused, -⟩⟩ := check_step hcheck hp
  · have hfirst : (v.happen (.advance i)).steady = true := by
      rw [steady_of_moves ht hp, hstate, hsteady, hup, Bool.or_true, Bool.true_and]
    obtain ⟨p', hp'⟩ : ∃ p', step (v.happen (.advance i)).settings i { t with task := p.task }
        (v.happen (.advance i)).system.state = some p' := exists_step hnext
    have hup' : p'.state.isUp = true := by
      apply up_of_send hnext hp'
      rw [hmoves.state, hstate]
      exact hup
    rw [steady_of_moves hmoves.after hp', hfirst, hup', Bool.or_true, Bool.true_and]
  · rw [hrefused] at hready
    cases hready

theorem result?_of_done (ht : v.system.threads[i]? = some t) (hdone : t.task = .done) :
    ∃ r, v.result? i = some r := by
  obtain ⟨task, cancelled, expired, hasty⟩ := t
  subst hdone
  exact ⟨(v.returns.lookup i).join, by simp only [Supervision.result?, ht]⟩

/-- What a call does itself until it has returned. -/
def ownSteps (i : Nat) : List Incident := [.event (.advance i), .event (.advance i), .proceed]

theorem isOwn_of_mem_ownSteps {x : Incident} (h : x ∈ ownSteps i) : x.IsOwn := by
  simp only [ownSteps, List.mem_cons, List.not_mem_nil, or_false] at h
  rcases h with rfl | rfl | rfl <;> trivial

/-- A wait for a call that does what it has to do ends. -/
theorem await_ownSteps {w : Circumstances} (hw : w.server = some v) {r : Option Error}
    (hr : ((v.happen (.advance i)).happen (.advance i)).result? i = some r) :
    Run.await (Circumstances.result? i) (ownSteps i) w =
      ({ w with server := some ((v.happen (.advance i)).happen (.advance i)) }, [], some r) := by
  simp only [ownSteps, Run.await, Circumstances.result?, Circumstances.undergo, Circumstances.admits, hw,
    if_true, Option.bind_some, hr]

end Return

/-- What is ahead of a run goes on behind that. -/
def Course.extend (p : Course) (more : List Incident) : Course := { p with ahead := p.ahead ++ more }

section Progress

variable {p : Course} {v : Supervision} {method : String} {params : Bytes}

theorem now_extend (p : Course) (more : List Incident) : (p.extend more).now = p.now := rfl

theorem lost_extend (p : Course) (more : List Incident) : (p.extend more).lost = p.lost := rfl

@[simp] theorem extend_nil (p : Course) : p.extend [] = p := by
  rw [Course.extend, List.append_nil]

theorem extend_append (p : Course) (more rest : List Incident) :
    p.extend (more ++ rest) = (p.extend more).extend rest := by
  simp only [Course.extend, List.append_assoc]

/-- A wait that has ended does not see what is ahead behind that. -/
theorem await_extend {α : Type} {ready : Circumstances → Incident → Option α}
    (hl : (p.await ready).1.lost = false) (more : List Incident) :
    (p.extend more).await ready = ((p.await ready).1.extend more, (p.await ready).2) := by
  cases hr : Run.await ready p.ahead p.now with
  | mk w rest =>
      obtain ⟨rest, _ | a⟩ := rest
      · simp [Course.await, hr] at hl
      · simp only [Course.await, Course.extend, hr, await_append hr more]

/-- A call that comes to its end takes no notice of what lies further ahead. -/
theorem call_extend {t : Thread} (hl : (p.call t).1.lost = false) (more : List Incident) :
    (p.extend more).call t = ((p.call t).1.extend more, (p.call t).2) := by
  cases hv : p.now.server with
  | none => simp only [Course.call, Course.extend, hv]
  | some v =>
      simp only [Course.call, hv] at hl
      simp only [Course.call, now_extend, hv]
      have hextend := await_extend hl more
      simp only [Course.extend] at hextend ⊢
      rw [hextend]

theorem notify_eq (p : Course) (method : String) (params : Bytes) :
    p.notify method params =
      ({ (p.call (notifier p.now method params)).1 with
          now.sent := (p.call (notifier p.now method params)).1.now.sent ++
            [⟨method, params, p.now.shielded, (p.call (notifier p.now method params)).2⟩] },
        (p.call (notifier p.now method params)).2) := rfl

/-- Neither does a notification. -/
theorem notify_extend (hl : (p.notify method params).1.lost = false) (more : List Incident) :
    (p.extend more).notify method params =
      ((p.notify method params).1.extend more, (p.notify method params).2) := by
  have hcall := call_extend (t := notifier p.now method params) hl more
  rw [notify_eq, now_extend, hcall]
  rfl

/-- A call whose wait ends. -/
theorem call_of_await (hv : p.now.server = some v) {t : Thread} {w : Circumstances} {rest : List Incident}
    {r : Option Error}
    (h : Run.await (Circumstances.result? v.system.threads.length) p.ahead
      { p.now with server := some (v.fork t) } = (w, rest, some r)) :
    p.call t = ({ p with now := w, ahead := rest }, r) := by
  simp only [Course.call, hv, Course.await, h, Option.join_some]

/-- A notification that has not returned yet is two steps away from that. -/
theorem result?_of_await (h : Serving v) {rest : List Incident} {w w' : Circumstances}
    (hw : w.server = some (v.fork (notifier p.now method params)))
    (hr : Run.await (Circumstances.result? v.system.threads.length) p.ahead w = (w', rest, none)) :
    ∃ u r, w'.server = some u ∧
      ((u.happen (.advance v.system.threads.length)).happen (.advance v.system.threads.length)).result?
        v.system.threads.length = some r := by
  let Q : Supervision → Prop := fun u => Alone v.system.threads.length u ∧
    Notifying v.system.threads.length method params (spoken v.lines) true false u
  have hstart : Kept Q w w := by
    refine ⟨rfl, rfl, rfl, ?_⟩
    intro u hu
    obtain rfl := Option.some.inj (hw.symm.trans hu)
    exact h.notifying method params (by simp)
  have hpersists : Persists w.shielded Q := fun _ _ _ _ hadm hu =>
    ⟨(hu.1.happen hadm).1, hu.2.happen hu.1 hadm (by simp)⟩
  have hkept := (hstart.await hpersists (Circumstances.result? v.system.threads.length) p.ahead).1
  rw [hr] at hkept
  have hpresent := hkept.present
  rw [hw] at hpresent
  obtain ⟨u, hu⟩ := Option.isSome_iff_exists.mp hpresent
  obtain ⟨t, ht, hdone⟩ := done_of_notifies (hkept.server u hu).2.notifies
  obtain ⟨r, hresult⟩ := result?_of_done ht hdone
  exact ⟨u, r, hu, hresult⟩

/-- **A notification returns**, once all that is ahead has happened and its thread has
taken its steps. If nothing is ahead, its server stays up and nobody gives up. -/
theorem notify_returns (hv : p.now.server = some v) (h : Serving v) (method : String) (params : Bytes) :
    ∃ more, (∀ x ∈ more, x.IsOwn) ∧ ((p.extend more).notify method params).1.lost = p.lost ∧
      (p.ahead = [] → v.steady = true → ∃ v',
        ((p.extend more).notify method params).1.now.server = some v' ∧ v'.steady = true ∧
        ((p.extend more).notify method params).1.now.cutsShort = p.now.cutsShort ∧
        ((p.extend more).notify method params).1.ahead = []) := by
  cases hr : Run.await (Circumstances.result? v.system.threads.length) p.ahead
    { p.now with server := some (v.fork (notifier p.now method params)) } with
  | mk w rest =>
      obtain ⟨rest, _ | r⟩ := rest
      · -- the call has not returned when all has happened that was ahead
        obtain ⟨u, r, hu, hresult⟩ := result?_of_await h rfl hr
        have hcall := call_of_await (p := p.extend (ownSteps v.system.threads.length)) hv
          ((await_append_of_none hr _).trans (await_ownSteps hu hresult))
        refine ⟨ownSteps v.system.threads.length, fun x hx => isOwn_of_mem_ownSteps hx, ?_⟩
        rw [notify_eq, now_extend, hcall]
        refine ⟨rfl, fun hahead hsteady => ?_⟩
        rw [hahead] at hr
        cases hr
        refine ⟨_, rfl, ?_, rfl, rfl⟩
        obtain rfl := Option.some.inj hu
        have hready := h.ready hsteady
        exact steady_of_check (t := notifier p.now method params) List.getElem?_concat_length rfl hsteady
          hready (h.idle.up hsteady hready)
      · have hcall := call_of_await hv hr
        refine ⟨[], by simp, ?_, ?_⟩
        · rw [extend_nil, notify_eq, hcall]
        · intro hahead
          rw [hahead] at hr
          cases hr

/-- **Events are passed on**, once all that is ahead has happened and the threads of the
calls have taken their steps. -/
theorem forwardAll_returns (selector : Selector) (hv : p.now.server = some v) (h : Serving v)
    (hp : p.lost = false) (calls : List (DocumentEvent × Document)) :
    ∃ more, (∀ x ∈ more, x.IsOwn) ∧ ((relay selector).forwardAll calls (p.extend more)).1.lost = false ∧
      (p.ahead = [] → v.steady = true → ∃ v',
        ((relay selector).forwardAll calls (p.extend more)).1.now.server = some v' ∧ v'.steady = true ∧
        ((relay selector).forwardAll calls (p.extend more)).1.now.cutsShort = p.now.cutsShort) := by
  induction calls generalizing p v with
  | nil =>
      refine ⟨[], by simp, ?_⟩
      rw [extend_nil]
      exact ⟨hp, fun _ hs => ⟨v, hv, hs, rfl⟩⟩
  | cons call calls ih =>
      obtain ⟨event, doc⟩ := call
      cases hsel : selector.selects doc with
      | false =>
          obtain ⟨more, hown, hl, hsteady⟩ := ih hv h hp
          refine ⟨more, hown, ?_⟩
          rw [forwardAll_cons, forward_unselected selector hsel]
          exact ⟨hl, hsteady⟩
      | true =>
          -- First what this notification needs to return, then what the others do.
          obtain ⟨first, hown, hl, hsteady⟩ := notify_returns hv h event.method (event.params doc)
          rw [hp] at hl
          obtain ⟨v₁, hv₁, hserving₁, -⟩ := notify_said (p := p.extend first) hv h event.method
            (event.params doc) hl
          obtain ⟨rest, hown', hl', hsteady'⟩ := ih hv₁ hserving₁ hl
          refine ⟨first ++ rest, ?_, ?_⟩
          · intro x hx
            exact (List.mem_append.mp hx).elim (hown x) (hown' x)
          · rw [forwardAll_cons, forward_selected selector hsel, extend_append, notify_extend hl]
            refine ⟨hl', fun hahead hs => ?_⟩
            obtain ⟨v₂, hv₂, hs₂, huncut, hahead₂⟩ := hsteady hahead hs
            obtain rfl := Option.some.inj (hv₁.symm.trans hv₂)
            obtain ⟨v₃, hv₃, hs₃, huncut'⟩ := hsteady' hahead₂ hs₂
            exact ⟨v₃, hv₃, hs₃, huncut'.trans huncut⟩

end Progress

/-! ### A faithful filter -/

/-- **A bridge tells a server that stays up of the documents its selector selects, and of
nothing else.** Whatever happens while the calls are under way, in the order of the calls
there is one frame for each that returned true. Every call for another document returns
false, and every call for a selected one returns true unless its caller gave up. A reader
of a frame finds the method of the event and all that the message carries of the document,
if the frame is not longer than a reader allows. And no call waits for anything but its
own steps. -/
theorem relay_faithful (selector : Selector) (calls : List (DocumentEvent × Document)) {p : Course}
    {v : Supervision} (hv : p.now.server = some v) (hserving : Serving v) (hp : p.lost = false) :
    (∀ r, (relay selector).forwardAll calls p = r → r.1.lost = false →
      ∃ v', r.1.now.server = some v' ∧ (v'.steady = true →
        List.Forall₂ (selector.Flags r.1.now.cutsShort) calls r.2 ∧
        spoken v'.lines = spoken v.lines ++ (forwarded calls r.2).map toldLine)) ∧
    (∀ call ∈ calls, Number.fitsInt64 call.2.version = true →
      (call.1.body call.2).length ≤ Frame.maxSize → call.1.Conveyed call.2 (call.1.frame call.2)) ∧
    (∀ call ∈ calls, (Utf8.symbols call.2.text).flatMap Symbol.bytes = call.2.text ∧
      (textOf call.2.text).toList = (Utf8.symbols call.2.text).map Symbol.toChar ∧
      (Utf8.isValid call.2.text = true → utf8 (textOf call.2.text) = call.2.text)) ∧
    ∃ more, (∀ x ∈ more, x.IsOwn) ∧ ((relay selector).forwardAll calls (p.extend more)).1.lost = false ∧
      (p.ahead = [] → v.steady = true → ∃ v',
        ((relay selector).forwardAll calls (p.extend more)).1.now.server = some v' ∧ v'.steady = true ∧
        ((relay selector).forwardAll calls (p.extend more)).1.now.cutsShort = p.now.cutsShort) := by
  refine ⟨?_, ?_, ?_, forwardAll_returns selector hv hserving hp calls⟩
  · rintro r rfl hl
    obtain ⟨v', hv', -, htells⟩ := forwardAll_said selector hv hserving calls hl
    exact ⟨v', hv', fun hs => (htells hs).2⟩
  · intro call _ hversion hsize
    exact call.1.conveyed_frame call.2 hversion hsize
  · intro call _
    exact ⟨Utf8.flatMap_bytes_symbols _, String.toList_ofList, Utf8.utf8_textOf⟩

/-! A server that was started, and is told of two of three documents. -/

/-- A run whose server runs, and nothing else is to happen. -/
def servedCourse : Course :=
  ((means localConditions localClient).activator.activate ⟨⟨[]⟩⟩ .run
    { now := { files := localFiles }, ahead := startUp }).1

theorem servedCourse_played :
    (servedCourse.lost, servedCourse.ahead.isEmpty, servedCourse.now.cutsShort,
      servedCourse.now.server.any fun v => v.system.state.isReady && v.steady) =
        (false, true, false, true) := by decide +kernel

theorem serving_servedCourse :
    ∃ v, servedCourse.now.server = some v ∧ v.steady = true ∧ Serving v := by
  have hplayed := servedCourse_played
  simp only [Prod.mk.injEq, Option.any_eq_true, Bool.and_eq_true] at hplayed
  obtain ⟨hl, -, -, v, hv, hready, hsteady⟩ := hplayed
  have hactivated := activate_activated localConditions localClient
    (p := { now := { files := localFiles }, ahead := startUp }) rfl rfl ⟨⟨[]⟩⟩ .run
  generalize hr : (means localConditions localClient).activator.activate ⟨⟨[]⟩⟩ .run
    { now := { files := localFiles }, ahead := startUp } = r at hactivated
  have hcourse : servedCourse = r.1 := congrArg Prod.fst hr
  rw [hcourse] at hl hv ⊢
  cases hactivated with
  | aborted server => rw [server] at hv; cases hv
  | attached sent holds =>
      obtain ⟨u, hu, htended⟩ := holds hl
      obtain rfl := Option.some.inj (hv.symm.trans hu)
      exact ⟨v, hv, hsteady, htended.idle, htended.used, fun _ => hready⟩

/-- Three documents, the second of another language. -/
def threeCalls : List (DocumentEvent × Document) := [
  (.opened, { uri := "file:///a.gbnf", languageId := "gbnf", version := 1, text := utf8 "a\n" ++ [0xFF] }),
  (.changed, { uri := "file:///b.txt", languageId := "text", version := 2, text := utf8 "b" }),
  (.saved, { uri := "file:///c.gbnf", languageId := "gbnf", version := 3 })]

def threeRun : Course × List (Except Error Bool) :=
  (relay (.files "gbnf")).forwardAll threeCalls (servedCourse.extend (passing 2 ++ passing 3))

theorem threeRun_played :
    (threeRun.1.lost, threeRun.1.now.cutsShort, threeRun.1.now.server.any (·.steady)) =
      (false, false, true) := by decide +kernel

/-- The server is told of the first and of the third, and can read both frames. -/
theorem threeRun_faithful : ∃ v v', servedCourse.now.server = some v ∧ Serving v ∧
    threeRun.1.now.server = some v' ∧ v'.steady = true ∧
    threeRun.2 = [.ok true, .ok false, .ok true] ∧
    spoken v'.lines = spoken v.lines ++ [threeCalls[0], threeCalls[2]].map toldLine ∧
    ∀ call ∈ threeCalls, call.1.Conveyed call.2 (call.1.frame call.2) := by
  have hplayed := threeRun_played
  have hlost := servedCourse_played
  simp only [Prod.mk.injEq, Option.any_eq_true] at hplayed hlost
  obtain ⟨hl, huncut, v', hv', hsteady⟩ := hplayed
  obtain ⟨v, hv, -, hserving⟩ := serving_servedCourse
  obtain ⟨hsaid, hconveyed, -, -⟩ := relay_faithful (.files "gbnf") threeCalls
    ((now_extend _ (passing 2 ++ passing 3)).symm ▸ hv) hserving
    ((lost_extend _ (passing 2 ++ passing 3)).trans hlost.1)
  obtain ⟨u, hu, htells⟩ := hsaid threeRun rfl hl
  obtain rfl := Option.some.inj (hv'.symm.trans hu)
  obtain ⟨hflags, hspoken⟩ := htells hsteady
  have hreturned : threeRun.2 = [.ok true, .ok false, .ok true] := by
    have hselects : (threeCalls.map fun call => (Selector.files "gbnf").selects call.2) =
        [true, false, true] := by decide +kernel
    rw [huncut] at hflags
    rw [Selector.eq_map_of_flags hflags, hselects]
    rfl
  rw [hreturned] at hspoken
  refine ⟨v, v', hv, hserving, hv', hsteady, hreturned, hspoken, ?_⟩
  intro call hcall
  have hfits : ∀ call ∈ threeCalls, Number.fitsInt64 call.2.version = true ∧
      (call.1.body call.2).length ≤ Frame.maxSize := by decide +kernel
  exact hconveyed call hcall (hfits call hcall).1 (hfits call hcall).2

/-- The frame of a long document is written, and cannot be read. -/
theorem relay_long {n : Nat} (h : Frame.maxSize < n + 142) (hfits : ((n + 142 : Nat) : Int) ≤ Number.int64Max) :
    ∃ (p : Course) (v v' : Supervision), p.now.server = some v ∧ Serving v ∧
      ((relay (.files "gbnf")).forwardAll [(.opened, DocumentEvent.lettered n)] p).1.lost = false ∧
      ((relay (.files "gbnf")).forwardAll [(.opened, DocumentEvent.lettered n)] p).2 = [.ok true] ∧
      ((relay (.files "gbnf")).forwardAll [(.opened, DocumentEvent.lettered n)] p).1.now.server = some v' ∧
      spoken v'.lines = spoken v.lines ++ [toldLine (.opened, DocumentEvent.lettered n)] ∧
      ¬ DocumentEvent.opened.Conveyed (DocumentEvent.lettered n)
        (DocumentEvent.opened.frame (DocumentEvent.lettered n)) := by
  have hplayed := servedCourse_played
  simp only [Prod.mk.injEq] at hplayed
  obtain ⟨hl, hahead, hcut, -⟩ := hplayed
  obtain ⟨v, hv, hsteady, hserving⟩ := serving_servedCourse
  -- What is ahead of the course is prolonged until the call has returned.
  obtain ⟨more, -, hl', hcalm⟩ :=
    forwardAll_returns (.files "gbnf") hv hserving hl [(.opened, DocumentEvent.lettered n)]
  obtain ⟨v', hv', hsteady', hcut'⟩ := hcalm (List.isEmpty_iff.mp hahead) hsteady
  obtain ⟨u, hu, -, htells⟩ := forwardAll_said (p := servedCourse.extend more) (.files "gbnf")
    ((now_extend _ more).symm ▸ hv) hserving [(.opened, DocumentEvent.lettered n)] hl'
  obtain rfl := Option.some.inj (hv'.symm.trans hu)
  obtain ⟨-, hflags, hspoken⟩ := htells hsteady'
  have hselects : (Selector.files "gbnf").selects (DocumentEvent.lettered n) = true :=
    show (Selector.files "gbnf").selects (DocumentEvent.lettered 0) = true by decide +kernel
  rw [hcut', hcut] at hflags
  have hreturned := Selector.eq_map_of_flags hflags
  simp only [List.map_cons, List.map_nil, hselects] at hreturned
  rw [hreturned] at hspoken
  refine ⟨servedCourse.extend more, v, v', (now_extend _ more).symm ▸ hv, hserving, hl', hreturned, hv', hspoken, ?_⟩
  -- The frame is longer than a reader takes.
  rw [← DocumentEvent.length_body_lettered] at h hfits
  exact DocumentEvent.not_conveyed _ _ h hfits

/-- A document of 64 MiB is too long. -/
theorem relay_oversized : ∃ (p : Course) (v v' : Supervision), p.now.server = some v ∧ Serving v ∧
    ((relay (.files "gbnf")).forwardAll [(.opened, DocumentEvent.lettered Frame.maxSize)] p).1.lost = false ∧
    ((relay (.files "gbnf")).forwardAll [(.opened, DocumentEvent.lettered Frame.maxSize)] p).2 = [.ok true] ∧
    ((relay (.files "gbnf")).forwardAll [(.opened, DocumentEvent.lettered Frame.maxSize)] p).1.now.server =
      some v' ∧
    spoken v'.lines = spoken v.lines ++ [toldLine (.opened, DocumentEvent.lettered Frame.maxSize)] ∧
    ¬ DocumentEvent.opened.Conveyed (DocumentEvent.lettered Frame.maxSize)
      (DocumentEvent.opened.frame (DocumentEvent.lettered Frame.maxSize)) :=
  relay_long (Nat.lt_add_of_pos_right (by decide)) (by decide)

end Run

end LanguageClient
