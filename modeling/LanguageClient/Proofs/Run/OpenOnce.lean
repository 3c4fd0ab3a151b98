import LanguageClient.Proofs.FileSystem.Walk
import LanguageClient.Proofs.Run.Activation
import LanguageClient.Proofs.Run.Dialogue
import LanguageClient.Proofs.Run.Openings

/-! # How often a document is opened.

What the client passes on in a run was sent by it, each notification once at most, in
the order in which it was sent. This is so at every time of a run, also if it waits
forever (`Upheld`). So the server is told that a document is opened at most once for each
file argument that stands for its address (`opened_once`). Two arguments may be spellings
of one address. Then nothing closes the document in between (`spelledTwice_reopened`). -/

namespace LanguageClient.Run

open Supervisor

/-! ### What is passed on -/

/-- What the client passes on, by its purpose. -/
def passed (lines : List Line) : List Purpose := (purposes lines).filter Purpose.isPassed

theorem passed_append (lines more : List Line) : passed (lines ++ more) = passed lines ++ passed more := by
  rw [passed, purposes_append, List.filter_append]
  rfl

theorem passed_spoken (lines : List Line) : passed (spoken lines) = passed lines := by
  rw [passed, purposes_spoken]
  rfl

theorem passed_eq_nil {lines : List Line} (h : ∀ l ∈ lines, isPassed l = false) : passed lines = [] := by
  refine List.filter_eq_nil_iff.mpr ?_
  intro p hp
  obtain ⟨frame, hline⟩ := mem_purposes.mp hp
  exact Bool.eq_false_iff.mp (h _ hline)

/-- What announces something is passed on. -/
theorem countP_passed (event : DocumentEvent) (uri : String) (lines : List Line) :
    (passed lines).countP (announces event uri) = (purposes lines).countP (announces event uri) := by
  rw [passed, List.countP_filter]
  refine List.countP_congr ?_
  intro p _
  rw [Bool.and_eq_true]
  exact ⟨And.left, fun h => ⟨h, isPassed_of_announces h⟩⟩

/-- That nothing is opened again can be seen from the messages passed on. -/
theorem unreopened_passed (uri : String) (lines : List Line) :
    Unreopened uri (passed lines) ↔ Unreopened uri (purposes lines) := by
  rw [Unreopened, passed, List.pairwise_filter]
  refine List.Pairwise.iff ?_
  intro p q
  constructor
  · intro h hclosed
    by_contra hopened
    rw [Bool.not_eq_false] at hopened
    have hnot := h (isPassed_of_announces hclosed) (isPassed_of_announces hopened) hclosed
    rw [hopened] at hnot
    cases hnot
  · exact fun h _ _ => h

theorem purposes_written (purpose : Purpose) (es : List Effect) :
    purposes (written (some purpose) es) = List.replicate (es.filterMap Effect.frame?).length purpose := by
  rw [purposes, written, List.filterMap_map]
  show List.filterMap (some ∘ fun _ => purpose) _ = _
  rw [List.filterMap_eq_map, List.map_const']

/-- A notification is written once at most, as a whole or in part. -/
theorem frames_send {g : Settings} {i : Nat} {t : Thread} {s : State} {p : Progress} {method : String}
    {params : Bytes} (ht : t.task = .notify method (.json params) .send) (h : step g i t s = some p) :
    (p.effects.filterMap Effect.frame?).length ≤ 1 := by
  simp only [step, ht, notifyStep] at h
  cases hc : s.connection with
  | none =>
      rw [hc] at h
      cases h
      exact Nat.zero_le 1
  | some c =>
      have hsends := (Rpc.Connection.notify_notifies (c := c) method (.json params) t.abandoned).sends
      cases hn : c.notify method (.json params) t.abandoned with
      | mk c' rest =>
          obtain ⟨es, failure⟩ := rest
          rw [hn] at hsends
          simp only [hc, hn] at h
          cases h
          rw [List.filterMap_append, (withConnection_eq c' es s).2.2]
          -- One notification is one frame, whole, partial or none.
          generalize es.filterMap Rpc.Effect.frame? = frames at hsends
          generalize Option.isNone _ = whole at hsends
          cases hsends with
          | nothing => exact Nat.zero_le 1
          | part | whole => exact Nat.le_refl 1

section Passing

variable {i : Nat} {method : String} {params : Bytes} {said : List Purpose} {v : Supervision}

/-- What holds of thread `i` while it sends a notification. Before that, `said` was
passed on. -/
structure Passing (i : Nat) (method : String) (params : Bytes) (said : List Purpose)
    (v : Supervision) : Prop where
  thread : ∃ t, v.system.threads[i]? = some t ∧
    ((∃ q, t.task = .notify method (.json params) q) ∧ passed v.lines = said ∨ t.task = .done)
  once : (passed v.lines).Sublist (said ++ [.passed method (.json params)])

theorem Passing.happen {e : Event} {w : Circumstances} (h : Passing i method params said v)
    (ha : Alone i v) (hadm : w.admits v e = true) : Passing i method params said (v.happen e) := by
  obtain ⟨t, ht, hstands⟩ := h.thread
  rcases (ha.happen hadm).2 with hapart | ⟨u, p, hmoves⟩
  · obtain ⟨t', ht', htask, -⟩ := hapart.thread t ht
    have hsame : passed (v.happen e).lines = passed v.lines := by
      rw [← passed_spoken, hapart.spoken, passed_spoken]
    refine ⟨⟨t', ht', ?_⟩, hsame ▸ h.once⟩
    rwa [htask, hsame]
  · obtain rfl := Option.some.inj (ht.symm.trans hmoves.thread)
    rcases hstands with ⟨⟨q, hq⟩, hsaid⟩ | hdone
    · have hpassed : passed (v.happen e).lines = said ++ passed (written t.task.purpose? p.effects) := by
        rw [← passed_spoken, hmoves.spoken, passed_append, passed_spoken, passed_spoken, hsaid]
      cases q with
      -- The check writes nothing, so what was passed stays the same.
      | check =>
          have hnothing : passed (v.happen e).lines = said := by
            rw [hpassed, hq]
            simp [Task.purpose?, passed]
          obtain ⟨-, -, ⟨-, htask, -⟩ | ⟨-, htask, -⟩⟩ := check_step hq hmoves.step
          · refine ⟨⟨_, hmoves.after, Or.inl ⟨⟨_, htask⟩, hnothing⟩⟩, ?_⟩
            exact hnothing.symm ▸ List.sublist_append_left said _
          · refine ⟨⟨_, hmoves.after, Or.inr htask⟩, ?_⟩
            exact hnothing.symm ▸ List.sublist_append_left said _
      -- The send writes one line at most, and returns.
      | send =>
          obtain ⟨-, -, htask, -⟩ := send_step hq hmoves.step
          refine ⟨⟨_, hmoves.after, Or.inr htask⟩, ?_⟩
          rw [hpassed]
          refine (List.Sublist.refl said).append (List.filter_sublist.trans ?_)
          rw [hq, Task.purpose?, purposes_written]
          exact (List.replicate_sublist_replicate _).mpr (frames_send hq hmoves.step)
    · exact absurd hdone hmoves.task_ne_done

end Passing

/-! ### The course of a run -/

/-- The run goes on in one directory. -/
structure Home (dir : Location) (p : Course) : Prop where
  files : p.now.files.workingDirectory = dir
  saves : ∀ place, .save place ∈ p.ahead → ∀ fs : FileSystem,
    (place fs).workingDirectory = fs.workingDirectory
  ended : p.lost = true → p.ahead = []

/-- All that was passed on was sent, each notification once at most. -/
structure Upheld (dir : Location) (p : Course) : Prop extends Home dir p where
  server : ∃ v, p.now.server = some v ∧ (p.lost = false → Idle v) ∧
    (passed v.lines).Sublist (p.now.sent.map Sent.purpose)

section Upheld

variable {dir : Location} {p : Course}

theorem undergo_directory {w : Circumstances} {i : Incident}
    (h : ∀ place, i = .save place → ∀ fs : FileSystem, (place fs).workingDirectory = fs.workingDirectory) :
    (w.undergo i).files.workingDirectory = w.files.workingDirectory := by
  cases i with
  | save place => exact h place rfl w.files
  | event e =>
      simp only [Circumstances.undergo]
      split
      · rfl
      · split <;> rfl
  | _ => rfl

/-- What happens while a run waits leaves it where it is. -/
theorem await_directory {α : Type} (ready : Circumstances → Incident → Option α) {ahead : List Incident}
    (hsaves : ∀ place, .save place ∈ ahead → ∀ fs : FileSystem,
      (place fs).workingDirectory = fs.workingDirectory) (w : Circumstances) :
    (Run.await ready ahead w).1.files.workingDirectory = w.files.workingDirectory ∧
      (Run.await ready ahead w).2.1 ⊆ ahead ∧
      ((Run.await ready ahead w).2.2 = none → (Run.await ready ahead w).2.1 = []) := by
  induction ahead generalizing w with
  | nil => exact ⟨rfl, fun _ h => h, fun _ => rfl⟩
  | cons i ahead ih =>
      simp only [Run.await]
      cases ready w i with
      | some a => exact ⟨rfl, List.subset_cons_self i ahead, by simp⟩
      | none =>
          have hi : (w.undergo i).files.workingDirectory = w.files.workingDirectory := by
            refine undergo_directory ?_
            rintro place rfl
            exact hsaves place List.mem_cons_self
          obtain ⟨hfiles, hsub, hnone⟩ :=
            ih (fun place hp => hsaves place (List.mem_cons_of_mem i hp)) (w.undergo i)
          exact ⟨hfiles.trans hi, fun x hx => List.mem_cons_of_mem i (hsub hx), hnone⟩

/-- Waiting does not leave the directory. -/
theorem Home.await {α : Type} (ready : Circumstances → Incident → Option α) (h : Home dir p) :
    Home dir (p.await ready).1 := by
  obtain ⟨hfiles, hsub, hnone⟩ := await_directory ready h.saves p.now
  rw [h.files] at hfiles
  simp only [Course.await]
  cases hr : Run.await ready p.ahead p.now with
  | mk now rest =>
      obtain ⟨ahead, result⟩ := rest
      rw [hr] at hfiles hsub hnone
      have hsaves := fun place hp => h.saves place (hsub hp)
      cases result with
      | none => exact ⟨hfiles, hsaves, fun _ => hnone rfl⟩
      | some a =>
          refine ⟨hfiles, hsaves, ?_⟩
          intro hl
          rw [h.ended hl] at hsub
          exact List.subset_nil.mp hsub

theorem Home.call (t : Thread) (h : Home dir p) : Home dir (p.call t).1 := by
  unfold Course.call
  split
  · exact h
  · next v hv =>
      have hforked : Home dir { p with now.server := some (v.fork t) } := ⟨h.files, h.saves, h.ended⟩
      exact hforked.await _

/-- In a run that waits forever nothing happens any more. -/
theorem await_ended {α : Type} (ready : Circumstances → Incident → Option α) (h : p.ahead = []) :
    (p.await ready).1 = { p with lost := true } := by
  cases p
  cases h
  rfl

theorem Upheld.await {α : Type} (ready : Circumstances → Incident → Option α) (h : Upheld dir p) :
    Upheld dir (p.await ready).1 := by
  obtain ⟨v, hv, hidle, hpassed⟩ := h.server
  refine ⟨h.toHome.await ready, ?_⟩
  cases hl : p.lost with
  | true =>
      rw [await_ended ready (h.ended hl)]
      exact ⟨v, hv, by simp, hpassed⟩
  | false =>
      let Q : Supervision → Prop := fun u => Idle u ∧ passed u.lines = passed v.lines
      -- Nothing of what may happen while waiting passes a line.
      have hQ : Persists p.now.shielded Q := by
        intro w u e _ hadm hu
        obtain ⟨hidle', hapart⟩ := hu.1.happen hadm
        refine ⟨hidle', ?_⟩
        rw [← passed_spoken, hapart.spoken, passed_spoken, hu.2]
      have hnow : ∀ u, p.now.server = some u → Q u := by
        intro u hu
        obtain rfl := Option.some.inj (hv.symm.trans hu)
        exact ⟨hidle hl, rfl⟩
      have hkept := (Course.await_kept p ready hQ hnow).1
      have hpresent := hkept.present
      rw [hv, Option.isSome_some] at hpresent
      obtain ⟨v', hv'⟩ := Option.isSome_iff_exists.mp hpresent
      obtain ⟨hidle', hsame⟩ := hkept.server v' hv'
      refine ⟨v', hv', fun _ => hidle', ?_⟩
      rw [hsame, hkept.sent]
      exact hpassed

/-- A call, by what holds of the supervisor while it goes on. -/
theorem call_passed {v : Supervision} (hv : p.now.server = some v) (t : Thread)
    (hended : p.lost = true → p.ahead = []) {Q : Supervision → Prop} (more : List Purpose)
    (hQ : Persists p.now.shielded Q) (hfork : p.lost = false → Q (v.fork t))
    (hpassed : ∀ u, Q u → (passed u.lines).Sublist (passed v.lines ++ more))
    (hidle : ∀ u r, Q u → u.result? v.system.threads.length = some r → Idle u) :
    ∃ v', (p.call t).1.now.server = some v' ∧ ((p.call t).1.lost = false → Idle v') ∧
      (passed v'.lines).Sublist (passed v.lines ++ more) := by
  cases hl : p.lost with
  | true =>
      have hcall : (p.call t).1 = { p with now.server := some (v.fork t), lost := true } := by
        simp only [Course.call, hv]
        exact await_ended _ (hended hl)
      rw [hcall]
      exact ⟨v.fork t, rfl, by simp, List.sublist_append_left _ _⟩
  | false =>
      obtain ⟨v', hv', hQ', -, -, hgoes⟩ := Course.call_kept hv t hQ (hfork hl)
      exact ⟨v', hv', fun hl' => hidle v' _ hQ' (hgoes hl').2, hpassed v' hQ'⟩

/-- **Starting the server** passes nothing on. -/
theorem Home.start {v : Supervision} (h : Home dir p) (hv : p.now.server = some v) (hidle : Idle v)
    (hlines : v.lines = []) (mode : LaunchMode) (cancelled hasty : Bool) :
    Upheld dir (p.call { task := .start mode .enter, cancelled, hasty }).1 := by
  let Q : Supervision → Prop := fun u =>
    Alone v.system.threads.length u ∧ Starting v.system.threads.length u
  have hQ : Persists p.now.shielded Q := persists_alone (fun _ _ _ h => h.happen) _
  have hfork : Q (v.fork { task := .start mode .enter, cancelled, hasty }) := by
    obtain ⟨halone, hthread⟩ := hidle.fork (.start mode .enter) rfl cancelled hasty
    exact ⟨halone, ⟨_, hthread, Or.inl ⟨mode, rfl⟩⟩, by simp [Supervision.fork, hlines]⟩
  have hnothing : ∀ u, Q u → (passed u.lines).Sublist (passed v.lines ++ []) := by
    intro u hu
    rw [← passed_spoken u.lines, passed_eq_nil hu.2.unpassed]
    exact List.nil_sublist _
  obtain ⟨v', hv', hidle', hpassed⟩ := call_passed hv _ h.ended [] hQ (fun _ => hfork) hnothing
    fun u r hu hr => (hu.2.tended hu.1 hr).idle
  refine ⟨h.call _, v', hv', hidle', ?_⟩
  rw [hlines] at hpassed
  exact hpassed.trans (List.nil_sublist _)

/-- **Stopping the server** passes nothing on. -/
theorem Upheld.stop (h : Upheld dir p) (hasty : Bool) :
    Upheld dir (p.call { task := .stop .acquire, hasty }).1 := by
  obtain ⟨v, hv, hidle, hsent⟩ := h.server
  let Q : Supervision → Prop := fun u =>
    Alone v.system.threads.length u ∧ Stopping v.system.threads.length (spoken v.lines)
      (v.fork { task := .stop .acquire, hasty }) u
  have hQ : Persists p.now.shielded Q := persists_alone (fun _ _ _ h => h.happen) _
  have hfork (hl : p.lost = false) : Q (v.fork { task := .stop .acquire, hasty }) := by
    obtain ⟨halone, hthread⟩ := (hidle hl).fork (.stop .acquire) rfl false hasty
    exact ⟨halone, ⟨_, hthread, Or.inl ⟨_, rfl⟩⟩, ⟨[], by simp [Supervision.fork], by simp⟩,
      ⟨_, _, Steps.refl⟩⟩
  -- A stop passes no notification at all.
  have hnothing : ∀ u, Q u → (passed u.lines).Sublist (passed v.lines ++ []) := by
    intro u hu
    obtain ⟨after, hspoken, hafter⟩ := hu.2.unpassed
    rw [← passed_spoken u.lines, hspoken, passed_append, passed_spoken, passed_eq_nil hafter]
  have hreturned : ∀ u r, Q u → u.result? v.system.threads.length = some r → Idle u := by
    intro u r hu hr
    obtain ⟨t, ht, -⟩ := hu.2.thread
    exact hu.1.idle_of_result? ht hr
  obtain ⟨v', hv', hidle', hpassed⟩ := call_passed hv _ h.ended [] hQ hfork hnothing hreturned
  refine ⟨h.toHome.call _, v', hv', hidle', ?_⟩
  rw [List.append_nil] at hpassed
  rw [(call_sent _ p).1]
  exact hpassed.trans hsent

/-- **Sending a notification** passes it on once at most. -/
theorem Upheld.notify (h : Upheld dir p) (method : String) (params : Bytes) :
    Upheld dir (p.notify method params).1 := by
  obtain ⟨v, hv, hidle, hsent⟩ := h.server
  let t : Thread :=
    { task := .notify method (.json params) .check
      cancelled := p.now.interrupted && !p.now.shielded }
  let Q : Supervision → Prop := fun u =>
    Alone v.system.threads.length u ∧
      Passing v.system.threads.length method params (passed v.lines) u
  have hQ : Persists p.now.shielded Q := persists_alone (fun _ _ _ h => h.happen) _
  have hfork (hl : p.lost = false) : Q (v.fork t) := by
    obtain ⟨halone, hthread⟩ := (hidle hl).fork t.task rfl t.cancelled false
    exact ⟨halone, ⟨_, hthread, Or.inl ⟨⟨_, rfl⟩, rfl⟩⟩, List.sublist_append_left _ _⟩
  have hreturned : ∀ u r, Q u → u.result? v.system.threads.length = some r → Idle u := by
    intro u r hu hr
    obtain ⟨t, ht, -⟩ := hu.2.thread
    exact hu.1.idle_of_result? ht hr
  obtain ⟨v', hv', hidle', hpassed⟩ :=
    call_passed hv t h.ended _ hQ hfork (fun u hu => hu.2.once) hreturned
  have hhome := h.toHome.call t
  refine ⟨⟨hhome.files, hhome.saves, hhome.ended⟩, v', hv', hidle', ?_⟩
  show (passed v'.lines).Sublist (((p.call t).1.now.sent ++ _).map Sent.purpose)
  rw [(call_sent t p).1, List.map_append]
  exact hpassed.trans (hsent.append (List.Sublist.refl _))

end Upheld

/-! ### Runs -/

section Runs

variable (k : Conditions) (c : Client) {dir : Location}

theorem Upheld.shield {p : Course} (h : Upheld dir p) : Upheld dir ((means k c).shield p) :=
  ⟨⟨h.files, h.saves, h.ended⟩, h.server⟩

/-- The ledger of a course that is upheld. -/
def homeLedger (dir : Location) : Ledger (means k c) Course.notify where
  toRecord := { record with holds := Upheld dir }
  send_adds method params p := ⟨(notify_adds method params p).sent, fun h => h.notify method params⟩
  send_shielded := notify_shielded
  say_adds _ p := .refl _ p
  debug_adds _ p := .refl _ p
  next_adds once p :=
    ⟨(await_adds (Circumstances.happening? once) p).sent,
      fun h => h.await (Circumstances.happening? once)⟩
  late_adds p := ⟨(await_adds Circumstances.late? p).sent, fun h => h.await Circumstances.late?⟩
  shield_adds _ := ⟨(List.append_nil _).symm, fun h => h.shield k c⟩
  shield_shielded _ := rfl

/-- Nothing that happens to files changes the working directory. -/
structure StaysHome (ahead : List Incident) : Prop where
  provision : ∀ b interrupted fs,
    (k.provision c b interrupted fs).1.workingDirectory = fs.workingDirectory
  saves : ∀ place, .save place ∈ ahead → ∀ fs : FileSystem,
    (place fs).workingDirectory = fs.workingDirectory

variable {k c} {p : Course}

theorem Home.provide (h : Home dir p) {ahead : List Incident} (hstays : StaysHome k c ahead) (b : Binary) :
    Home dir (provide k c b p).1 := by
  have hawait := h.await Circumstances.anyway?
  exact ⟨(hstays.provision _ _ _).trans hawait.files, hawait.saves, hawait.ended⟩

/-- The server of a session is started in the directory of the run. -/
theorem Home.launch (h : Home dir p) (b : Binary) (mode : LaunchMode) : Upheld dir (launch k c b mode p).1 := by
  have hsupervised : Home dir (supervised k c b p) := ⟨h.files, h.saves, h.ended⟩
  exact hsupervised.start rfl (idle_observed _) rfl mode _ _

theorem Home.prepare (h : Home dir p) {ahead : List Incident} (hstays : StaysHome k c ahead)
    (resolved : Except Error Binary) : Home dir ((activator k c resolved true).prepare p).1 := by
  cases resolved with
  | error e => exact h
  | ok b => exact h.provide hstays b

/-- **While the server runs**, documents are opened first. -/
theorem Upheld.serve (h : Upheld dir p) (hsent : p.now.sent = []) (o : Options) :
    Upheld dir (Run.serve (means k c) o (Ledger.bridge c.selector Course.notify) p).1 ∧
      ∃ tried later, Opening (addresses c dir o.files) tried
        (Run.serve (means k c) o (Ledger.bridge c.selector Course.notify) p).1.now.sent later := by
  obtain ⟨tried, sent, later, hadds, hopening⟩ :=
    (homeLedger k c dir).serve_opening (fun w hw => hw.files) o h
  refine ⟨hadds.holds h, tried, later, ?_⟩
  have hsaid : (Run.serve (means k c) o (Ledger.bridge c.selector Course.notify) p).1.now.sent = sent :=
    hadds.sent.trans (congrArg (· ++ sent) hsent)
  rw [hsaid]
  exact hopening

/-- A session without a server is deactivated without a call. -/
theorem deactivate_detached (s : Session Unit (Bridge Course)) (hphase : s.phase ≠ .deactivated)
    (hserver : s.server = none) (p : Course) : ((means k c).activator.deactivate s p).1 = p := by
  rw [(deactivate_eq k c hphase p).2.2, if_pos hserver]

/-- A session with a server is deactivated by a call that stops it. -/
theorem deactivate_attached (s : Session Unit (Bridge Course)) (hphase : s.phase ≠ .deactivated)
    (hserver : s.server = some ()) (p : Course) : ((means k c).activator.deactivate s p).1 =
      (p.call { task := .stop .acquire, hasty := k.hasty }).1 := by
  rw [(deactivate_eq k c hphase p).2.2, if_neg (by rw [hserver]; simp)]

/-- **Before a run ends its session** it has a server only if one was started, and then
documents were opened first. -/
theorem run_upheld (o : Options) (id : SessionId) {ahead : List Incident} (hstays : StaysHome k c ahead)
    (h : Home dir p) (hserver : p.now.server = none) (hsent : p.now.sent = []) :
    (run (means k c) o id p).1.now.server = none ∨
      ∃ q tried later, Upheld dir q ∧ Opening (addresses c dir o.files) tried q.now.sent later ∧
        (run (means k c) o id p).1 = (q.call { task := .stop .acquire, hasty := k.hasty }).1 := by
  obtain ⟨hserver', hsent'⟩ := prepare_kept k c hserver
  have hhome := h.prepare hstays c.binary
  rw [hsent] at hsent'
  change ((activator k c c.binary true).prepare p).1.now.server = none at hserver'
  change ((activator k c c.binary true).prepare p).1.now.sent = [] at hsent'
  cases hr : (activator k c c.binary true).prepare p with
  | mk q prepared =>
      rw [hr] at hserver' hsent' hhome
      cases prepared with
      -- Without a binary there is no server, and deactivating changes nothing.
      | error e =>
          have hactivate : (means k c).activator.activate id o.mode p = (q, { id }, some e) :=
            activate_of_prepare_error id o.mode hr
          refine Or.inl ?_
          simp only [run, hactivate]
          split <;> rw [deactivate_detached _ (by simp) rfl] <;> exact hserver'
      | ok b =>
          have hactivate : (means k c).activator.activate id o.mode p =
              ((launch k c b o.mode q).1, (activator k c c.binary true).attached id b (),
                (launch k c b o.mode q).2) := activate_of_prepare_ok id o.mode hr
          have hlaunch : Upheld dir (launch k c b o.mode q).1 := hhome.launch b o.mode
          have hnothing : (launch k c b o.mode q).1.now.sent = [] := (call_sent _ _).1.trans hsent'
          refine Or.inr ?_
          simp only [run, hactivate]
          cases hfailure : (launch k c b o.mode q).2 with
          -- The launch failed: nothing has been opened, and the session is torn down.
          | some e =>
              have hopening : Opening (addresses c dir o.files) [] (launch k c b o.mode q).1.now.sent [] := by
                rw [hnothing]
                exact opening_nil _
              refine ⟨_, [], [], hlaunch.shield k c, hopening, ?_⟩
              dsimp only
              split <;> exact deactivate_attached _ (by simp [Activator.attached]) rfl _
          | none =>
              obtain ⟨hserved, tried, later, hopening⟩ := hlaunch.serve (k := k) (c := c) hnothing o
              exact ⟨_, tried, later, hserved.shield k c, hopening,
                deactivate_attached _ (by simp [Activator.attached]) rfl _⟩

/-- **How often the server is told that a document is opened**, in every run, and at
every time of it: at most once for each file argument that stands for its address. So
if no more than one does, the document is not opened again before it is closed. For a
document that is opened more than once there is no such discipline, as nothing is opened
after it was closed. -/
theorem opened_once (o : Options) (id : SessionId) (files : FileSystem) (interrupted : Bool)
    (ahead : List Incident) (hstays : StaysHome k c ahead)
    {r : Course × Session Unit (Bridge Course) × Option Error} {v : Supervision}
    (h : run (means k c) o id { now := { files, interrupted }, ahead } = r)
    (hv : r.1.now.server = some v) (uri : String) :
    (purposes v.lines).countP (announces .opened uri) ≤
        (addresses c files.workingDirectory o.files).count uri ∧
      ((addresses c files.workingDirectory o.files).count uri ≤ 1 → Disciplined uri (purposes v.lines)) ∧
      (Disciplined uri (purposes v.lines) ↔ (purposes v.lines).countP (announces .opened uri) ≤ 1) := by
  have hhome : Home files.workingDirectory { now := { files, interrupted }, ahead } :=
    ⟨rfl, hstays.saves, by simp⟩
  have hends := run_upheld o id hstays hhome rfl rfl
  rw [h] at hends
  obtain hnone | ⟨q, tried, later, hupheld, hopening, hstopped⟩ := hends
  · rw [hnone] at hv
    cases hv
  obtain ⟨v', hv', -, hpassed⟩ := (hupheld.stop k.hasty).server
  rw [hstopped] at hv
  obtain rfl := Option.some.inj (hv.symm.trans hv')
  rw [(call_sent _ q).1] at hpassed
  -- At most one line for each address, even if some have not gone out.
  have hcount : (purposes v.lines).countP (announces .opened uri) ≤
      (addresses c files.workingDirectory o.files).count uri := by
    rw [← countP_passed]
    exact (hpassed.countP_le).trans (hopening.countP_le uri)
  have hunreopened : Unreopened uri (purposes v.lines) := by
    rw [← unreopened_passed]
    exact (hopening.unreopened uri).sublist hpassed
  refine ⟨hcount, ?_, fun hd => hd.countP_le hunreopened, disciplined_of_countP_le⟩
  intro hone
  exact disciplined_of_countP_le (hcount.trans hone)

end Runs

/-! ### One edited document, and one document that is spelled in two ways -/

theorem editedRun_staysHome : StaysHome localConditions localClient editedAhead where
  provision := fun _ _ _ => rfl
  saves := by
    intro place hplace fs
    have hput : place = fun fs => fs.put ["a.gbnf"] (.file (utf8 "z") 0o644) := by
      simpa [editedAhead, startUp, passing, windUp, steps] using hplace
    rw [hput]
    exact FileSystem.workingDirectory_put

/-- The document that is edited is opened once at most, however often it is edited. -/
theorem editedRun_opened_once :
    ∃ v, editedRun.1.now.server = some v ∧ (spoken v.lines).length = 8 ∧
      (purposes v.lines).countP (announces .opened "file:///a.gbnf") ≤ 1 ∧
      Disciplined "file:///a.gbnf" (purposes v.lines) := by
  obtain ⟨v, hv, hplayed⟩ := editedRun_played
  simp only [Prod.mk.injEq] at hplayed
  obtain ⟨-, -, hlength⟩ := hplayed
  obtain ⟨hcount, hdisciplined, -⟩ := opened_once { files := ["/a.gbnf"] } ⟨⟨[]⟩⟩ localFiles false
    editedAhead editedRun_staysHome (rfl : _ = editedRun) hv "file:///a.gbnf"
  have hone : (addresses localClient localFiles.workingDirectory ["/a.gbnf"]).count "file:///a.gbnf" = 1 := by
    decide +kernel
  exact ⟨v, hv, hlength, hcount.trans hone.le, hdisciplined hone.le⟩

/-- Both arguments are spellings of one path. -/
def spelledTwice : Course × Session Unit (Bridge Course) × Option Error :=
  run (means localConditions localClient) { files := ["/a.gbnf", "/./a.gbnf"] } ⟨⟨[]⟩⟩
    { now := { files := localFiles }
      ahead := startUp ++ passing 2 ++ passing 3 ++ [.interrupt, .proceed, .proceed] ++
        passing 4 ++ passing 5 ++ windUp 6 }

theorem spelledTwice_played :
    ∃ v, spelledTwice.1.now.server = some v ∧
      (spelledTwice.1.lost, (purposes v.lines).countP (announces .opened "file:///a.gbnf"),
        decide (Unreopened "file:///a.gbnf" (purposes v.lines))) = (false, 2, true) :=
  Option.map_eq_some_iff.mp (by decide +kernel)

/-- The document is opened a second time, and nothing has closed it. -/
theorem spelledTwice_reopened :
    ∃ v, spelledTwice.1.now.server = some v ∧ ¬ Disciplined "file:///a.gbnf" (purposes v.lines) := by
  obtain ⟨v, hv, hplayed⟩ := spelledTwice_played
  simp only [Prod.mk.injEq, decide_eq_true_eq] at hplayed
  obtain ⟨-, htwice, hunreopened⟩ := hplayed
  refine ⟨v, hv, ?_⟩
  intro h
  have hone := h.countP_le hunreopened
  omega

end LanguageClient.Run
