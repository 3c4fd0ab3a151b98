import LanguageClient.Proofs.Supervisor.Lifecycle

/-! # What the steps of a supervisor disclose.

Some effects tell what has become of a server: that a call has returned, the line for the
log about a server that has exited on its own, and an error shown to the user. Everything
else is minor. A server can have anything shown to the user as an error, but not without a
line for the log right before it, which marks it as the server's.

* `Effect.Minor`       — an effect that tells none of this;
* `Unalarming es`      — minor effects, and messages of the server;
* `Aside s (s', es)`   — an operation that shows nothing else;
* `step_discloses`     — a step of a thread shows nothing else, or it is the thread's last;
* `step_exited`        — the exit code of a process that has ended stays what it is;
* `Step.stands_or_advances` — a step leaves a thread where it stands, or is its own. -/

namespace LanguageClient.Supervisor

variable {g : Settings} {s s' : State} {i : Nat} {t : Thread} {p : Progress}

/-! ### Minor effects -/

/-- The words with which the log says that the server has exited on its own. -/
def crashWords : String := "Language server exited unexpectedly with code "

/-- What is said when the server has exited on its own: to the log, and to the user. -/
def crashReport (code : Int) : List Effect :=
  [logged (crashWords ++ Number.intText code),
    .report (.error ("GBNF LSP server exited unexpectedly (code " ++ Number.intText code ++ ")"))]

/-- Effects that say neither that a call has returned nor that the server has exited on its
own, and show the user no error. -/
def Effect.Minor : Effect → Prop
  | .returned _ _ | .report (.error _) => False
  | .report (.line text) => crashWords.toList.isPrefixOf text.toList = false
  | .report (.octets line) => (utf8 crashWords).isPrefixOf line = false
  | _ => True

/-- The line for the log about an error that the server wants the user to see. -/
def errorMessageLine (text : String) : Report := ServerMessage.line { type := 1, message := text }

/-- Minor effects, and errors that the server wants the user to see, each right behind its
line for the log. -/
inductive Unalarming : List Effect → Prop where
  | nil : Unalarming []
  | minor {e : Effect} {es : List Effect} (h : e.Minor) (rest : Unalarming es) : Unalarming (e :: es)
  | message (text : String) {es : List Effect} (rest : Unalarming es) :
      Unalarming (.report (errorMessageLine text) :: .report (.error text) :: es)

theorem Unalarming.of_minor {es : List Effect} (h : ∀ e ∈ es, e.Minor) : Unalarming es := by
  induction es with
  | nil => exact .nil
  | cons e es ih =>
      obtain ⟨he, hes⟩ := List.forall_mem_cons.mp h
      exact .minor he (ih hes)

theorem Unalarming.append {es more : List Effect} (h : Unalarming es) (hm : Unalarming more) :
    Unalarming (es ++ more) := by
  induction h with
  | nil => exact hm
  | minor he _ ih => exact .minor he ih
  | message text _ ih => exact .message text ih

theorem Unalarming.flatMap {α : Type} {f : α → List Effect} {xs : List α}
    (h : ∀ x ∈ xs, Unalarming (f x)) : Unalarming (xs.flatMap f) := by
  induction xs with
  | nil => exact .nil
  | cons x xs ih =>
      obtain ⟨hx, hxs⟩ := List.forall_mem_cons.mp h
      exact hx.append (ih hxs)

theorem Unalarming.returned_notMem {es : List Effect} (h : Unalarming es) (j : Nat) (r : Option Error) :
    .returned j r ∉ es := by
  induction h with
  | nil => simp
  | minor he _ ih =>
      intro hr
      rcases List.mem_cons.mp hr with rfl | hr
      · exact he
      · exact ih hr
  | message text _ ih => simpa using ih

/-- A line for the log is minor if it begins differently from the line about a crash. -/
theorem minor_line {text : String} (h : text.toList.take 17 ≠ "Language server e".toList) :
    (logged text).Minor := by
  show crashWords.toList.isPrefixOf text.toList = false
  rw [Bool.eq_false_iff]
  intro hprefix
  obtain ⟨rest, hrest⟩ := List.isPrefixOf_iff_prefix.mp hprefix
  apply h
  rw [← hrest]
  rfl

theorem minor_said {said : List String} (h : ∀ text ∈ said, Ordinary text) :
    ∀ e ∈ said.map logged, e.Minor := by
  intro e he
  obtain ⟨text, htext, rfl⟩ := List.mem_map.mp he
  exact minor_line (h text htext).uneventful

theorem minor_announce {x : Option Transition} : ∀ e ∈ State.announce x, e.Minor := by
  intro e he
  cases x with
  | none => cases he
  | some x =>
      obtain ⟨_, -, rfl⟩ := List.mem_map.mp he
      trivial

/-- Even a change of state that is refused is told in other words. -/
theorem minor_transition {target : Lifecycle} {e : Option Error} :
    ∀ x ∈ (s.transition target e).2.1, x.Minor := by
  intro x hx
  unfold State.transition at hx
  split at hx
  · cases hx
  · rw [List.mem_singleton.mp hx]
    apply minor_line
    intro htake
    have hten := congrArg (List.take 10) htake
    rw [List.take_take, Nat.min_eq_left (by decide), take_ignoredLine] at hten
    exact absurd hten (by decide)

/-- What the server writes to the log never begins like the line about a crash, and an error
it wants the user to see comes behind its line. -/
theorem unalarming_reportsOf (label method : String) (params : Option Bytes) :
    Unalarming ((reportsOf label method params).map .report) := by
  have hline (m : ServerMessage) : (Effect.report m.line).Minor := minor_line (by simp)
  simp only [reportsOf]
  split
  · split
    · exact .minor (hline _) .nil
    · exact .nil
  · split
    · split
      · split
        · next m _ hone =>
            have hm : m.line = errorMessageLine m.message := by
              rw [errorMessageLine, ← hone]
            rw [hm]
            exact .message m.message .nil
        · exact .minor (hline _) (.minor trivial .nil)
      · exact .nil
    · split
      · split
        · refine .minor (minor_line (by simp)) (.of_minor ?_)
          intro e he
          obtain ⟨r, hr, rfl⟩ := List.mem_map.mp he
          obtain ⟨d, -, rfl⟩ := List.mem_map.mp hr
          exact minor_line (by simp)
        · exact .nil
      · exact .minor (minor_line (by simp)) .nil

theorem minor_errorLine (line : Bytes) : (Effect.report (errorLine line)).Minor := by
  show (utf8 crashWords).isPrefixOf (utf8 "[server] " ++ withoutReturn line) = false
  rfl

/-! ### Operations in between -/

/-- An operation that shows nothing alarming, and leaves the exit code of a process that has
ended as it is. -/
structure Aside (s : State) (r : State × List Effect) : Prop where
  exited : ∀ code, s.exitCode? = some code → r.1.exitCode? = some code
  unalarming : Unalarming r.2

theorem Aside.refl (s : State) : Aside s (s, []) := ⟨fun _ h => h, .nil⟩

theorem Aside.cons {e : Effect} {es : List Effect} (h : Aside s (s', es)) (he : e.Minor) :
    Aside s (s', e :: es) :=
  ⟨h.exited, .minor he h.unalarming⟩

theorem Aside.append {es more : List Effect} (h : Aside s (s', es)) (hm : ∀ e ∈ more, e.Minor) :
    Aside s (s', es ++ more) :=
  ⟨h.exited, h.unalarming.append (.of_minor hm)⟩

namespace State

theorem withConnection_aside (c : Rpc.Connection) (es : List Rpc.Effect) (s : State) :
    Aside s (s.withConnection c es) := by
  refine ⟨fun _ h => h, .flatMap ?_⟩
  intro x _
  cases x with
  | wrote frame => exact .minor trivial .nil
  | notified label method params => exact unalarming_reportsOf label method params
  | returned id o => exact .nil

theorem onConnection_aside (f : Rpc.Connection → Rpc.Connection × List Rpc.Effect) (s : State) :
    Aside s (s.onConnection f) := by
  unfold onConnection
  cases s.connection with
  | none => exact Aside.refl s
  | some c => exact withConnection_aside _ _ s

theorem closeConnection_aside (s : State) : Aside s s.closeConnection := onConnection_aside _ s

/-- A process that has ended does not end again. -/
theorem exit_aside (code : Int) (s : State) : Aside s (s.exit code) := by
  unfold exit
  cases hp : s.process with
  | none => exact Aside.refl s
  | some q =>
      by_cases hr : q.isRunning
      · simp only [hr, if_true]
        have hhang := onConnection_aside Rpc.Connection.hangup
          { s with process := some { q with exitCode := some code, errorOutput := q.errorOutput.finish.1 } }
        refine ⟨?_, ?_⟩
        -- The process was running, so it had no exit code yet.
        · intro old hold
          rw [exitCode?, hp, Option.bind_some] at hold
          rw [Process.isRunning, hold] at hr
          cases hr
        · refine (Unalarming.of_minor ?_).append hhang.unalarming
          intro e he
          obtain ⟨r, hm, rfl⟩ := List.mem_map.mp he
          obtain ⟨line, rfl⟩ := ErrorOutput.eq_errorLine_of_mem_finish hm
          exact minor_errorLine line
      · simp only [hr]
        exact Aside.refl s

theorem kill_aside (g : Settings) (s : State) : Aside s (s.kill g) := by
  unfold kill
  cases hp : s.process with
  | none => exact Aside.refl s
  | some q =>
      have hsame : exitCode? { s with process := some { q with kills := q.kills + 1 } } = s.exitCode? := by
        rw [exitCode?, exitCode?, hp]
        rfl
      refine Aside.append (Aside.cons (e := .killed) ?_ trivial) ?_
      · cases g.killCode with
        | none => exact ⟨fun _ h => hsame.trans h, .nil⟩
        | some code =>
            have hexit := exit_aside code { s with process := some { q with kills := q.kills + 1 } }
            exact ⟨fun old h => hexit.exited old (hsame.trans h), hexit.unalarming⟩
      · intro e he
        cases hk : g.killError with
        | none =>
            rw [hk] at he
            cases he
        | some error =>
            rw [hk] at he
            rw [List.mem_singleton.mp he]
            exact minor_line (by simp)

theorem receiveErrors_aside (bytes : Bytes) (s : State) : Aside s (s.receiveErrors bytes) := by
  unfold receiveErrors
  cases hp : s.process with
  | none => exact Aside.refl s
  | some q =>
      refine ⟨?_, ?_⟩
      · intro code h
        rw [exitCode?, hp] at h
        exact h
      · refine .of_minor ?_
        intro e he
        obtain ⟨r, hr, rfl⟩ := List.mem_map.mp he
        obtain ⟨line, rfl⟩ := ErrorOutput.eq_errorLine_of_mem_receive hr
        exact minor_errorLine line

theorem release_aside (task : Task) (why : Condition) (s : State) : Aside s (s.release task why) := by
  unfold release
  cases task.awaited? with
  | none => exact Aside.refl s
  | some id => exact onConnection_aside _ s

end State

theorem Deed.act_aside (d : Deed) (s : State) : Aside s (d.act s) := by
  cases d with
  | exit code => exact State.exit_aside code s
  | send bytes => exact State.onConnection_aside (Rpc.Connection.receive bytes) s
  | hangup => exact State.onConnection_aside Rpc.Connection.hangup s
  | accept left => exact State.onConnection_aside (fun c => (limitWrites left c, [])) s
  | complain bytes => exact State.receiveErrors_aside bytes s

/-! ### What a step shows -/

/-- What a call is about to return where it stands: `r` is possible. -/
def Task.MayReturn (r : Option Error) : Task → Prop
  | .start _ .enter => r = some (.condition .supervisorUsed)
  | .start _ (.announceRunning _ _) => r = none
  | .start _ (.finish _ result) => r = result
  | .start _ _ | .watch _ | .done => False
  | .stop _ | .notify _ _ _ => True

/-- What a step of thread `i` shows: nothing alarming, and at the end perhaps that it has
returned, or that the server has exited on its own. -/
inductive Discloses (i : Nat) (t : Task) (p : Progress) : Prop where
  | unalarming (h : Unalarming p.effects) : Discloses i t p
  | returned (r : Option Error) (before : List Effect) (h : Unalarming before)
      (effects : p.effects = before ++ [.returned i r]) (result : t.MayReturn r)
      (done : p.task = .done) : Discloses i t p
  | crash (code : Int) (task : t = .watch (.tell code)) (done : p.task = .done)
      (effects : p.effects = crashReport code) : Discloses i t p

theorem Aside.discloses {t t' : Task} {es : List Effect} (h : Aside s (s', es)) :
    Discloses i t { state := s', task := t', effects := es } := .unalarming h.unalarming

theorem Discloses.minor {t : Task} (h : ∀ e ∈ p.effects, e.Minor) : Discloses i t p :=
  .unalarming (.of_minor h)

theorem Does.discloses {τ : Task} (h : Does g i t s τ p) : Discloses i τ p := by
  cases h with
  | passes row => exact .minor (minor_said row.ordinary)
  | marks row => exact .minor (minor_said row.ordinary)
  | shifts => exact .minor minor_transition
  | @informs moved _ _ _ said results _ row =>
      have hshown : Unalarming (State.announce moved ++ said.map logged) :=
        .of_minor (List.forall_mem_append.mpr ⟨minor_announce, minor_said row.ordinary⟩)
      cases row with
      | running | finish => exact .returned _ _ hshown (by simp) rfl rfl
      | _ => exact .unalarming (by simpa using hshown)
  | @spawns mode _ _ launch =>
      refine .minor (List.forall_mem_cons.mpr ⟨?_, List.forall_mem_singleton.mpr trivial⟩)
      exact minor_line (ordinary_spawning launch mode).uneventful
  | talks _ row => exact ((State.withConnection_aside _ _ s).append (minor_said row.ordinary)).discloses
  | sends => exact .returned _ _ (State.withConnection_aside _ _ s).unalarming rfl trivial rfl
  | kills row =>
      exact .unalarming ((Unalarming.of_minor (minor_said row.ordinary)).append (State.kill_aside g s).unalarming)
  | closes row => exact ((State.closeConnection_aside s).append (minor_said row.ordinary)).discloses
  | returns row => cases row <;> exact .returned _ [] .nil rfl (by trivial) rfl
  -- This is the one report of a crash.
  | tells => exact .crash _ rfl rfl rfl

/-- **What a step of a thread shows.** -/
theorem step_discloses (h : step g i t s = some p) : Discloses i t.task p :=
  (does_of_step h).discloses

/-- A process that has ended has ended for good, with its exit code. -/
theorem Does.exited {τ : Task} (h : Does g i t s τ p) (hf : τ.Fits s i) {code : Int}
    (hcode : s.exitCode? = some code) : p.state.exitCode? = some code := by
  cases h with
  | passes | tells => exact hcode
  | marks row => cases row <;> exact hcode
  | @shifts _ s₁ target e _ row =>
      have hsame := congrArg State.exitCode? row.same
      have htransition : (s₁.transition target e).1.exitCode? = s₁.exitCode? := by
        unfold State.transition
        split <;> rfl
      exact htransition.trans (hsame.trans hcode)
  | informs row => cases row <;> exact hcode
  | spawns =>
      -- there is no process yet, so none that has ended
      have hnone : s.running? = none := hf.2.2.2
      rw [State.exitCode?_isSome_iff.mp (by rw [hcode]; rfl)] at hnone
      cases hnone
  | talks | sends => exact (State.withConnection_aside _ _ s).exited code hcode
  | kills => exact (State.kill_aside g s).exited code hcode
  | closes => exact (State.closeConnection_aside s).exited code hcode
  | returns row => cases row <;> exact hcode

/-- The exit code of a process that has ended stays what it is: the only step that leads to
a new process is taken when there is none. -/
theorem step_exited (hf : t.task.Fits s i) (h : step g i t s = some p) {code : Int}
    (hcode : s.exitCode? = some code) : p.state.exitCode? = some code :=
  (does_of_step h).exited hf hcode

/-! ### Steps of a system -/

section Steps

variable {τ υ : System} {es : List Effect} {path : List Lifecycle}

/-- A step from outside is calm and shows nothing alarming, or a step is one of a thread. -/
theorem Step.aside_or_advances (h : Step g τ es υ) :
    Calm τ.state (υ.state, es) ∧ Aside τ.state (υ.state, es) ∧ SameTasks τ υ ∨
      ∃ i t p, τ.threads[i]? = some t ∧ step g i t τ.state = some p ∧ es = p.effects ∧
        υ = τ.advance i t p := by
  cases h with
  | call task cancelled hasty entry =>
      exact Or.inl ⟨Calm.refl _, Aside.refl _, sameTasks_of_call rfl entry⟩
  | observe => exact Or.inl ⟨⟨⟨rfl, Or.inl rfl⟩, by simp⟩, ⟨fun _ h => h, .nil⟩, sameTasks_of_eq rfl⟩
  | advance here moves => exact Or.inr ⟨_, _, _, here, moves, rfl, rfl⟩
  | cancel here minds =>
      exact Or.inl ⟨State.release_calm _ _ _, State.release_aside _ _ _, sameTasks_of_set rfl here rfl⟩
  | expire here =>
      exact Or.inl ⟨State.release_calm _ _ _, State.release_aside _ _ _, sameTasks_of_set rfl here rfl⟩
  | deed d => exact Or.inl ⟨d.act_calm _, d.act_aside _, sameTasks_of_eq rfl⟩

/-- Only a step of the thread itself says that it has returned, and it is its last. -/
theorem returned_of_step {j : Nat} {r : Option Error} (h : step g i t s = some p)
    (hr : .returned j r ∈ p.effects) : j = i ∧ p.task = .done ∧ t.task.MayReturn r := by
  cases step_discloses h with
  | unalarming hnone => exact absurd hr (hnone.returned_notMem j r)
  | returned r' before hnone effects result done =>
      rw [effects] at hr
      rcases List.mem_append.mp hr with hr | hr
      · exact absurd hr (hnone.returned_notMem j r)
      · cases List.mem_singleton.mp hr
        exact ⟨rfl, done, result⟩
  | crash code _ _ effects =>
      rw [effects] at hr
      simp [crashReport, logged] at hr

/-- A thread that nobody has moved stands where it stood. -/
theorem SameTasks.stands (h : SameTasks τ υ) (hlen : τ.threads.length ≤ υ.threads.length) {j : Nat}
    {u : Thread} (hj : τ.threads[j]? = some u) : ∃ v, υ.threads[j]? = some v ∧ v.task = u.task := by
  have hlt := Nat.lt_of_lt_of_le (List.getElem?_eq_some_iff.mp hj).1 hlen
  refine ⟨_, List.getElem?_eq_getElem hlt, ?_⟩
  rcases h j _ (List.getElem?_eq_getElem hlt) with ⟨hnone, -⟩ | ⟨v, hv, he⟩
  · rw [hj] at hnone
    cases hnone
  · obtain rfl := Option.some.inj (hj.symm.trans hv)
    exact he

/-- **A thread stands where it stood after a step, and has not returned, or the step is its
own.** -/
theorem Step.stands_or_advances {new : List Effect} (h : Step g τ new υ) {j : Nat} {u : Thread}
    (hj : τ.threads[j]? = some u) :
    (∃ v, υ.threads[j]? = some v ∧ v.task = u.task) ∧ (∀ r, .returned j r ∉ new) ∨
      ∃ p, step g j u τ.state = some p ∧ new = p.effects ∧ υ = τ.advance j u p := by
  rcases h.aside_or_advances with ⟨-, haside, hsame⟩ | ⟨i, t, p, here, moves, rfl, rfl⟩
  · exact Or.inl ⟨hsame.stands h.length_le hj, haside.unalarming.returned_notMem j⟩
  · by_cases hji : j = i
    · subst hji
      obtain rfl := Option.some.inj (here.symm.trans hj)
      exact Or.inr ⟨p, moves, rfl, rfl⟩
    · refine Or.inl ⟨⟨u, System.getElem?_advance_of_ne hj hji t p, rfl⟩, ?_⟩
      intro r hr
      exact hji (returned_of_step moves hr).1

/-- A thread that has returned takes no further step. -/
theorem Step.stays_done {new : List Effect} (h : Step g τ new υ) {j : Nat} {u : Thread}
    (hj : τ.threads[j]? = some u) (hdone : u.task = .done) :
    (∃ v, υ.threads[j]? = some v ∧ v.task = .done) ∧ ∀ r, .returned j r ∉ new := by
  rcases h.stands_or_advances hj with ⟨⟨v, hv, he⟩, hsilent⟩ | ⟨p, moves, -⟩
  · exact ⟨⟨v, hv, he.trans hdone⟩, hsilent⟩
  · simp only [step, hdone] at moves
    cases moves

/-- Who is said to have returned has returned. -/
theorem Steps.done_of_returned (h : Steps g {} path es τ) {j : Nat} {r : Option Error}
    (hr : .returned j r ∈ es) : ∃ u, τ.threads[j]? = some u ∧ u.task = .done := by
  induction h with
  | refl => cases hr
  | @step _ es new τ υ hsteps hstep ih =>
      rcases List.mem_append.mp hr with hold | hnew
      · obtain ⟨u, hu, hdone⟩ := ih hold
        exact (hstep.stays_done hu hdone).1
      · rcases hstep.aside_or_advances with ⟨-, haside, -⟩ | ⟨i, t, p, here, moves, rfl, rfl⟩
        · exact absurd hnew (haside.unalarming.returned_notMem j r)
        · obtain ⟨rfl, hdone, -⟩ := returned_of_step moves hnew
          exact ⟨_, System.getElem?_advance_self here p, hdone⟩

end Steps

end LanguageClient.Supervisor
