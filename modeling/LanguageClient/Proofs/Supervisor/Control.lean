import LanguageClient.Proofs.Supervisor.ErrorOutput
import LanguageClient.Proofs.Supervisor.StepCases

/-! # What the threads of a supervisor decide by.

Threads decide by a small part of the shared state: the fields under the
supervisor's lock, and whether the process runs. Everything that goes on over
the connection leaves that part alone, except that the process may end:

* `Quiet s s'`         — nothing but that happened between two states;
* `Effect.Plain`       — an effect that neither asks for a process nor says
  that a change of state was refused;
* `Calm s (s', es)`    — an operation that is quiet and shows plain effects. -/

namespace LanguageClient.Supervisor

/-- The fields under the supervisor's lock by which threads decide. -/
structure Control where
  lifecycle : Lifecycle
  used : Bool
  stopRequested : Bool
  stopping : Bool
  lastError : Option Error
  startDone : Bool
  attached : Bool
  stopper : Option Nat

namespace State

def control (s : State) : Control where
  lifecycle := s.lifecycle
  used := s.used
  stopRequested := s.stopRequested
  stopping := s.stopping
  lastError := s.lastError
  startDone := s.startDone
  attached := s.attached
  stopper := s.stopper

/-- A process has an exit code exactly if it has ended. -/
theorem exitCode?_isSome_iff {s : State} : s.exitCode?.isSome = true ↔ s.running? = some false := by
  unfold exitCode? running? Process.isRunning
  cases s.process with
  | none => simp
  | some p => cases p.exitCode <;> simp

end State

/-! ### Quiet changes -/

/-- The process is what it was, or it has ended since. -/
def Fades (s s' : State) : Prop :=
  s'.running? = s.running? ∨ s.running? = some true ∧ s'.running? = some false

/-- Nothing has changed that threads decide by, except that the process may
have ended. -/
structure Quiet (s s' : State) : Prop where
  control : s'.control = s.control
  process : Fades s s'

theorem Fades.refl (s : State) : Fades s s := Or.inl rfl

theorem Fades.trans {s₁ s₂ s₃ : State} (h₁ : Fades s₁ s₂) (h₂ : Fades s₂ s₃) : Fades s₁ s₃ := by
  rcases h₁ with h₁ | ⟨ha, hb⟩
  · rcases h₂ with h₂ | ⟨hc, hd⟩
    · exact Or.inl (h₂.trans h₁)
    · exact Or.inr ⟨h₁ ▸ hc, hd⟩
  · rcases h₂ with h₂ | ⟨hc, _⟩
    · exact Or.inr ⟨ha, h₂.trans hb⟩
    · rw [hb] at hc; cases hc

theorem Quiet.refl (s : State) : Quiet s s := ⟨rfl, Fades.refl s⟩

theorem Quiet.trans {s₁ s₂ s₃ : State} (h₁ : Quiet s₁ s₂) (h₂ : Quiet s₂ s₃) : Quiet s₁ s₃ :=
  ⟨h₂.control.trans h₁.control, h₁.process.trans h₂.process⟩

namespace Quiet

variable {s s' : State}

theorem lifecycle (h : Quiet s s') : s'.lifecycle = s.lifecycle :=
  congrArg Control.lifecycle h.control

theorem used (h : Quiet s s') : s'.used = s.used :=
  congrArg Control.used h.control

theorem stopRequested (h : Quiet s s') : s'.stopRequested = s.stopRequested :=
  congrArg Control.stopRequested h.control

theorem stopping (h : Quiet s s') : s'.stopping = s.stopping :=
  congrArg Control.stopping h.control

theorem startDone (h : Quiet s s') : s'.startDone = s.startDone :=
  congrArg Control.startDone h.control

theorem attached (h : Quiet s s') : s'.attached = s.attached :=
  congrArg Control.attached h.control

theorem stopper (h : Quiet s s') : s'.stopper = s.stopper :=
  congrArg Control.stopper h.control

end Quiet

/-! ### Plain effects -/

/-- Effects that neither ask for a process nor say that a change of state was
refused. -/
def Effect.Plain : Effect → Prop
  | .spawned _ => False
  | .report r => ∀ source target, r ≠ .line (ignoredLine source target)
  | _ => True

theorem Effect.Plain.ne_ignored {e : Effect} (h : e.Plain) (source target : Lifecycle) :
    e ≠ logged (ignoredLine source target) := by
  rintro rfl
  exact h source target rfl

theorem take_ignoredLine (source target : Lifecycle) :
    (ignoredLine source target).toList.take 10 = "Ignoring i".toList := by
  unfold ignoredLine
  simp

/-- A log line is plain if it begins differently from the line about a refused
change. -/
theorem plain_line {text : String} (h : text.toList.take 10 ≠ "Ignoring i".toList) :
    (logged text).Plain := by
  intro source target hr
  apply h
  rw [Report.line.inj hr, take_ignoredLine]

theorem plain_said {said : List String} (h : ∀ text ∈ said, Ordinary text) :
    ∀ e ∈ said.map logged, e.Plain := by
  intro e he
  obtain ⟨text, htext, rfl⟩ := List.mem_map.mp he
  exact plain_line (h text htext).unrefused

/-- What a notification of the server leads to is plain: even the line about
one that is ignored differs from the line about a refused change. -/
theorem plain_reportsOf {label method : String} {params : Option Bytes} {r : Report}
    (h : r ∈ reportsOf label method params) : (Effect.report r).Plain := by
  simp only [reportsOf] at h
  split at h
  · split at h
    · rw [List.mem_singleton.mp h]
      exact plain_line (by simp)
    · cases h
  · split at h
    · split at h
      · simp only [List.mem_cons, List.not_mem_nil, or_false] at h
        rcases h with rfl | rfl
        · exact plain_line (by simp)
        · split <;> intro source target hr <;> cases hr
      · cases h
    · split at h
      · split at h
        · rcases List.mem_cons.mp h with rfl | h
          · exact plain_line (by simp)
          · obtain ⟨d, _, rfl⟩ := List.mem_map.mp h
            exact plain_line (by simp)
        · cases h
      · rw [List.mem_singleton.mp h]
        exact plain_line (by simp)

theorem plain_errorLine (line : Bytes) : (Effect.report (errorLine line)).Plain := nofun

theorem plain_killed : Effect.killed.Plain := trivial

theorem plain_announce {t : Option Transition} {e : Effect} (h : e ∈ State.announce t) : e.Plain := by
  cases t with
  | none => cases h
  | some t =>
      obtain ⟨i, _, rfl⟩ := List.mem_map.mp h
      trivial

/-! ### Calm operations -/

/-- An operation that changes the shared state quietly, and shows nothing but
plain effects. -/
structure Calm (s : State) (r : State × List Effect) : Prop where
  quiet : Quiet s r.1
  plain : ∀ e ∈ r.2, e.Plain

theorem Calm.refl (s : State) : Calm s (s, []) := ⟨Quiet.refl s, by simp⟩

/-- A quiet change before a calm operation. -/
theorem Calm.after {s₁ s₂ : State} {r : State × List Effect} (h : Calm s₂ r) (hq : Quiet s₁ s₂) :
    Calm s₁ r := ⟨hq.trans h.quiet, h.plain⟩

/-- A plain effect before those of a calm operation. -/
theorem Calm.cons {s s' : State} {e : Effect} {es : List Effect} (h : Calm s (s', es))
    (he : e.Plain) : Calm s (s', e :: es) :=
  ⟨h.quiet, List.forall_mem_cons.mpr ⟨he, h.plain⟩⟩

/-- Plain effects behind those of a calm operation. -/
theorem Calm.append {s s' : State} {es more : List Effect} (h : Calm s (s', es))
    (hm : ∀ e ∈ more, e.Plain) : Calm s (s', es ++ more) := by
  refine ⟨h.quiet, ?_⟩
  intro e he
  rcases List.mem_append.mp he with he | he
  · exact h.plain e he
  · exact hm e he

namespace State

theorem withConnection_calm (c : Rpc.Connection) (es : List Rpc.Effect) (s : State) :
    Calm s (s.withConnection c es) := by
  refine ⟨⟨rfl, Or.inl rfl⟩, ?_⟩
  intro e he
  obtain ⟨x, _, hx⟩ := List.mem_flatMap.mp he
  cases x with
  | wrote frame => rw [List.mem_singleton.mp hx]; trivial
  | notified label method params =>
      obtain ⟨r, hr, rfl⟩ := List.mem_map.mp hx
      exact plain_reportsOf hr
  | returned id o => cases hx

theorem onConnection_calm (f : Rpc.Connection → Rpc.Connection × List Rpc.Effect) (s : State) :
    Calm s (s.onConnection f) := by
  unfold onConnection
  cases s.connection with
  | none => exact Calm.refl s
  | some c => exact withConnection_calm _ _ s

theorem closeConnection_calm (s : State) : Calm s s.closeConnection :=
  onConnection_calm _ s

/-- The end of the process changes nothing by which threads decide. -/
theorem exit_calm (code : Int) (s : State) : Calm s (s.exit code) := by
  unfold exit
  cases hp : s.process with
  | none => exact Calm.refl s
  | some p =>
      by_cases hr : p.isRunning
      · simp only [hr, if_true]
        -- The process is marked first; the connection follows.
        have hend : Quiet s { s with process := some { p with
            exitCode := some code, errorOutput := p.errorOutput.finish.1 } } :=
          ⟨rfl, Or.inr ⟨by simp [running?, hp, hr], by simp [running?, Process.isRunning]⟩⟩
        have hhang := (onConnection_calm Rpc.Connection.hangup _).after hend
        refine ⟨hhang.quiet, ?_⟩
        intro e he
        rcases List.mem_append.mp he with he | he
        · obtain ⟨r, hm, rfl⟩ := List.mem_map.mp he
          obtain ⟨line, rfl⟩ := ErrorOutput.eq_errorLine_of_mem_finish hm
          exact plain_errorLine line
        · exact hhang.plain e he
      · simp only [hr]
        exact Calm.refl s

/-- A kill changes nothing by which threads decide. -/
theorem kill_calm (g : Settings) (s : State) : Calm s (s.kill g) := by
  unfold kill
  cases hp : s.process with
  | none => exact Calm.refl s
  | some p =>
      have hkill : Quiet s { s with process := some { p with kills := p.kills + 1 } } :=
        ⟨rfl, Or.inl (by simp [running?, hp, Process.isRunning])⟩
      refine Calm.append (Calm.cons ?_ plain_killed) ?_
      · cases g.killCode with
        | none => exact (Calm.refl _).after hkill
        | some code => exact (exit_calm code _).after hkill
      · intro e he
        cases hk : g.killError with
        | none =>
            rw [hk] at he
            cases he
        | some error =>
            rw [hk] at he
            rw [List.mem_singleton.mp he]
            exact plain_line (by simp)

theorem receiveErrors_calm (bytes : Bytes) (s : State) : Calm s (s.receiveErrors bytes) := by
  unfold receiveErrors
  cases hp : s.process with
  | none => exact Calm.refl s
  | some p =>
      refine ⟨⟨rfl, Or.inl (by simp [running?, hp, Process.isRunning])⟩, ?_⟩
      intro e he
      obtain ⟨r, hr, rfl⟩ := List.mem_map.mp he
      obtain ⟨line, rfl⟩ := ErrorOutput.eq_errorLine_of_mem_receive hr
      exact plain_errorLine line

theorem release_calm (task : Task) (why : Condition) (s : State) :
    Calm s (s.release task why) := by
  unfold release
  cases task.awaited? with
  | none => exact Calm.refl s
  | some id => exact onConnection_calm _ s

end State

end LanguageClient.Supervisor
