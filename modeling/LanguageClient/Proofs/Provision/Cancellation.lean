import LanguageClient.Proofs.Provision.Interleaving

/-! # Whose cancellation a call returns.

The call that does the work does it under its own context, and calls that have
joined it (`Joined`) return what it returns: where the first one is cancelled,
the others fail with its error. A call that has joined nobody fails with the
error of a context only if it has brought that upon itself (`Brings`). Calls
are accounted for in this way (`Account`), and stay so whatever turns they take
(`Turn`). -/

namespace LanguageClient

/-! ### Errors of contexts -/

namespace Error

/-- Whether an error says that somebody has given up, or that time has run out. -/
def isCalledOff (e : Error) : Bool := e.isA .cancelled || e.isA .deadlineExceeded

/-- What is in the cause of an error is in the error, and nothing else is. -/
theorem isA_of_cause {e c : Error} (target : Condition) (h : e.cause = some c) :
    e.isA target = c.isA target := by
  cases e <;> simp only [cause, Option.some.injEq, reduceCtorEq] at h <;> subst h <;> simp [isA]

theorem isCalledOff_of_cause {e c : Error} (h : e.cause = some c) :
    e.isCalledOff = c.isCalledOff := by
  rw [isCalledOff, isA_of_cause _ h, isA_of_cause _ h, isCalledOff]

@[simp] theorem isCalledOff_context (text : String) (e : Error) :
    (context text e).isCalledOff = e.isCalledOff :=
  isCalledOff_of_cause rfl

@[simp] theorem isCalledOff_missingBinary (path : String) (e : Error) :
    (missingBinary path (some e)).isCalledOff = e.isCalledOff :=
  isCalledOff_of_cause rfl

@[simp] theorem isCalledOff_download (url : String) (status : Int) (e : Error) :
    (download url status (some e)).isCalledOff = e.isCalledOff :=
  isCalledOff_of_cause rfl

@[simp] theorem isCalledOff_url (operation : String) (text : Bytes) (e : Error) :
    (url operation text (some e)).isCalledOff = e.isCalledOff :=
  isCalledOff_of_cause rfl

@[simp] theorem isCalledOff_file (operation path : String) (r : FileReason) :
    (file operation path r).isCalledOff = false := rfl

@[simp] theorem isCalledOff_fileLink (operation old new : String) (r : FileReason) :
    (fileLink operation old new r).isCalledOff = false := rfl

end Error

/-! ### Errors of files -/

namespace FileSystem

variable {fs : FileSystem} {path old new : String} {mode : Nat} {e : Error}

theorem isCalledOff_changeMode {refused : Option FileReason}
    (h : fs.changeMode path mode refused = .error e) : e.isCalledOff = false := by
  unfold changeMode at h
  repeat' split at h
  all_goals
    cases h
    try exact Error.isCalledOff_file _ _ _

theorem isCalledOff_createNew (h : fs.createNew path mode = .error e) : e.isCalledOff = false := by
  unfold createNew at h
  split at h
  · cases h
    exact Error.isCalledOff_file _ _ _
  · split at h <;> cases h
    exact Error.isCalledOff_file _ _ _

theorem isCalledOff_openOrCreate (h : fs.openOrCreate path mode = .error e) :
    e.isCalledOff = false := by
  simp only [openOrCreate] at h
  repeat' split at h
  all_goals
    cases h
    try exact Error.isCalledOff_file _ _ _

theorem isCalledOff_rename (h : fs.rename old new = .error e) : e.isCalledOff = false := by
  unfold rename at h
  repeat' split at h
  all_goals
    cases h
    try exact Error.isCalledOff_fileLink _ _ _ _

theorem isCalledOff_makeOne (h : (fs.makeOne path).2 = some e) : e.isCalledOff = false := by
  unfold makeOne at h
  repeat' split at h
  all_goals
    cases h
    try exact Error.isCalledOff_file _ _ _

theorem isCalledOff_makeAll {depth : Nat} (h : (fs.makeAll path depth).2 = some e) :
    e.isCalledOff = false := by
  induction depth generalizing path fs e with
  | zero => cases h
  | succ depth ih =>
      simp only [makeAll] at h
      split at h
      · cases h
      · cases h
        exact Error.isCalledOff_file _ _ _
      · split at h
        · next above e' hup =>
            cases h
            split at hup
            · cases hup
            · exact ih (by rw [hup])
        · exact isCalledOff_makeOne h

end FileSystem

namespace Provision

/-- Looking for the binary never fails with the error of a context. -/
theorem isCalledOff_present {refusals : Refusals} {fs : FileSystem} {b : Binary} {e : Error}
    (h : present refusals fs b = .error e) : e.isCalledOff = false := by
  simp only [present] at h
  split at h
  · next r hstat =>
      split at h
      · cases h
      · cases h
        unfold FileSystem.stat at hstat
        split at hstat <;> cases hstat
        simp
  · split at h
    · split at h
      · cases h
      · next r hmode =>
          cases h
          simpa using FileSystem.isCalledOff_changeMode hmode
    · cases h
  · cases h
    rfl

/-! ### Steps -/

/-- What a request leads to ends with the error of a context. -/
def Outcome.isCalledOff : Outcome → Bool
  | .refused e => e.isCalledOff
  | .response _ _ failure => failure.any Error.isCalledOff

/-- The error that is on its way to the caller. -/
def Point.error? : Point → Option Error
  | .create _ _ failure | .write _ _ _ failure => failure
  | .discard _ e => some e
  | .unlock result | .finished result => result
  | _ => none

/-- Why a step at a point gives the error of a context. -/
inductive Cause (p : Provisioner) (files : FileSystem) (cancelled : Bool) (outcome : Outcome) :
    Point → Prop where
  /-- The caller has given up. -/
  | givenUp {v : ReleaseVersion} (given : cancelled = true) : Cause p files cancelled outcome (.lock v)
  /-- That is what its request leads to. -/
  | request {v : ReleaseVersion} (off : outcome.isCalledOff = true) :
      Cause p files cancelled outcome (.fetch v)
  /-- That is what there is instead of a version. -/
  | version {e : Error} (source : p.versions files = .error e) (off : e.isCalledOff = true) :
      Cause p files cancelled outcome .version

section Steps

variable {p : Provisioner} {b : Binary} {w : Shared} {point : Point}
variable {cancelled : Bool} {outcome : Outcome} {suffix : String} {refusals : Refusals}

@[simp] theorem isCalledOff_failedEarly (v : ReleaseVersion) (e : Error) :
    (failedEarly p b v e).isCalledOff = e.isCalledOff := by
  simp [failedEarly]

@[simp] theorem isCalledOff_failedLate (v : ReleaseVersion) (e : Error) :
    (failedLate p b v e).isCalledOff = e.isCalledOff := by
  simp [failedLate]

/-- What goes wrong with the address is nobody's doing. -/
theorem fetch_calledOff {v : ReleaseVersion}
    (h : (fetch p b v ⟨cancelled, { outcome }, suffix, refusals⟩ w).2.1.error?.any Error.isCalledOff = true) :
    outcome.isCalledOff = true := by
  simp only [fetch] at h
  split at h
  · cases h
  · split at h
    · simpa [Point.error?, Outcome.isCalledOff] using h
    · split at h
      · exact h
      · cases h

/-- **The error of a context comes from the caller that makes the step**, unless it was on
its way before. -/
theorem step_calledOff
    (h : (step p b ⟨cancelled, { outcome }, suffix, refusals⟩ w point).2.1.error?.any Error.isCalledOff = true) :
    point.error?.any Error.isCalledOff = true ∨ Cause p w.files cancelled outcome point := by
  cases point with
  | version =>
      simp only [step.eq_def] at h
      split at h
      · cases h
      · next e hsource => exact .inr (.version hsource (by simpa [Point.error?] using h))
  | directory v =>
      -- Errors of the file system are never those of a cancelled context.
      simp only [step.eq_def] at h
      split at h
      · cases h
      · next files e hmade =>
          have hcause := FileSystem.isCalledOff_makeAll (congrArg Prod.snd hmade)
          simp [Point.error?, hcause] at h
  | lock v =>
      -- The lock is the one step that looks at the context itself.
      cases cancelled with
      | true => exact .inr (.givenUp rfl)
      | false =>
          simp only [step.eq_def] at h
          split at h
          · next hoff => cases hoff
          · split at h
            · next e hopened =>
                have hcause := FileSystem.isCalledOff_openOrCreate hopened
                simp [Point.error?, hcause] at h
            · split at h <;> cases h
  | recheck v =>
      simp only [step.eq_def] at h
      split at h
      · next e hpresent =>
          rw [Point.error?, Option.any_some, isCalledOff_present hpresent] at h
          cases h
      · cases h
      · cases h
  | fetch v => exact .inr (.request (fetch_calledOff h))
  | create v body failure =>
      simp only [step.eq_def] at h
      split at h
      · exact .inl h
      · next e hcreated =>
          have hcause := FileSystem.isCalledOff_createNew hcreated
          simp [Point.error?, hcause] at h
  | write v t body failure =>
      cases failure with
      | some e => exact .inl (by simpa [step.eq_def, Point.error?] using h)
      | none => cases h
  | close v t =>
      simp only [step.eq_def] at h
      split at h
      · simp [Point.error?] at h
      · split at h <;> cases h
  | permit v t =>
      simp only [step.eq_def] at h
      split at h
      · cases h
      · next e hmode =>
          have hcause := FileSystem.isCalledOff_changeMode hmode
          simp [Point.error?, hcause] at h
  | move v t =>
      simp only [step.eq_def] at h
      split at h
      · cases h
      · next e hmoved =>
          have hcause := FileSystem.isCalledOff_rename hmoved
          simp [Point.error?, hcause] at h
  | announce v => cases h
  | discard t e => exact .inl h
  | unlock result => exact .inl h
  | finished result => exact .inl h

end Steps

/-! ### Turns -/

def Move.caller? : Move → Option Nat
  | .check i _ | .join i | .advance i _ _ _ _ | .writeSome i _ | .leave i => some i
  | .call _ _ _ | .die _ => none

/-- The stage a call has after a move, which may be its own or not. -/
inductive Turn (b : Binary) (w : World) (m : Move) (i : Nat) (c : Caller) : Stage → Prop where
  | stays (other : m.caller? ≠ some i) (alive : m ≠ .die c.process) : Turn b w m i c c.stage
  | checks {stage : Stage} {refusals : Refusals} (before : c.stage = .check)
      (made : m = .check i refusals)
      (after : stage = .join ∨ stage = .returned none ∨
        ∃ e, present refusals w.shared.files b = .error e ∧ stage = .returned (some e)) :
      Turn b w m i c stage
  | begins (before : c.stage = .join) (made : m = .join i) (nobody : w.leader? c = none) :
      Turn b w m i c (.working .version)
  | joins {j : Nat} (before : c.stage = .join) (made : m = .join i) (leader : w.leader? c = some j) :
      Turn b w m i c (.waiting j)
  | advances {point : Point} {cancelled : Bool} {outcome : Outcome} {number : Nat}
      {refusals : Refusals} (before : c.stage = .working point)
      (made : m = .advance i cancelled outcome number refusals) :
      Turn b w m i c (.working
        (step c.provisioner b ⟨cancelled, { outcome }, suffixOf number, refusals⟩ w.shared point).2.1)
  | writes {v : ReleaseVersion} {temporary : String} {body : Bytes} {failure : Option Error}
      {count : Nat} (before : c.stage = .working (.write v temporary body failure))
      (made : m = .writeSome i count) :
      Turn b w m i c (.working (.write v temporary (body.drop count) failure))
  | leaves {result : Option Error} (before : c.stage = .working (.finished result))
      (made : m = .leave i) : Turn b w m i c (.returned result)
  | follows {j : Nat} {d : Caller} {result : Option Error} (before : c.stage = .waiting j)
      (made : m = .leave i) (found : w.callers[j]? = some d)
      (given : d.stage.result? = some result) : Turn b w m i c (.returned result)
  | dies (made : m = .die c.process) : Turn b w m i c .dead

section Turns

variable {b : Binary} {w w' : World} {m : Move} {notes : List Note} {i k : Nat} {c : Caller}

/-- A move of a caller changes its stage, and nobody else's. -/
theorem World.turn_of_caller (hstep : w.step? b m = some (w', notes)) (hk : m.caller? = some k) :
    ∃ c stage, w.callers[k]? = some c ∧ Turn b w m k c stage ∧
      w'.callers = (w.become k stage).callers := by
  cases m with
  | call process group p => cases hk
  | die process => cases hk
  | check k refusals =>
      cases hk
      obtain ⟨c, hc, hstep⟩ := Option.bind_eq_some_iff.mp hstep
      split at hstep
      · next hstage =>
          split at hstep
          · next e hpresent =>
              cases hstep
              exact ⟨c, _, hc, .checks hstage rfl (.inr (.inr ⟨e, hpresent, rfl⟩)), rfl⟩
          · cases hstep
            exact ⟨c, _, hc, .checks hstage rfl (by split <;> simp), rfl⟩
      · cases hstep
  | join k =>
      cases hk
      obtain ⟨c, hc, hstep⟩ := Option.bind_eq_some_iff.mp hstep
      split at hstep
      · next hstage =>
          split at hstep
          -- A call that finds a leader waits for it, and leads otherwise.
          · next j hleader =>
              cases hstep
              exact ⟨c, _, hc, .joins hstage rfl hleader, rfl⟩
          · next hnobody =>
              cases hstep
              exact ⟨c, _, hc, .begins hstage rfl hnobody, rfl⟩
      · cases hstep
  | advance k cancelled outcome number refusals =>
      cases hk
      obtain ⟨c, hc, hstep⟩ := Option.bind_eq_some_iff.mp hstep
      split at hstep
      · next hstage =>
          cases hstep
          exact ⟨c, _, hc, .advances hstage rfl, rfl⟩
      · cases hstep
  | writeSome k count =>
      cases hk
      obtain ⟨c, hc, hstep⟩ := Option.bind_eq_some_iff.mp hstep
      split at hstep
      · next hstage =>
          cases hstep
          exact ⟨c, _, hc, .writes hstage rfl, rfl⟩
      · cases hstep
  | leave k =>
      cases hk
      obtain ⟨c, hc, hstep⟩ := Option.bind_eq_some_iff.mp hstep
      split at hstep
      · next point hstage =>
          obtain ⟨result, hresult, hstep⟩ := Option.map_eq_some_iff.mp hstep
          cases hstep
          rw [hstage] at hresult
          -- Only a finished provisioning has a result to leave with.
          cases point with
          | finished r =>
              cases hresult
              exact ⟨c, _, hc, .leaves hstage rfl, rfl⟩
          | _ => cases hresult
      · next j hstage =>
          obtain ⟨result, hresult, hstep⟩ := Option.map_eq_some_iff.mp hstep
          obtain ⟨d, hd, hgiven⟩ := Option.bind_eq_some_iff.mp hresult
          cases hstep
          exact ⟨c, _, hc, .follows hstage rfl hd hgiven, rfl⟩
      · cases hstep

/-- **What a move can do to a call.** -/
theorem World.turn (hstep : w.step? b m = some (w', notes)) (hi : w.callers[i]? = some c) :
    ∃ stage, w'.callers[i]? = some { c with stage } ∧ Turn b w m i c stage := by
  cases hm : m.caller? with
  | some k =>
      obtain ⟨d, stage, hk, hturn, hcallers⟩ := World.turn_of_caller hstep hm
      rw [hcallers, World.callers_become, hi]
      by_cases hki : k = i
      · subst hki
        cases hk.symm.trans hi
        exact ⟨stage, by simp, hturn⟩
      · refine ⟨c.stage, by simp [hki], .stays (by simpa [hm] using hki) ?_⟩
        rintro rfl
        cases hm
  -- Nobody's own move: a call is added, or a process dies.
  | none =>
      cases m with
      | call process group p =>
          cases hstep
          refine ⟨c.stage, ?_, .stays (by simp [hm]) (by simp)⟩
          exact (List.getElem?_append_left (List.getElem?_eq_some_iff.mp hi).1).trans hi
      | die process =>
          cases hstep
          by_cases hprocess : c.process = process
          · exact ⟨.dead, by simp [World.die, hi, hprocess], .dies (by rw [hprocess])⟩
          · refine ⟨c.stage, by simp [World.die, hi, hprocess], .stays (by simp [hm]) ?_⟩
            simpa using fun h => hprocess h.symm
      | _ => cases hm

/-- A new call has not done anything. -/
theorem World.newcomer (hstep : w.step? b m = some (w', notes)) (hnone : w.callers[i]? = none)
    (hi : w'.callers[i]? = some c) : c.stage = .check := by
  cases hm : m.caller? with
  | some k =>
      obtain ⟨d, stage, hk, hturn, hcallers⟩ := World.turn_of_caller hstep hm
      rw [hcallers, World.callers_become, hnone] at hi
      cases hi
  | none =>
      cases m with
      | call process group p =>
          cases hstep
          rw [List.getElem?_append_right (List.getElem?_eq_none_iff.mp hnone)] at hi
          rw [List.mem_singleton.mp (List.mem_of_getElem? hi)]
      | die process =>
          cases hstep
          simp [World.die, hnone] at hi
      | _ => cases hm

end Turns

/-! ### Who works for whom -/

/-- A call has found the binary missing while another one was at work for its
provisioner, and waits for the result of that. -/
inductive Joined (b : Binary) (fs : FileSystem) (moves : List Move) (i j : Nat) : Prop where
  | intro {before after : List Move} {w : World} {notes : List Note} {c : Caller}
      (split : moves = before ++ .join i :: after)
      (reached : World.play? b before (.quiet fs) = some (w, notes))
      (found : w.callers[i]? = some c) (missing : c.stage = .join) (leader : w.leader? c = some j)

/-- A call brings the error of a context upon itself, by a step of its own. -/
inductive Brings (b : Binary) (fs : FileSystem) (moves : List Move) (i : Nat) : Prop where
  | intro {before after : List Move} {cancelled : Bool} {outcome : Outcome} {number : Nat}
      {refusals : Refusals} {w : World} {notes : List Note} {c : Caller} {point : Point}
      (split : moves = before ++ .advance i cancelled outcome number refusals :: after)
      (reached : World.play? b before (.quiet fs) = some (w, notes))
      (found : w.callers[i]? = some c) (works : c.stage = .working point)
      (cause : Cause c.provisioner w.shared.files cancelled outcome point)

/-- The error that a call is about to return or has returned. -/
def Stage.error? : Stage → Option Error
  | .working point => point.error?
  | .returned result => result
  | _ => none

theorem Stage.error?_of_result? {stage : Stage} {result : Option Error}
    (h : stage.result? = some result) : stage.error? = result := by
  cases stage with
  | working point =>
      cases point with
      | finished _ => exact Option.some.inj h
      | _ => cases h
  | returned _ => exact Option.some.inj h
  | _ => cases h

/-- A call that works, or has returned what it has found itself. If it ends with the
error of a context, it has brought that upon itself. -/
structure Owns (b : Binary) (fs : FileSystem) (moves : List Move) (i : Nat) (c : Caller) : Prop where
  begun : c.stage.isWorking = true ∨ ∃ result, c.stage = .returned result
  brought : c.stage.error?.any Error.isCalledOff = true → Brings b fs moves i

/-- A call that waits for another one, or has returned what that one returns. -/
structure Shares (b : Binary) (fs : FileSystem) (moves : List Move) (w : World) (c : Caller)
    (j : Nat) (d : Caller) : Prop where
  found : w.callers[j]? = some d
  process : d.process = c.process
  group : d.group = c.group
  owns : Owns b fs moves j d
  stage : c.stage = .waiting j ∨
    ∃ result, c.stage = .returned result ∧ d.stage.result? = some result

/-- How a call has come to where it stands. -/
inductive Account (b : Binary) (fs : FileSystem) (moves : List Move) (w : World) (i : Nat)
    (c : Caller) : Prop where
  | idle (stage : c.stage = .check ∨ c.stage = .join) (alone : ∀ j, ¬ Joined b fs moves i j)
  | own (owns : Owns b fs moves i c) (alone : ∀ j, ¬ Joined b fs moves i j)
  | shared {j : Nat} {d : Caller} (joined : Joined b fs moves i j) (shares : Shares b fs moves w c j d)
  | dead (stage : c.stage = .dead)

section Sharing

variable {b : Binary} {fs : FileSystem} {moves : List Move} {m : Move} {w w' : World}
variable {notes more : List Note} {i j : Nat} {c d : Caller} {stage : Stage}

theorem Joined.append (h : Joined b fs moves i j) (more : List Move) :
    Joined b fs (moves ++ more) i j := by
  obtain ⟨rfl, reached, found, missing, leader⟩ := h
  exact ⟨by rw [List.append_assoc, List.cons_append], reached, found, missing, leader⟩

/-- A call joins another one by a move of its own only. -/
theorem Joined.of_concat (h : Joined b fs (moves ++ [m]) i j)
    (hplay : World.play? b moves (.quiet fs) = some (w, notes)) :
    Joined b fs moves i j ∨ m = .join i ∧ ∃ c, w.callers[i]? = some c ∧ w.leader? c = some j := by
  obtain @⟨before, after, v, said, c, split, reached, found, missing, leader⟩ := h
  rcases List.eq_nil_or_concat after with rfl | ⟨after, m', rfl⟩
  · obtain ⟨rfl, hm⟩ := List.append_inj' split rfl
    cases reached.symm.trans hplay
    exact .inr ⟨(List.cons.inj hm).1, c, found, leader⟩
  · refine .inl ⟨(?_ : moves = before ++ .join i :: after), reached, found, missing, leader⟩
    have hsplit : moves ++ [m] = before ++ .join i :: after ++ [m'] := by simpa using split
    exact (List.append_inj' hsplit rfl).1

theorem leader?_eq_some (h : w.leader? c = some j) :
    ∃ d, w.callers[j]? = some d ∧ d.process = c.process ∧ d.group = c.group ∧
      d.stage.isWorking = true := by
  obtain ⟨hj, hd, _⟩ := List.findIdx?_eq_some_iff_getElem.mp h
  simp only [Bool.and_eq_true, beq_iff_eq] at hd
  exact ⟨w.callers[j], List.getElem?_eq_getElem hj, hd.1.1, hd.1.2, hd.2⟩

/-- Nobody joins itself. -/
theorem Joined.ne (h : Joined b fs moves i j) : j ≠ i := by
  obtain ⟨_, _, found, missing, leader⟩ := h
  obtain ⟨d, hd, _, _, hworks⟩ := leader?_eq_some leader
  rintro rfl
  cases found.symm.trans hd
  rw [missing] at hworks
  cases hworks

theorem Brings.append (h : Brings b fs moves i) (more : List Move) :
    Brings b fs (moves ++ more) i := by
  obtain ⟨rfl, reached, found, works, cause⟩ := h
  exact ⟨by rw [List.append_assoc, List.cons_append], reached, found, works, cause⟩

/-- A call goes on by itself, or its process ends. -/
theorem Owns.turn (h : Owns b fs moves i c)
    (hplay : World.play? b moves (.quiet fs) = some (w, notes)) (hi : w.callers[i]? = some c)
    (ht : Turn b w m i c stage) :
    Owns b fs (moves ++ [m]) i { c with stage } ∨ m = .die c.process := by
  cases ht with
  | stays other alive => exact .inl ⟨h.begun, fun he => (h.brought he).append _⟩
  | advances before made =>
      subst made
      refine .inl ⟨.inl rfl, fun he => ?_⟩
      -- What the error is due to lies here, or was there before.
      rcases step_calledOff he with hbefore | hcause
      · exact (h.brought (by rw [before]; exact hbefore)).append _
      · exact .intro rfl hplay hi before hcause
  | writes before made =>
      exact .inl ⟨.inl rfl, fun he => (h.brought (by rw [before]; exact he)).append _⟩
  | leaves before made =>
      exact .inl ⟨.inr ⟨_, rfl⟩, fun he => (h.brought (by rw [before]; exact he)).append _⟩
  | dies made => exact .inr made
  | checks before _ _ | begins before _ _ | joins before _ _ | follows before _ _ _ =>
      rcases h.begun with hworks | ⟨result, hreturned⟩
      · rw [before] at hworks
        cases hworks
      · rw [before] at hreturned
        cases hreturned

/-- A result does not change while a process lives. -/
theorem Turn.result {result : Option Error} (ht : Turn b w m j d stage)
    (h : d.stage.result? = some result) : stage.result? = some result ∨ m = .die d.process := by
  cases ht with
  | stays other alive => exact .inl h
  | @advances point cancelled outcome number refusals before made =>
      rw [before] at h
      cases point with
      | finished _ => exact .inl h
      | _ => cases h
  | leaves before made =>
      rw [before] at h
      exact .inl h
  | dies made => exact .inr made
  | checks before _ _ | begins before _ _ | joins before _ _ | follows before _ _ _
  | writes before _ =>
      rw [before] at h
      cases h

theorem Turn.missing (ht : Turn b w m i c stage) (hm : m = .join i) : c.stage = .join := by
  cases ht with
  | stays other alive =>
      rw [hm] at other
      exact absurd rfl other
  | begins before made nobody => exact before
  | joins before made leader => exact before
  | checks _ made _ | advances _ made | writes _ made | leaves _ made | follows _ made _ _
  | dies made =>
      rw [hm] at made
      cases made

theorem Turn.dead (ht : Turn b w m i c stage) (hm : m = .die c.process) : stage = .dead := by
  cases ht with
  | stays other alive => exact absurd hm alive
  | dies made => rfl
  | begins _ made _ | joins _ made _ | checks _ made _ | advances _ made | writes _ made
  | leaves _ made | follows _ made _ _ =>
      rw [hm] at made
      cases made

/-- Who waits for another call gets its result, unless their process ends. -/
theorem Shares.turn (h : Shares b fs moves w c j d)
    (hplay : World.play? b moves (.quiet fs) = some (w, notes)) (hstep : w.step? b m = some (w', more))
    (ht : Turn b w m i c stage) :
    (∃ d, Shares b fs (moves ++ [m]) w' { c with stage } j d) ∨ stage = .dead := by
  -- The leader lives in the same process, so that both die together.
  by_cases hm : m = .die c.process
  · exact .inr (ht.dead hm)
  · rw [← h.process] at hm
    obtain ⟨stage', hfound, ht'⟩ := World.turn hstep h.found
    have howns := (h.owns.turn hplay h.found ht').resolve_right hm
    refine .inl ⟨{ d with stage := stage' }, hfound, h.process, h.group, howns, ?_⟩
    rcases h.stage with hwaits | ⟨result, hreturned, hgiven⟩
    · cases ht with
      | stays other alive => exact .inl hwaits
      | follows before made found given =>
          cases before.symm.trans hwaits
          cases found.symm.trans h.found
          exact .inr ⟨_, rfl, (ht'.result given).resolve_right hm⟩
      | dies made =>
          rw [h.process] at hm
          exact absurd made hm
      | checks before _ _ | begins before _ _ | joins before _ _ | advances before _
      | writes before _ | leaves before _ => cases before.symm.trans hwaits
    · cases ht with
      | stays other alive =>
          exact .inr ⟨result, hreturned, (ht'.result hgiven).resolve_right hm⟩
      | dies made =>
          rw [h.process] at hm
          exact absurd made hm
      | checks before _ _ | begins before _ _ | joins before _ _ | advances before _
      | writes before _ | leaves before _ | follows before _ _ _ =>
          cases before.symm.trans hreturned

/-- Who finds nobody at work joins nobody. -/
theorem alone_concat (h : ∀ j, ¬ Joined b fs moves i j)
    (hplay : World.play? b moves (.quiet fs) = some (w, notes))
    (hm : ∀ c, m = .join i → w.callers[i]? = some c → w.leader? c = none) (j : Nat) :
    ¬ Joined b fs (moves ++ [m]) i j := by
  intro hj
  rcases hj.of_concat hplay with hj | ⟨hjoin, c, hi, hleader⟩
  · exact h j hj
  · rw [hm c hjoin hi] at hleader
    cases hleader

/-- Every call is accounted for. -/
structure Accounts (b : Binary) (fs : FileSystem) (moves : List Move) (w : World) : Prop where
  callers : ∀ (i : Nat) (c : Caller), w.callers[i]? = some c → Account b fs moves w i c
  newcomers : ∀ i, w.callers[i]? = none → ∀ j, ¬ Joined b fs moves i j

/-- Whoever joins a call waits for one that works by itself. -/
theorem Accounts.join (h : Accounts b fs moves w)
    (hplay : World.play? b moves (.quiet fs) = some (w, notes))
    (hstep : w.step? b (.join i) = some (w', more)) (hleader : w.leader? c = some j) :
    ∃ d, Shares b fs (moves ++ [.join i]) w' { c with stage := .waiting j } j d := by
  obtain ⟨d, hd, hprocess, hgroup, hworks⟩ := leader?_eq_some hleader
  obtain ⟨stage, hfound, ht⟩ := World.turn hstep hd
  have howns : Owns b fs moves j d := by
    cases h.callers j d hd with
    | own owns alone => exact owns
    | idle hstage alone =>
        rcases hstage with hstage | hstage <;> simp [hstage, Stage.isWorking] at hworks
    | shared joined shares =>
        rcases shares.stage with hstage | ⟨result, hstage, _⟩ <;>
          simp [hstage, Stage.isWorking] at hworks
    | dead hstage => simp [hstage, Stage.isWorking] at hworks
  have hstill := (howns.turn hplay hd ht).resolve_right (by simp)
  exact ⟨{ d with stage }, hfound, hprocess, hgroup, hstill, .inl rfl⟩

/-- **A turn can be accounted for.** -/
theorem Accounts.turn (h : Accounts b fs moves w)
    (hplay : World.play? b moves (.quiet fs) = some (w, notes))
    (hstep : w.step? b m = some (w', more)) (hi : w.callers[i]? = some c)
    (ht : Turn b w m i c stage) : Account b fs (moves ++ [m]) w' i { c with stage } := by
  cases h.callers i c hi with
  -- A caller that has not asked, or asks for the first time.
  | idle hstage alone =>
      cases ht with
      | stays other alive =>
          refine .idle hstage (alone_concat alone hplay fun d hm => ?_)
          rw [hm] at other
          exact absurd rfl other
      | checks before made after =>
          have halone : ∀ j, ¬ Joined b fs (moves ++ [m]) i j :=
            alone_concat alone hplay fun d hm => by
              rw [hm] at made
              cases made
          rcases after with rfl | rfl | ⟨e, hpresent, rfl⟩
          · exact .idle (.inr rfl) halone
          · exact .own ⟨.inr ⟨_, rfl⟩, by simp [Stage.error?]⟩ halone
          · exact .own ⟨.inr ⟨_, rfl⟩, by simp [Stage.error?, isCalledOff_present hpresent]⟩ halone
      | begins before made nobody =>
          refine .own ⟨.inl rfl, by simp [Stage.error?, Point.error?]⟩
            (alone_concat alone hplay fun d _ hd => ?_)
          cases hi.symm.trans hd
          exact nobody
      | @joins j before made leader =>
          subst made
          obtain ⟨d, hshares⟩ := h.join hplay hstep leader
          exact .shared (.intro rfl hplay hi before leader) hshares
      | dies made => exact .dead rfl
      | advances before _ | writes before _ | leaves before _ | follows before _ _ _ =>
          rcases hstage with hstage | hstage <;> cases before.symm.trans hstage
  -- A caller at its own provisioning: it never joins another.
  | own owns alone =>
      by_cases hm : m = .die c.process
      · exact .dead (ht.dead hm)
      · have hstill := (owns.turn hplay hi ht).resolve_right hm
        refine .own hstill (alone_concat alone hplay fun _ hjoin => ?_)
        have hstage := ht.missing hjoin
        rcases owns.begun with hworks | ⟨result, hreturned⟩
        · rw [hstage] at hworks
          cases hworks
        · cases hstage.symm.trans hreturned
  | shared joined shares =>
      rcases shares.turn hplay hstep ht with ⟨d, hshares⟩ | hdead
      · exact .shared (joined.append _) hshares
      · exact .dead hdead
  | dead hstage =>
      cases ht with
      | stays other alive => exact .dead hstage
      | dies made => exact .dead rfl
      | checks before _ _ | begins before _ _ | joins before _ _ | advances before _
      | writes before _ | leaves before _ | follows before _ _ _ => cases before.symm.trans hstage

/-- One more move keeps every call accounted for. -/
theorem Accounts.step (h : Accounts b fs moves w)
    (hplay : World.play? b moves (.quiet fs) = some (w, notes))
    (hstep : w.step? b m = some (w', more)) : Accounts b fs (moves ++ [m]) w' := by
  have halone : ∀ i, w.callers[i]? = none → ∀ j, ¬ Joined b fs (moves ++ [m]) i j :=
    fun i hi => alone_concat (h.newcomers i hi) hplay fun c _ hc => by
      rw [hi] at hc
      cases hc
  refine ⟨fun i c' hi' => ?_, fun i hi' => ?_⟩
  · cases hi : w.callers[i]? with
    | none => exact .idle (.inl (World.newcomer hstep hi hi')) (halone i hi)
    | some c =>
        obtain ⟨stage, hfound, ht⟩ := World.turn hstep hi
        cases hfound.symm.trans hi'
        exact h.turn hplay hstep hi ht
  · refine halone i (Option.eq_none_iff_forall_ne_some.mpr fun c hi => ?_)
    obtain ⟨stage, hfound, _⟩ := World.turn hstep hi
    rw [hi'] at hfound
    cases hfound

theorem World.play?_concat {w₀ : World} (hplay : World.play? b moves w₀ = some (w, notes))
    (hstep : w.step? b m = some (w', more)) :
    World.play? b (moves ++ [m]) w₀ = some (w', notes ++ more) := by
  induction moves generalizing w₀ notes with
  | nil =>
      cases hplay
      simp [World.play?, hstep]
  | cons first moves ih =>
      obtain ⟨⟨v, said⟩, hfirst, hplay⟩ := Option.bind_eq_some_iff.mp hplay
      obtain ⟨⟨u, rest⟩, hrest, hplay⟩ := Option.map_eq_some_iff.mp hplay
      cases hplay
      simp [World.play?, hfirst, ih hrest]

/-- **However calls take turns, they are accounted for.** -/
theorem Accounts.play {later : List Move} (h : Accounts b fs moves w)
    (hplay : World.play? b moves (.quiet fs) = some (w, notes))
    (hlater : World.play? b later w = some (w', more)) : Accounts b fs (moves ++ later) w' := by
  induction later generalizing moves w notes more with
  | nil =>
      cases hlater
      rwa [List.append_nil]
  | cons m later ih =>
      obtain ⟨⟨v, first⟩, hstep, hlater⟩ := Option.bind_eq_some_iff.mp hlater
      obtain ⟨⟨u, rest⟩, hrest, hlater⟩ := Option.map_eq_some_iff.mp hlater
      cases hlater
      have hnext := ih (h.step hplay hstep) (World.play?_concat hplay hstep) hrest
      rwa [List.append_assoc] at hnext

theorem accounts_quiet (b : Binary) (fs : FileSystem) : Accounts b fs [] (.quiet fs) := by
  refine ⟨by simp [World.quiet], fun i _ j hj => ?_⟩
  obtain ⟨split, _⟩ := hj
  exact absurd split (by simp)

/-- **A call fails with the error of a context that it has brought upon itself, or that
the call it has joined has.** However calls take turns: one that has joined nobody
returns the error of a context only by a step of its own, at which it had given up,
or which led to that error or found it instead of a version. One that has joined
another call of its provisioner returns what that one returns, which has brought
such an error upon itself in the same way. -/
theorem called_off_by_worker {result : Option Error}
    (hplay : World.play? b moves (.quiet fs) = some (w, notes)) (hi : w.callers[i]? = some c)
    (hreturned : c.stage = .returned result) :
    ((∀ j, ¬ Joined b fs moves i j) ∧
        (result.any Error.isCalledOff = true → Brings b fs moves i)) ∨
      ∃ j d, j ≠ i ∧ Joined b fs moves i j ∧ w.callers[j]? = some d ∧
        d.process = c.process ∧ d.group = c.group ∧ d.stage.result? = some result ∧
        (result.any Error.isCalledOff = true → Brings b fs moves j) := by
  have haccounts := (accounts_quiet b fs).play rfl hplay
  rw [List.nil_append] at haccounts
  cases haccounts.callers i c hi with
  | own owns alone =>
      have hbrought := owns.brought
      rw [hreturned] at hbrought
      exact .inl ⟨alone, hbrought⟩
  | @shared j d joined shares =>
      rcases shares.stage with hwaits | ⟨r, hr, hgiven⟩
      · cases hwaits.symm.trans hreturned
      · cases hr.symm.trans hreturned
        refine .inr ⟨j, d, joined.ne, joined, shares.found, shares.process, shares.group, hgiven, ?_⟩
        have hbrought := shares.owns.brought
        rwa [Stage.error?_of_result? hgiven] at hbrought
  | idle hstage alone => rcases hstage with hstage | hstage <;> cases hstage.symm.trans hreturned
  | dead hstage => cases hstage.symm.trans hreturned

end Sharing

/-! ### Runs -/

/-- Whether a call has returned the error of a context. -/
def calledOff (i : Nat) (run : Option (World × List Note)) : Bool :=
  run.any fun r => r.1.callers[i]?.any fun c =>
    match c.stage with
    | .returned result => result.any Error.isCalledOff
    | _ => false

theorem returned_of_calledOff {i : Nat} {run : Option (World × List Note)}
    (h : calledOff i run = true) :
    ∃ w notes c e, run = some (w, notes) ∧ w.callers[i]? = some c ∧
      c.stage = .returned (some e) ∧ e.isCalledOff = true := by
  obtain ⟨⟨w, notes⟩, hrun, h⟩ := (Option.any_eq_true _ _).mp h
  obtain ⟨c, hi, h⟩ := (Option.any_eq_true _ _).mp h
  split at h
  · next hstage =>
      obtain ⟨e, rfl, he⟩ := (Option.any_eq_true _ _).mp h
      exact ⟨w, notes, c, e, hrun, hi, hstage, he⟩
  · cases h

/-- Whether a call has found the binary missing, and has gone no further. -/
def Stage.isJoin : Stage → Bool
  | .join => true
  | _ => false

theorem Stage.eq_join {stage : Stage} (h : stage.isJoin = true) : stage = .join := by
  cases stage with
  | join => rfl
  | _ => cases h

/-- Two calls find the binary missing. The second one joins the first one, which gives
up when it comes to the lock. -/
def joinedMoves : List Move :=
  [.call 1 0 releases, .call 1 0 releases, .check 0 {}, .check 1 {}, .join 0, .join 1] ++ steps 0 2 ++
    [.advance 0 true (.response 200 (utf8 "BIN") none) 0 {}, .leave 1]

theorem joinedMoves_joined : Joined engine bare joinedMoves 1 0 := by
  have hrun : (World.play? engine (joinedMoves.take 5) (.quiet bare)).any (fun r =>
      r.1.callers[1]?.any fun c => c.stage.isJoin && r.1.leader? c == some 0) = true := by
    decide +kernel
  obtain ⟨⟨w, notes⟩, hplay, hrun⟩ := (Option.any_eq_true _ _).mp hrun
  obtain ⟨c, hi, hc⟩ := (Option.any_eq_true _ _).mp hrun
  obtain ⟨hstage, hleader⟩ := Bool.and_eq_true_iff.mp hc
  exact .intro rfl hplay hi (Stage.eq_join hstage) (beq_iff_eq.mp hleader)

/-- The second call returns the error of the first one, which that has brought upon
itself. -/
theorem joinedMoves_called_off :
    ∃ w notes c j d e, World.play? engine joinedMoves (.quiet bare) = some (w, notes) ∧
      w.callers[1]? = some c ∧ c.stage = .returned (some e) ∧ e.isCalledOff = true ∧ j ≠ 1 ∧
      Joined engine bare joinedMoves 1 j ∧ w.callers[j]? = some d ∧
      d.stage.result? = some (some e) ∧ Brings engine bare joinedMoves j := by
  obtain ⟨w, notes, c, e, hplay, hi, hstage, hoff⟩ := returned_of_calledOff
    (by decide +kernel : calledOff 1 (World.play? engine joinedMoves (.quiet bare)) = true)
  rcases called_off_by_worker hplay hi hstage with
    ⟨halone, _⟩ | ⟨j, d, hj, hjoined, hd, _, _, hgiven, hbrings⟩
  · exact absurd joinedMoves_joined (halone 0)
  · exact ⟨w, notes, c, j, d, e, hplay, hi, hstage, hoff, hj, hjoined, hd, hgiven, hbrings hoff⟩

/-- A place that does not know its release because something has been cancelled. -/
def interrupted : Provisioner :=
  .make "https://example.test" "" (fun _ => .error (.condition .cancelled)) true

/-- Two calls of it, one after the other, of which the first one has given up. -/
def interruptedMoves : List Move :=
  [.call 1 0 interrupted, .check 0 {}, .join 0,
    .advance 0 true (.response 200 (utf8 "BIN") none) 0 {}, .leave 0,
    .call 1 0 interrupted, .check 1 {}, .join 1] ++ steps 1 1 ++ [.leave 1]

/-- **A call that never gives up can fail because something else has been cancelled**: a
call that it has joined, without a step of its own, or whatever looks for the version,
although it has joined nobody. -/
theorem others_called_off :
    (∃ w notes c e, World.play? engine joinedMoves (.quiet bare) = some (w, notes) ∧
      w.callers[1]? = some c ∧ c.stage = .returned (some e) ∧ e.isCalledOff = true ∧
      ∀ cancelled outcome number refusals,
        .advance 1 cancelled outcome number refusals ∉ joinedMoves) ∧
    ∃ w notes c e, World.play? engine interruptedMoves (.quiet bare) = some (w, notes) ∧
      w.callers[1]? = some c ∧ c.stage = .returned (some e) ∧ e.isCalledOff = true ∧
      ∀ outcome number refusals, .advance 1 true outcome number refusals ∉ interruptedMoves := by
  obtain ⟨w, notes, c, e, hplay, hi, hstage, hoff⟩ := returned_of_calledOff
    (by decide +kernel : calledOff 1 (World.play? engine joinedMoves (.quiet bare)) = true)
  obtain ⟨w', notes', c', e', hplay', hi', hstage', hoff'⟩ := returned_of_calledOff
    (by decide +kernel : calledOff 1 (World.play? engine interruptedMoves (.quiet bare)) = true)
  refine ⟨⟨w, notes, c, e, hplay, hi, hstage, hoff, ?_⟩,
    w', notes', c', e', hplay', hi', hstage', hoff', ?_⟩
  · simp [joinedMoves, steps]
  · simp [interruptedMoves, steps]

end Provision

end LanguageClient
