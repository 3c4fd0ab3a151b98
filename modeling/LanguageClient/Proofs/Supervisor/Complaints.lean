import LanguageClient.Proofs.Supervisor.ErrorOutput
import LanguageClient.Proofs.Supervisor.Lifecycle

/-! # What a server complains about, in the log.

Everything a server writes to its error output goes to the log line by line, whatever else
goes on at the supervisor:

* `served es`          — the lines of the log that are marked as the server's;
* `Hears s bytes r`    — what an operation does with the error output;
* `step_hears`         — a step of a thread adds no line of its own;
* `Run.complaints`     — all that a running server has written to its error output;
* `Run.heeds`          — after any events, the log is that of the stream so far;
* `complaints_logged`  — its lines are in the log, each once and in order. -/

namespace LanguageClient.Supervisor

variable {g : Settings} {s s' : State} {i : Nat} {t : Thread} {p : Progress} {bytes : Bytes}
  {es more : List Effect}

/-! ### Lines marked as the server's -/

/-- How a line of error output begins. -/
def serverMark : String := "[server] "

/-- A line of the log that is marked as the server's. -/
def Effect.served? : Effect → Option Report
  | .report (.line text) =>
    if serverMark.toList.isPrefixOf text.toList then some (.line text) else none
  | .report (.octets line) =>
    if (utf8 serverMark).isPrefixOf line then some (.octets line) else none
  | _ => none

/-- The lines of the log that are marked as the server's. -/
def served (es : List Effect) : List Report := es.filterMap Effect.served?

@[simp] theorem served_nil : served [] = [] := rfl

@[simp] theorem served_append (es more : List Effect) : served (es ++ more) = served es ++ served more :=
  List.filterMap_append

theorem served_cons_of_none {e : Effect} (h : e.served? = none) (es : List Effect) :
    served (e :: es) = served es :=
  List.filterMap_cons_none h

theorem served_eq_nil (h : ∀ e ∈ es, e.served? = none) : served es = [] :=
  List.filterMap_eq_nil_iff.mpr h

/-- A line that begins differently is none of the server's. -/
theorem served?_line {text : String} (h : text.toList.take 2 ≠ ['[', 's']) :
    (logged text).served? = none := by
  have hmark : ¬ serverMark.toList.isPrefixOf text.toList = true := by
    intro hprefix
    obtain ⟨rest, hrest⟩ := List.isPrefixOf_iff_prefix.mp hprefix
    apply h
    rw [← hrest]
    rfl
  show (if serverMark.toList.isPrefixOf text.toList then some (Report.line text) else none) = none
  rw [if_neg hmark]

theorem served_logged {text : String} (h : text.toList.take 2 ≠ ['[', 's']) (es : List Effect) :
    served (logged text :: es) = served es :=
  served_cons_of_none (served?_line h) es

theorem served?_errorLine (line : Bytes) : (Effect.report (errorLine line)).served? = some (errorLine line) := by
  have hmark : (utf8 serverMark).isPrefixOf (utf8 serverMark ++ withoutReturn line) = true := by
    rw [List.isPrefixOf_iff_prefix]
    exact List.prefix_append _ _
  show (if (utf8 serverMark).isPrefixOf (utf8 serverMark ++ withoutReturn line)
    then some (errorLine line) else none) = some (errorLine line)
  rw [if_pos hmark]

theorem served_ordinary {said : List String} (h : ∀ text ∈ said, Ordinary text) : served (said.map logged) = [] := by
  apply served_eq_nil
  intro e he
  obtain ⟨text, htext, rfl⟩ := List.mem_map.mp he
  exact served?_line (h text htext).unmarked

/-- What is reported of the error output is marked as the server's. -/
theorem served_reports {rs : List Report} (h : ∀ r ∈ rs, ∃ line, r = errorLine line) :
    served (rs.map .report) = rs := by
  induction rs with
  | nil => rfl
  | cons r rs ih =>
      obtain ⟨hr, hrs⟩ := List.forall_mem_cons.mp h
      obtain ⟨line, rfl⟩ := hr
      rw [List.map_cons, served, List.filterMap_cons_some (served?_errorLine line)]
      exact congrArg (errorLine line :: ·) (ih hrs)

/-- Messages of the server come with marks of their own. -/
theorem served?_message (m : ServerMessage) : (Effect.report m.line).served? = none := by
  apply served?_line
  unfold messageWord
  (repeat' split) <;> simp

theorem served_reportsOf (label method : String) (params : Option Bytes) :
    served ((reportsOf label method params).map .report) = [] := by
  -- Nothing that the reports consist of begins like a line of the server's stderr.
  simp only [reportsOf]
  split
  · split
    · exact served_cons_of_none (served?_message _) []
    · rfl
  · split
    · split
      · next m _ =>
          refine (served_cons_of_none (served?_message m) _).trans ?_
          split <;> rfl
      · rfl
    · split
      · split
        · apply served_eq_nil
          intro e he
          obtain ⟨r, hr, rfl⟩ := List.mem_map.mp he
          rcases List.mem_cons.mp hr with rfl | hr
          · exact served?_line (by simp)
          · obtain ⟨d, -, rfl⟩ := List.mem_map.mp hr
            exact served?_line (by simp)
        · rfl
      · exact served_logged (by simp) []

theorem served_announce (moved : Option Transition) : served (State.announce moved) = [] := by
  apply served_eq_nil
  intro e he
  cases moved with
  | none => cases he
  | some x =>
      obtain ⟨_, -, rfl⟩ := List.mem_map.mp he
      rfl

/-! ### What operations do with the error output -/

/-- The error output of the process, and whether the process runs. -/
def State.ear (s : State) : Option (Bool × ErrorOutput) := s.process.map fun p => (p.isRunning, p.errorOutput)

theorem State.running?_eq_ear (s : State) : s.running? = s.ear.map Prod.fst := by
  unfold running? ear
  cases s.process <;> rfl

/-- An operation that has nothing to do with the error output. -/
structure Deaf (s : State) (r : State × List Effect) : Prop where
  ear : r.1.ear = s.ear
  silent : served r.2 = []

/-- What an operation does with the error output, unless it is the server writing to it. -/
inductive Hears (s : State) (r : State × List Effect) : Prop where
  | aside (h : Deaf s r)
  /-- There is a process now. -/
  | begun (before : s.ear = none) (ear : r.1.ear = some (true, {})) (silent : served r.2 = [])
  /-- The process ends, and what is left is said. -/
  | ended (o : ErrorOutput) (before : s.ear = some (true, o)) (ear : r.1.ear = some (false, o.finish.1))
      (said : served r.2 = o.finish.2)

theorem Deaf.refl (s : State) : Deaf s (s, []) := ⟨rfl, rfl⟩

theorem Deaf.append (h : Deaf s (s', es)) (hmore : served more = []) : Deaf s (s', es ++ more) :=
  ⟨h.ear, by rw [served_append, h.silent, hmore, List.append_nil]⟩

/-- What else is shown makes no difference. -/
theorem Hears.of_served_eq (h : Hears s (s', es)) (hsaid : served more = served es) :
    Hears s (s', more) := by
  cases h with
  | aside h => exact .aside ⟨h.ear, hsaid.trans h.silent⟩
  | begun before ear silent => exact .begun before ear (hsaid.trans silent)
  | ended o before ear said => exact .ended o before ear (hsaid.trans said)

/-- It goes by the process alone. -/
theorem Hears.of_ear_eq {s₁ : State} {r : State × List Effect} (h : Hears s₁ r) (hear : s₁.ear = s.ear) :
    Hears s r := by
  cases h with
  | aside h => exact .aside ⟨h.ear.trans hear, h.silent⟩
  | begun before ear silent => exact .begun (hear.symm.trans before) ear silent
  | ended o before ear said => exact .ended o (hear.symm.trans before) ear said

namespace State

/-- A change of state is none of the error output's business, even one that is refused. -/
theorem transition_deaf (target : Lifecycle) (e : Option Error) (s : State) :
    Deaf s ((s.transition target e).1, (s.transition target e).2.1) := by
  unfold transition
  split
  · exact ⟨rfl, rfl⟩
  · refine ⟨rfl, served_logged ?_ []⟩
    unfold ignoredLine
    simp

theorem withConnection_deaf (c : Rpc.Connection) (effects : List Rpc.Effect) (s : State) :
    Deaf s (s.withConnection c effects) := by
  refine ⟨rfl, ?_⟩
  show served (effects.flatMap _) = []
  induction effects with
  | nil => rfl
  | cons x effects ih =>
      rw [List.flatMap_cons, served_append, ih, List.append_nil]
      cases x with
      | wrote frame => rfl
      | notified label method params => exact served_reportsOf label method params
      | returned id o => rfl

theorem onConnection_deaf (f : Rpc.Connection → Rpc.Connection × List Rpc.Effect) (s : State) :
    Deaf s (s.onConnection f) := by
  unfold onConnection
  cases s.connection with
  | none => exact Deaf.refl s
  | some c => exact withConnection_deaf _ _ s

theorem release_deaf (task : Task) (why : Condition) (s : State) : Deaf s (s.release task why) := by
  unfold release
  cases task.awaited? with
  | none => exact Deaf.refl s
  | some id => exact onConnection_deaf _ s

/-- A process that ends has its error output read to the end. -/
theorem exit_hears (code : Int) (s : State) : Hears s (s.exit code) := by
  unfold exit
  cases hp : s.process with
  | none => exact .aside (Deaf.refl s)
  | some q =>
      by_cases hr : q.isRunning
      · simp only [hr, if_true]
        have hhang := onConnection_deaf Rpc.Connection.hangup
          { s with process := some { q with exitCode := some code, errorOutput := q.errorOutput.finish.1 } }
        refine .ended q.errorOutput ?_ hhang.ear ?_
        · rw [ear, hp, Option.map_some, hr]
        · rw [served_append, hhang.silent, List.append_nil]
          exact served_reports fun r => ErrorOutput.eq_errorLine_of_mem_finish
      · simp only [hr]
        exact .aside (Deaf.refl s)

theorem kill_hears (g : Settings) (s : State) : Hears s (s.kill g) := by
  unfold kill
  cases hp : s.process with
  | none => exact .aside (Deaf.refl s)
  | some q =>
      have hear : ear { s with process := some { q with kills := q.kills + 1 } } = s.ear := by
        rw [ear, ear, hp]
        rfl
      have hkilled (shown : List Effect) {failure : List Effect} (h : served failure = []) :
          served (.killed :: shown ++ failure) = served shown := by
        rw [List.cons_append, served_cons_of_none rfl, served_append, h, List.append_nil]
      have hfailure (e : Error) : served [logged ("Failed to kill language server: " ++ e.message)] = [] :=
        served_logged (by simp) []
      -- Without an exit code the process dies later, and nothing is read now.
      cases g.killCode with
      | none =>
          refine .aside ⟨hear, hkilled [] ?_⟩
          cases g.killError with
          | none => rfl
          | some e => exact hfailure e
      | some code =>
          refine ((exit_hears code _).of_ear_eq hear).of_served_eq (hkilled _ ?_)
          cases g.killError with
          | none => rfl
          | some e => exact hfailure e

end State

/-! ### Steps of threads -/

/-- A step logs nothing of the error output, except what is left of it when the process is killed. -/
theorem Does.hears {τ : Task} (h : Does g i t s τ p) (hf : τ.Fits s i) : Hears s (p.state, p.effects) := by
  cases h with
  | passes row => exact .aside ⟨rfl, served_ordinary row.ordinary⟩
  | marks row =>
      refine .aside ⟨?_, served_ordinary row.ordinary⟩
      cases row <;> rfl
  | @shifts _ s₁ target e _ row =>
      have hmoved := State.transition_deaf target e s₁
      have hear := congrArg State.ear row.same
      exact .aside ⟨hmoved.ear.trans hear, hmoved.silent⟩
  | @informs moved _ _ _ said results _ row =>
      refine .aside ⟨?_, ?_⟩
      · cases row <;> rfl
      · have hresults : served (results.map (Effect.returned i)) = [] := served_eq_nil (by simp [Effect.served?])
        rw [served_append, served_append, served_announce, served_ordinary row.ordinary, hresults]
        rfl
  -- The line about the spawning is the client's own.
  | @spawns mode _ _ launch _ result =>
      have hline : served [logged ("Spawning " ++ launch.text ++ " (" ++ mode.name ++ " mode)"), .spawned launch] = [] :=
        served_logged (ordinary_spawning launch mode).unmarked _
      -- There is no process yet, and so no stderr either.
      have hnone : s.ear = none := by
        have hprocess : s.running? = none := hf.2.2.2
        rw [State.running?, Option.map_eq_none_iff] at hprocess
        rw [State.ear, hprocess]
        rfl
      rcases result with ⟨e, -, rfl, rfl⟩ | ⟨-, rfl, rfl⟩
      · exact .aside ⟨rfl, hline⟩
      · exact .begun hnone rfl hline
  | talks _ row => exact .aside ((State.withConnection_deaf _ _ s).append (served_ordinary row.ordinary))
  | sends => exact .aside ((State.withConnection_deaf _ _ s).append rfl)
  | kills row =>
      have hsaid := served_ordinary row.ordinary
      exact (State.kill_hears g s).of_served_eq (by rw [served_append, hsaid]; rfl)
  | closes row =>
      exact .aside ((State.onConnection_deaf Rpc.Connection.close s).append (served_ordinary row.ordinary))
  | returns row =>
      refine .aside ⟨?_, rfl⟩
      cases row <;> rfl
  | tells => exact .aside ⟨rfl, served_logged (by simp) _⟩

/-- **A step of a thread adds nothing to what the server says**, but for a step that ends the
process. -/
theorem step_hears (hf : t.task.Fits s i) (h : step g i t s = some p) : Hears s (p.state, p.effects) :=
  (does_of_step h).hears hf

/-! ### The log of a stream -/

/-- What holds of the error output, and of what was said of it, when a server has written
`stream` so far. -/
def Heeds (stream : Bytes) (said : List Report) : Option (Bool × ErrorOutput) → Prop
  | none => stream = [] ∧ said = []
  | some (true, o) => Reads stream o said
  | some (false, o) =>
    o.closed = true ∧ ∃ lines tail, Lined stream lines tail ∧ said = loggedLines (lines ++ lastLine tail)

variable {stream : Bytes} {said : List Report}

theorem Heeds.hears {r : State × List Effect} (h : Heeds stream said s.ear) (hr : Hears s r) :
    Heeds stream (said ++ served r.2) r.1.ear := by
  cases hr with
  | aside hd =>
      rw [hd.silent, List.append_nil, hd.ear]
      exact h
  | begun before ear silent =>
      rw [before] at h
      obtain ⟨rfl, rfl⟩ := h
      rw [silent, ear]
      exact reads_nil
  | ended o before ear said =>
      rw [before] at h
      rw [said, ear]
      exact ⟨rfl, Reads.finish h⟩

/-- What the process writes to its error output: nothing any more once it has ended. -/
def State.complaint (bytes : Bytes) (s : State) : Bytes := if s.running? = some true then bytes else []

/-- The error output that arrives is logged as far as its lines are complete. -/
theorem Heeds.complain (h : Heeds stream said s.ear) (bytes : Bytes) :
    Heeds (stream ++ s.complaint bytes) (said ++ served (s.receiveErrors bytes).2)
      (s.receiveErrors bytes).1.ear := by
  cases hp : s.process with
  | none =>
      have hnothing : s.complaint bytes = [] := by simp [State.complaint, State.running?, hp]
      have hread : s.receiveErrors bytes = (s, []) := by simp [State.receiveErrors, hp]
      rw [hnothing, hread, List.append_nil, served_nil, List.append_nil]
      exact h
  | some q =>
      have hserved : served (s.receiveErrors bytes).2 = (q.errorOutput.receive bytes).2 := by
        simp only [State.receiveErrors, hp]
        exact served_reports fun r => ErrorOutput.eq_errorLine_of_mem_receive
      have hear : (s.receiveErrors bytes).1.ear = some (q.isRunning, (q.errorOutput.receive bytes).1) := by
        simp only [State.receiveErrors, hp]
        rfl
      rw [hserved, hear]
      rw [State.ear, hp, Option.map_some] at h
      cases hrun : q.isRunning with
      | true =>
          have hwritten : s.complaint bytes = bytes := by simp [State.complaint, State.running?, hp, hrun]
          rw [hrun] at h
          rw [hwritten]
          exact Reads.receive h bytes
      -- A process that has ended writes nothing, and its reader has finished.
      | false =>
          have hwritten : s.complaint bytes = [] := by simp [State.complaint, State.running?, hp, hrun]
          rw [hrun] at h
          have hread : q.errorOutput.receive bytes = (q.errorOutput, []) := by
            simp [ErrorOutput.receive, h.1]
          rw [hwritten, hread, List.append_nil, List.append_nil]
          exact h

/-! ### The log of a run -/

/-- What the server writes to its error output in an event. -/
def Event.complaint (s : State) : Event → Bytes
  | .deed (.complain bytes) => s.complaint bytes
  | _ => []

namespace Run

variable {r r' : Run} {e : Event} {events : List Event}

/-- All that the server writes to its error output over some events. -/
def complaints (g : Settings) : List Event → Run → Bytes
  | [], _ => []
  | e :: events, r => e.complaint r.system.state ++ (r.happen? g e).elim [] (complaints g events)

theorem play?_append (first rest : List Event) (r : Run) :
    r.play? g (first ++ rest) = (r.play? g first).bind (play? g rest) := by
  induction first generalizing r with
  | nil => rfl
  | cons e first ih =>
      show (r.happen? g e).bind (play? g (first ++ rest)) = ((r.happen? g e).bind (play? g first)).bind _
      rw [Option.bind_assoc]
      exact Option.bind_congr fun r₁ _ => ih r₁

/-- What is written later comes behind what was written before. -/
theorem complaints_append {first : List Event} (h : r.play? g first = some r') (rest : List Event) :
    r.complaints g (first ++ rest) = r.complaints g first ++ r'.complaints g rest := by
  induction first generalizing r with
  | nil =>
      cases h
      rfl
  | cons e first ih =>
      obtain ⟨r₁, he, hrest⟩ := Option.bind_eq_some_iff.mp h
      rw [List.cons_append, complaints, complaints, he, Option.elim_some, Option.elim_some, ih hrest,
        List.append_assoc]

/-- One more event. -/
theorem heeds_happen? (hinv : Invariant r.system) (h : Heeds stream (served r.effects) r.system.state.ear)
    (he : r.happen? g e = some r') :
    Heeds (stream ++ e.complaint r.system.state) (served r'.effects) r'.system.state.ear := by
  -- All events but one leave the stream alone.
  have hother {σ : System} {new : List Effect} (hears : Hears r.system.state (σ.state, new)) :
      Heeds (stream ++ []) (served (r.effects ++ new)) σ.state.ear := by
    rw [List.append_nil, served_append]
    exact h.hears hears
  cases e with
  | call task cancelled hasty =>
      simp only [happen?] at he
      split at he <;> cases he
      exact hother (.aside (Deaf.refl _))
  | observe =>
      cases he
      exact hother (.aside ⟨rfl, rfl⟩)
  | advance i =>
      simp only [happen?] at he
      split at he
      · cases he
      · next t ht =>
          obtain ⟨p, hp, rfl⟩ := Option.map_eq_some_iff.mp he
          exact hother (step_hears (hinv.fits i t ht) hp)
  | cancel i =>
      simp only [happen?] at he
      split at he
      · cases he
      · split at he <;> cases he
        exact hother (.aside (State.release_deaf _ _ _))
  | expire i =>
      simp only [happen?] at he
      split at he <;> cases he
      exact hother (.aside (State.release_deaf _ _ _))
  | deed d =>
      cases he
      cases d with
      | complain bytes =>
          show Heeds (stream ++ r.system.state.complaint bytes) (served (r.effects ++ _)) _
          rw [served_append]
          exact h.complain bytes
      | exit code => exact hother (State.exit_hears code _)
      | send bytes => exact hother (.aside (State.onConnection_deaf (Rpc.Connection.receive bytes) _))
      | hangup => exact hother (.aside (State.onConnection_deaf Rpc.Connection.hangup _))
      | accept left =>
          exact hother (.aside (State.onConnection_deaf (fun c => (limitWrites left c, [])) _))

/-- **After any events, the log is that of the stream so far.** -/
theorem heeds (hs : Steps g {} r.path r.effects r.system)
    (h : Heeds stream (served r.effects) r.system.state.ear) (hplay : r.play? g events = some r') :
    Heeds (stream ++ r.complaints g events) (served r'.effects) r'.system.state.ear := by
  induction events generalizing r stream with
  | nil =>
      cases hplay
      rw [complaints, List.append_nil]
      exact h
  | cons e events ih =>
      obtain ⟨r₁, he, hrest⟩ := Option.bind_eq_some_iff.mp hplay
      have hnow := heeds_happen? (hs.invariant invariant_initial) h he
      rw [complaints, he, Option.elim_some, ← List.append_assoc]
      exact ih (happen?_steps hs he) hnow hrest

theorem heeds_begin (hplay : (begin {}).play? g events = some r) :
    Heeds ((begin {}).complaints g events) (served r.effects) r.system.state.ear :=
  heeds Steps.refl (show Heeds [] [] none from ⟨rfl, rfl⟩) hplay

end Run

/-! ### A server that complains -/

def spawnEvents : List Event :=
  [.call (.start .run .enter) false false, .advance 0, .advance 0, .advance 0, .advance 0]

theorem spawn_played :
    ∃ r q, (Run.begin {}).play? presentServer spawnEvents = some r ∧ r.system.state.process = some q ∧
      q.exitCode = none ∧ (Run.begin {}).complaints presentServer spawnEvents = [] := by
  have hplayed : ((Run.begin {}).play? presentServer spawnEvents).map
      (fun r => r.system.state.process.map (·.exitCode)) = some (some none) ∧
      (Run.begin {}).complaints presentServer spawnEvents = [] := by
    decide +kernel
  obtain ⟨r, hr, hprocess⟩ := Option.map_eq_some_iff.mp hplayed.1
  obtain ⟨q, hq, hcode⟩ := Option.map_eq_some_iff.mp hprocess
  exact ⟨r, q, hr, hq, hcode, hplayed.2⟩

/-- A process that runs ends by exiting, whatever it has written before. -/
theorem State.running?_exit {q : Process} (hq : s.process = some q) (hcode : q.exitCode = none)
    (bytes : Bytes) (code : Int) : ((s.receiveErrors bytes).1.exit code).1.running? = some false := by
  have hreceived : (s.receiveErrors bytes).1.process =
      some { q with errorOutput := (q.errorOutput.receive bytes).1 } := by
    simp only [receiveErrors, hq]
  simp only [exit, hreceived, Process.isRunning, hcode, Option.isNone_none, if_true]
  rw [running?_eq_ear, (onConnection_deaf Rpc.Connection.hangup _).ear]
  rfl

/-- A server that is spawned, complains and then exits. -/
def complainEvents (bytes : Bytes) : List Event := spawnEvents ++ [.deed (.complain bytes), .deed (.exit 3)]

/-- Whatever octets the server complains with, it can be played. -/
theorem complain_played (bytes : Bytes) :
    ∃ r, (Run.begin {}).play? presentServer (complainEvents bytes) = some r ∧
      (Run.begin {}).complaints presentServer (complainEvents bytes) = bytes ∧
      r.system.state.running? = some false := by
  obtain ⟨r, q, hr, hq, hcode, hsilent⟩ := spawn_played
  have hlate : ∃ r', r.play? presentServer [.deed (.complain bytes), .deed (.exit 3)] = some r' ∧
      r'.system.state = ((r.system.state.receiveErrors bytes).1.exit 3).1 := ⟨_, rfl, rfl⟩
  obtain ⟨r', hr', hstate⟩ := hlate
  refine ⟨r', ?_, ?_, ?_⟩
  · rw [complainEvents, Run.play?_append, hr]
    exact hr'
  · have hwritten : r.system.state.complaint bytes = bytes := by
      simp [State.complaint, State.running?, hq, Process.isRunning, hcode]
    rw [complainEvents, Run.complaints_append hr, hsilent]
    show [] ++ (r.system.state.complaint bytes ++ ([] ++ [])) = bytes
    rw [hwritten, List.append_nil, List.append_nil, List.nil_append]
  · rw [hstate]
    exact State.running?_exit hq hcode bytes 3

/-! ### What is logged -/

/-- **The error output of a server is logged**, in every interleaving: each line in front of
the first one that is too long, in order. If none is too long, and the tail is not, a server
that runs has had all its lines logged, its tail is kept until more arrives or the stream ends,
and once the process has ended the tail is the last line of the log, unless it is empty. -/
theorem complaints_logged {g : Settings} {events : List Event} {r : Run}
    (hplay : (Run.begin {}).play? g events = some r) :
    ∃ lines tail, Lined ((Run.begin {}).complaints g events) lines tail ∧
      loggedLines lines <+: served r.effects ∧
      ((lines ++ [tail]).all isShort = true →
        (r.system.state.running? = some true →
          served r.effects = lines.map errorLine ∧
            ∃ p, r.system.state.process = some p ∧ p.errorOutput = { pending := tail } ∧
              p.errorOutput.finish.2 = (lastLine tail).map errorLine) ∧
        (r.system.state.running? ≠ some true →
          served r.effects = (lines ++ lastLine tail).map errorLine)) := by
  have h := Run.heeds_begin hplay
  unfold State.running?
  rw [State.ear] at h
  cases hp : r.system.state.process with
  | none =>
      rw [hp] at h
      obtain ⟨hstream, hsaid⟩ := h
      refine ⟨[], [], hstream ▸ lined_nil, ?_⟩
      rw [hsaid]
      exact ⟨List.prefix_rfl, fun _ => ⟨by simp, fun _ => rfl⟩⟩
  | some q =>
      rw [hp, Option.map_some] at h
      cases hrun : q.isRunning with
      | true =>
          rw [hrun] at h
          obtain ⟨lines, tail, hlined, hout, hsaid⟩ := h
          refine ⟨lines, tail, hlined, ?_⟩
          rw [hsaid]
          refine ⟨List.prefix_rfl, ?_⟩
          intro hshort
          -- All lines are short, so each of them has been logged.
          have hlines : lines.all isShort = true := by
            rw [List.all_append, Bool.and_eq_true] at hshort
            exact hshort.1
          have hkept : q.errorOutput = { pending := tail } := by rw [hout, standing, if_pos hshort]
          refine ⟨?_, by simp [hrun]⟩
          intro _
          refine ⟨loggedLines_of_short hlines, q, rfl, hkept, ?_⟩
          rw [hkept, finish_pending]
      -- The process has ended: what it left without a line feed counts as a line.
      | false =>
          rw [hrun] at h
          obtain ⟨-, lines, tail, hlined, hsaid⟩ := h
          refine ⟨lines, tail, hlined, ?_⟩
          rw [hsaid]
          refine ⟨loggedLines_isPrefixOf lines _, ?_⟩
          intro hshort
          refine ⟨by simp [hrun], ?_⟩
          intro _
          apply loggedLines_of_short
          rw [List.all_append, Bool.and_eq_true, List.all_cons, List.all_nil, Bool.and_true] at hshort
          rw [List.all_append, hshort.1, all_lastLine hshort.2]
          rfl

/-- A line that ends in a carriage return, and a tail that is no text. -/
theorem booting_logged :
    ∃ r, (Run.begin {}).play? presentServer (complainEvents (utf8 "engine booting\r\n" ++ [0xFF])) = some r ∧
      served r.effects =
        [.octets (utf8 "[server] engine booting"), .octets (utf8 "[server] " ++ [0xFF])] := by
  obtain ⟨r, hplay, hstream, hended⟩ := complain_played (utf8 "engine booting\r\n" ++ [0xFF])
  obtain ⟨lines, tail, hlined, -, hshort⟩ := complaints_logged hplay
  have hwhole : Lined (utf8 "engine booting\r\n" ++ [0xFF]) [utf8 "engine booting\r"] [0xFF] :=
    ⟨by decide +kernel, by decide +kernel, by decide +kernel⟩
  rw [hstream] at hlined
  obtain ⟨rfl, rfl⟩ := hlined.unique hwhole
  refine ⟨r, hplay, ?_⟩
  rw [(hshort (by decide +kernel)).2 (by simp [hended])]
  decide +kernel

/-- A line that is too long keeps itself and the line behind it out of the log. -/
theorem long_line_lost {line : Bytes} (hline : 0x0A ∉ line) (hlong : isShort line = false) :
    ∃ r lines tail,
      (Run.begin {}).play? presentServer (complainEvents (line ++ 0x0A :: (utf8 "next" ++ [0x0A]))) = some r ∧
      Lined ((Run.begin {}).complaints presentServer (complainEvents (line ++ 0x0A :: (utf8 "next" ++ [0x0A]))))
        lines tail ∧
      r.system.state.running? = some false ∧
      served r.effects ≠ (lines ++ lastLine tail).map errorLine := by
  obtain ⟨r, hplay, hstream, hended⟩ := complain_played (line ++ 0x0A :: (utf8 "next" ++ [0x0A]))
  have hlined : Lined (line ++ 0x0A :: (utf8 "next" ++ [0x0A])) [line, utf8 "next"] [] :=
    Lined.cons hline (Lined.cons (by decide +kernel) lined_nil)
  refine ⟨r, [line, utf8 "next"], [], hplay, hstream.symm ▸ hlined, hended, ?_⟩
  have h := Run.heeds_begin hplay
  rw [State.running?_eq_ear] at hended
  obtain ⟨⟨running, o⟩, hear, rfl⟩ := Option.map_eq_some_iff.mp hended
  rw [hear, hstream] at h
  obtain ⟨-, lines, tail, hsplit, hsaid⟩ := h
  obtain ⟨rfl, rfl⟩ := hsplit.unique hlined
  rw [hsaid, loggedLines, List.cons_append, List.takeWhile_cons, hlong]
  simp

/-- A line as long as no line may be, and one more. -/
def longComplaint : Bytes := List.replicate maxErrorLine 0x61 ++ 0x0A :: (utf8 "next" ++ [0x0A])

/-- **Not all error output is logged.** -/
theorem long_complaint_lost :
    ∃ r lines tail, (Run.begin {}).play? presentServer (complainEvents longComplaint) = some r ∧
      Lined ((Run.begin {}).complaints presentServer (complainEvents longComplaint)) lines tail ∧
      r.system.state.running? = some false ∧
      served r.effects ≠ (lines ++ lastLine tail).map errorLine := by
  have hfree : 0x0A ∉ List.replicate maxErrorLine (0x61 : UInt8) := by
    intro hmem
    have heq := List.eq_of_mem_replicate hmem
    cases heq
  have hlong : isShort (List.replicate maxErrorLine 0x61) = false := by
    rw [isShort, List.length_replicate]
    exact decide_eq_false (Nat.lt_irrefl _)
  exact long_line_lost hfree hlong

end LanguageClient.Supervisor
