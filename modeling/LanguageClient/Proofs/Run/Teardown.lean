import LanguageClient.Proofs.Run.Upkeep

/-! # What a run leaves behind.

A run begins by activating the client, and either no supervisor was made, or one was and
is tended from then on (`activate_activated`). However it goes on, what it sends is an
`Account` of the documents it opened, and it ends its session by a call that stops the
server and that nothing cuts short (`run_ends`). So `torn_down` holds of every run that
returns: of one that fails at once, of one whose files cannot be read, of one whose
server crashes, and of one that is interrupted at any time. -/

namespace LanguageClient.Run

open Supervisor

variable (k : Conditions) (c : Client)

/-! ### Activating -/

/-- What activating the client comes to. Either no supervisor was made, or one was
attached to the session and told to start. -/
inductive Activated : Course × Session Unit (Bridge Course) × Option Error → Prop where
  | aborted {p : Course} {session : Session Unit (Bridge Course)} {e : Error}
      (server : p.now.server = none) (sent : p.now.sent = [])
      (phase : session.phase ≠ .deactivated) (detached : session.server = none) :
      Activated (p, session, some e)
  | attached {p : Course} {session : Session Unit (Bridge Course)} {failure : Option Error}
      (sent : p.now.sent = []) (holds : Holds p) (phase : session.phase ≠ .deactivated)
      (server : session.server = some ())
      (bridge : session.bridge = some (Ledger.bridge c.selector Course.notify)) :
      Activated (p, session, failure)

theorem sayAll_eq (reports : List Report) (p : Course) :
    (means k c).activator.sayAll reports p = p := by
  induction reports with
  | nil => rfl
  | cons r rs ih => exact ih

/-- Making a binary available leaves supervisors alone. -/
theorem prepare_kept {p : Course} (hserver : p.now.server = none) :
    ((means k c).activator.prepare p).1.now.server = none ∧
      ((means k c).activator.prepare p).1.now.sent = p.now.sent := by
  simp only [Activator.prepare, means, CommandLine.meansOf, world]
  split
  · exact ⟨hserver, rfl⟩
  · next h => cases h
  · next b provision _ h =>
      cases h
      have hkept := (Course.await_kept (Q := fun _ => True) p Circumstances.anyway?
        (persists_true _) fun _ _ => trivial).1
      have hnone : (p.await Circumstances.anyway?).1.now.server = none := by
        simpa [hserver] using hkept.present
      exact ⟨hnone, hkept.sent⟩

/-- **A server that a run has started is tended**, whatever came of starting it. -/
theorem start_holds {p : Course} {v : Supervision} (hv : p.now.server = some v) (hidle : Idle v)
    (hlines : v.lines = []) (hsent : p.now.sent = []) (mode : LaunchMode) (cancelled hasty : Bool) :
    Holds (p.call { task := .start mode .enter, cancelled, hasty }).1 ∧
      (p.call { task := .start mode .enter, cancelled, hasty }).1.now.sent = [] := by
  obtain ⟨halone, hthread⟩ := hidle.fork (.start mode .enter) rfl cancelled hasty
  obtain ⟨v', hv', ⟨halone, hstarting⟩, hsent', -, hgoes⟩ := Course.call_kept
    (Q := fun u => Alone v.system.threads.length u ∧ Starting v.system.threads.length u) hv
    { task := .start mode .enter, cancelled, hasty } (persists_alone (fun _ _ _ h => h.happen) _)
    ⟨halone, ⟨_, hthread, Or.inl ⟨mode, rfl⟩⟩, by simp [Supervision.fork, hlines]⟩
  rw [hsent] at hsent'
  refine ⟨fun hl => ⟨v', hv', ?_⟩, hsent'⟩
  rw [hsent']
  exact hstarting.tended halone (hgoes hl).2

theorem activate_activated {p : Course} (hserver : p.now.server = none) (hsent : p.now.sent = [])
    (id : SessionId) (mode : LaunchMode) :
    Activated c ((means k c).activator.activate id mode p) := by
  obtain ⟨hserver', hsent'⟩ := prepare_kept k c hserver
  simp only [Activator.activate]
  rw [show (means k c).activator.say (.line "Extension activating...") p = p from rfl]
  cases hr : (means k c).activator.prepare p with
  | mk q r =>
      rw [hr] at hserver' hsent'
      cases r with
      | error e =>
          simp only [sayAll_eq]
          exact .aborted hserver' (hsent'.trans hsent) (by simp) rfl
      | ok binary =>
          simp only [sayAll_eq, Session.attach, reduceCtorEq, if_false, Option.isSome_none,
            Bool.false_eq_true]
          obtain ⟨hholds, hsent''⟩ := start_holds
            (p := ((means k c).activator.servers.supervise binary q).1) rfl
            (idle_observed _) rfl (hsent'.trans hsent) mode q.now.interrupted k.hasty
          exact .attached hsent'' hholds (by simp) rfl rfl

/-! ### Stopping -/

/-- From `v₀` to `v` the server was stopped, and nothing was passed to it any more. -/
structure Ceased (v₀ v : Supervision) : Prop where
  reached : v.Reached
  stopped : v.system.state.lifecycle = .stopped
  reaped : v.system.state.running? ≠ some true
  unpassed : ∃ after, spoken v.lines = spoken v₀.lines ++ after ∧ ∀ l ∈ after, isPassed l = false
  steady : v.steady = true → v₀.steady = true

/-- **A server that is tended is stopped**, if the call that stops it returns. -/
theorem stop_ceased {p : Course} (h : Holds p) {hasty : Bool}
    (hl : (p.call { task := .stop .acquire, hasty }).1.lost = false) :
    ∃ v₀ v, Tended p.now.sent v₀ ∧
      (p.call { task := .stop .acquire, hasty }).1.now.server = some v ∧ Ceased v₀ v := by
  have hp : p.lost = false := call_lost hl
  obtain ⟨v₀, hv₀, htended⟩ := h hp
  obtain ⟨halone, hthread⟩ := htended.idle.fork (.stop .acquire) rfl false hasty
  have hinv := halone.reached.invariant
  obtain ⟨v, hv, ⟨halone, hstopping, hsteady⟩, -, -, hgoes⟩ := Course.call_kept
    (Q := fun u => Alone v₀.system.threads.length u ∧
      Stopping v₀.system.threads.length (spoken v₀.lines)
        (v₀.fork { task := .stop .acquire, hasty }) u ∧ (u.steady = true → v₀.steady = true)) hv₀
    { task := .stop .acquire, hasty }
    (fun w u e _ hadm h => ⟨(h.1.happen hadm).1, h.2.1.happen h.1 hadm,
      fun hs => h.2.2 (steady_happen hs)⟩)
    ⟨halone, ⟨⟨_, hthread, Or.inl ⟨_, rfl⟩⟩, ⟨[], by simp [Supervision.fork], by simp⟩,
      ⟨_, _, Steps.refl⟩⟩, id⟩
  obtain ⟨hstopped, hreaped⟩ :=
    hstopping.stopped hinv (hgoes hl).2 ⟨_, _, hthread⟩ htended.used
  exact ⟨v₀, v, htended, hv, ⟨halone.reached, hstopped, hreaped, hstopping.unpassed, hsteady⟩⟩

/-- A deactivation marks the session, and stops the server if there is one. -/
theorem deactivate_eq {s : Session Unit (Bridge Course)} (h : s.phase ≠ .deactivated) (p : Course) :
    ((means k c).activator.deactivate s p).2.phase = .deactivated ∧
      ((means k c).activator.deactivate s p).2.server = s.server ∧
      ((means k c).activator.deactivate s p).1 =
        if s.server = none then p else (p.call { task := .stop .acquire, hasty := k.hasty }).1 := by
  simp only [Activator.deactivate, Session.deactivate, Session.beginDeactivation, if_neg h]
  refine ⟨rfl, rfl, ?_⟩
  rw [sayAll_eq]
  cases s.server <;> rfl

/-! ### How runs end -/

/-- What a run comes to before it ends its session. -/
inductive Conducted : Course → Session Unit (Bridge Course) → Prop where
  | aborted {p : Course} {session : Session Unit (Bridge Course)} (server : p.now.server = none)
      (sent : p.now.sent = []) (detached : session.server = none) : Conducted p session
  | served {p : Course} {session : Session Unit (Bridge Course)} {docs : List Document}
      (holds : Holds p) (account : Account docs p.now.sent) (server : session.server = some ()) :
      Conducted p session

/-- A run ends by deactivating its session, which nobody can call off. -/
theorem run_conducted (o : Options) (id : SessionId) {p : Course} (hserver : p.now.server = none)
    (hsent : p.now.sent = []) :
    ∃ q session, Conducted q session ∧ session.phase ≠ .deactivated ∧
      (run (means k c) o id p).1 = ((means k c).activator.deactivate session ((means k c).shield q)).1 ∧
      (run (means k c) o id p).2.1 =
        ((means k c).activator.deactivate session ((means k c).shield q)).2 := by
  have hactivated := activate_activated k c hserver hsent id o.mode
  simp only [run]
  generalize (means k c).activator.activate id o.mode p = r at hactivated ⊢
  cases hactivated with
  -- No server was started: the session ends with the error of the preparation.
  | aborted server sent phase detached =>
      refine ⟨_, _, ?_, phase, rfl, rfl⟩
      dsimp only
      split <;> exact .aborted server sent detached
  | @attached q session failure sent holds phase server bridge =>
      refine ⟨_, session, ?_, phase, rfl, rfl⟩
      have hnothing : Account [] q.now.sent := sent ▸ account_nil
      cases failure with
      | some e =>
          dsimp only
          split <;> exact .served holds hnothing server
      | none =>
          obtain ⟨docs, ss, hadds, haccount⟩ := (ledger k c).serve_adds c.selector o q
          have hserved : (serve (means k c) o (Ledger.bridge c.selector Course.notify) q).1.now.sent = ss :=
            hadds.sent.trans (congrArg (· ++ ss) sent)
          rw [bridge]
          exact .served (hadds.holds holds) (hserved ▸ haccount) server

/-- **However a run goes, in the end its session is deactivated, and its server is stopped.** -/
theorem run_ends (o : Options) (id : SessionId) {p : Course} (hserver : p.now.server = none)
    (hsent : p.now.sent = []) (hl : (run (means k c) o id p).1.lost = false) :
    (run (means k c) o id p).2.1.phase = .deactivated ∧
      ((run (means k c) o id p).2.1.server = none ∧ (run (means k c) o id p).1.now.server = none ∧
          (run (means k c) o id p).1.now.sent = [] ∨
        (run (means k c) o id p).2.1.server = some () ∧ ∃ v₀ v docs,
          (run (means k c) o id p).1.now.server = some v ∧
          Account docs (run (means k c) o id p).1.now.sent ∧
          Tended (run (means k c) o id p).1.now.sent v₀ ∧ Ceased v₀ v) := by
  obtain ⟨q, session, hconducted, hphase, hcourse, hsession⟩ := run_conducted k c o id hserver hsent
  obtain ⟨hdeactivated, hkept, hstop⟩ := deactivate_eq k c hphase ((means k c).shield q)
  rw [hcourse] at hl
  rw [hcourse, hsession, hkept]
  refine ⟨hdeactivated, ?_⟩
  cases hconducted with
  | aborted server sent detached =>
      rw [if_pos detached] at hstop
      rw [hstop]
      exact Or.inl ⟨detached, server, sent⟩
  | @served docs holds account server =>
      rw [server, if_neg (by simp)] at hstop
      rw [hstop] at hl ⊢
      have hshield : Holds ((means k c).shield q) := ((ledger k c).shield_adds q).holds holds
      obtain ⟨v₀, v, htended, hv, hceased⟩ := stop_ceased hshield hl
      rw [(call_sent _ ((means k c).shield q)).1]
      exact Or.inr ⟨server, v₀, v, docs, hv, account, htended, hceased⟩

/-- **Every run that returns has cleaned up**, whatever files it was given, whatever came
of making a binary available and of starting the server, and whatever happened in what
order while it waited: its session is deactivated. If a supervisor was made for it, then
the server is stopped and the one process that was spawned, if any was, does not run. And
the documents that were opened were closed, unless closing one was refused. -/
theorem torn_down (o : Options) (id : SessionId) (files : FileSystem) (interrupted : Bool)
    (ahead : List Incident) {r : Course × Session Unit (Bridge Course) × Option Error}
    (h : run (means k c) o id { now := { files, interrupted }, ahead } = r)
    (hl : r.1.lost = false) :
    r.2.1.phase = .deactivated ∧ r.2.1.server.isSome = r.1.now.server.isSome ∧
      (∀ v, r.1.now.server = some v →
        v.system.state.lifecycle = .stopped ∧ spawns v.effects ≤ 1 ∧
          v.system.state.running? ≠ some true ∧ (accepted r.1.now.sent).Sublist (spoken v.lines)) ∧
      ∃ docs : List Document, told .opened r.1.now.sent = docs.map DocumentEvent.opened.params ∧
        (told .closed r.1.now.sent = docs.map DocumentEvent.closed.params ∨
          ∃ s ∈ r.1.now.sent, s.method = DocumentEvent.closed.method ∧ s.failure ≠ none) := by
  have hends := run_ends k c o id (p := { now := { files, interrupted }, ahead }) rfl rfl
  rw [h] at hends
  obtain ⟨hphase, ⟨hdetached, hserver, hsent⟩ | ⟨hattached, v₀, v, docs, hv, haccount, htended, hceased⟩⟩ :=
    hends hl
  -- Either no server was ever attached, or it has been stopped.
  · refine ⟨hphase, by rw [hdetached, hserver]; rfl, by simp [hserver], [], ?_⟩
    rw [hsent]
    exact account_nil.told
  · refine ⟨hphase, by rw [hattached, hv]; rfl, ?_, docs, haccount.told⟩
    intro v' hv'
    obtain rfl := Option.some.inj (hv.symm.trans hv')
    obtain ⟨path, hsteps⟩ := hceased.reached.steps
    obtain ⟨after, hspoken, -⟩ := hceased.unpassed
    refine ⟨hceased.stopped, hsteps.effectsFit.once, hceased.reaped, ?_⟩
    rw [hspoken]
    exact htended.delivered.trans (List.sublist_append_left _ _)

/-! ### A file that cannot be read

The server is started and told of one document. The next file cannot be read. -/

/-- A client whose server needs no downloading. -/
def localClient : Client where
  config := { installRoot := "" }
  configPath := ""
  platform := ⟨"linux", "x64"⟩

def localConditions : Conditions where
  session := ⟨⟨[]⟩⟩
  provision _ b _ fs := (fs, .ok { b with path := "/server" })

def localFiles : FileSystem where
  entries := [(["server"], .file [] 0o755), (["a.gbnf"], .file (utf8 "x") 0o644)]

def steps (thread count : Nat) : List Incident := List.replicate count (.event (.advance thread))

/-- The binary is there, and the server agrees on the protocol. -/
def startUp : List Incident :=
  [.proceed] ++ steps 0 5 ++ [.event (.deed (.send greetingFrame))] ++ steps 0 4 ++ [.proceed]

def passing (thread : Nat) : List Incident := steps thread 2 ++ [.proceed]

/-- The server agrees to shut down, and exits. -/
def windUp (thread : Nat) : List Incident :=
  steps thread 3 ++ [.event (.deed (.send shutdownFrame))] ++ steps thread 2 ++
    [.event (.deed (.exit 0))] ++ steps thread 5 ++ [.proceed]

def unreadRun : Course × Session Unit (Bridge Course) × Option Error :=
  run (means localConditions localClient) { files := ["/a.gbnf", "/b.gbnf"] } ⟨⟨[]⟩⟩
    { now := { files := localFiles }, ahead := startUp ++ passing 2 ++ passing 3 ++ windUp 4 }

theorem unreadRun_played :
    unreadRun.1.lost = false ∧ unreadRun.2.2.isSome = true ∧
      unreadRun.1.now.server.isSome = true ∧ (told .opened unreadRun.1.now.sent).length = 1 ∧
      unreadRun.1.now.sent.all (·.failure.isNone) = true := by decide +kernel

/-- The run fails, its session is deactivated, its server is stopped, and the document
that was opened is closed. -/
theorem unreadRun_torn_down :
    unreadRun.2.2.isSome = true ∧ unreadRun.2.1.phase = .deactivated ∧
      (∃ v, unreadRun.1.now.server = some v ∧ v.system.state.lifecycle = .stopped) ∧
      ∃ doc : Document, told .opened unreadRun.1.now.sent = [DocumentEvent.opened.params doc] ∧
        told .closed unreadRun.1.now.sent = [DocumentEvent.closed.params doc] := by
  obtain ⟨hl, hfailed, hserver, hone, hok⟩ := unreadRun_played
  obtain ⟨hphase, -, hstopped, docs, hopened, hclosed⟩ := torn_down localConditions localClient
    { files := ["/a.gbnf", "/b.gbnf"] } ⟨⟨[]⟩⟩ localFiles false
    (startUp ++ passing 2 ++ passing 3 ++ windUp 4) (rfl : _ = unreadRun) hl
  obtain ⟨v, hv⟩ := Option.isSome_iff_exists.mp hserver
  refine ⟨hfailed, hphase, ⟨v, hv, (hstopped v hv).1⟩, ?_⟩
  rw [hopened, List.length_map] at hone
  obtain ⟨doc, rfl⟩ := List.length_eq_one_iff.mp hone
  refine ⟨doc, hopened, hclosed.resolve_right ?_⟩
  rintro ⟨s, hs, -, hfail⟩
  exact hfail (Option.isNone_iff_eq_none.mp (List.all_eq_true.mp hok s hs))

end LanguageClient.Run
