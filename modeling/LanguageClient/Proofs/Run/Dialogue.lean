import LanguageClient.Proofs.Run.Teardown

/-! # What a run says to a server that stays up.

As long as its server is up, a run is heard: what it says about documents arrives as it
was sent. `dialogue_shape` says what that is, in every run that returns. First all
documents are opened, then there are edits of them, and then each one that was opened is
closed, before the server is asked to shut down. -/

namespace LanguageClient.Run

open Supervisor

def documentLine (event : DocumentEvent) (doc : Document) : Line :=
  passedLine event.method (event.params doc)

theorem Sent.Tells.line_eq {event : DocumentEvent} {doc : Document} {s : Sent} (h : s.Tells event doc) :
    s.line = documentLine event doc := by
  rw [Sent.line, h.1, h.2, documentLine]

/-! ### What is accepted -/

theorem accepted_cons (s : Sent) (sent : List Sent) :
    accepted (s :: sent) = (if s.failure.isNone then [s.line] else []) ++ accepted sent := by
  rw [← List.singleton_append, accepted_append, accepted_singleton]

/-- Opens that succeed are told to the server one by one, in order. -/
theorem Opens.accepted {docs : List Document} {ss : List Sent} (h : Opens docs ss) :
    accepted ss = docs.map (documentLine .opened) := by
  induction h with
  | nil => rfl
  | refused _ h => simp [accepted_singleton, h]
  | opened tells h _ ih => simp [accepted_cons, h, ih, tells.line_eq]

/-- So are closes. -/
theorem Closes.accepted {docs : List Document} {ss : List Sent} (h : Closes docs ss)
    (hok : ∀ s ∈ ss, s.failure = none) : accepted ss = docs.map (documentLine .closed) := by
  induction h with
  | nil => rfl
  | refused _ _ h => exact absurd (hok _ List.mem_cons_self) h
  | closed tells _ h _ ih =>
      simp [accepted_cons, h, ih fun s hs => hok s (List.mem_cons_of_mem _ hs), tells.line_eq]

theorem Closes.shielded {docs : List Document} {ss : List Sent} (h : Closes docs ss) :
    ∀ s ∈ ss, s.shielded = true := by
  induction h with
  | nil => simp
  | refused _ h => simpa using h
  | closed _ h _ _ ih => exact List.forall_mem_cons.mpr ⟨h, ih⟩

/-- A line that tells the server of an edit of one of the documents with some addresses. -/
def IsEdit (uris : List String) (l : Line) : Prop :=
  ∃ event d, (event = .changed ∨ event = .saved) ∧ d.uri ∈ uris ∧ l = documentLine event d

theorem isEdit_of_mem_accepted {uris : List String} {edits : List Sent}
    (h : ∀ s ∈ edits, Edits uris s) {l : Line} (hl : l ∈ accepted edits) : IsEdit uris l := by
  obtain ⟨s, hs, rfl⟩ := List.mem_map.mp hl
  obtain ⟨event, d, hevent, htells, hd⟩ := h s (List.mem_filter.mp hs).1
  exact ⟨event, d, hevent, hd, htells.line_eq⟩

/-- Once something was accepted, no call that nothing cuts short is refused. -/
theorem Faithful.accepted {before rest : List Sent} (h : Faithful (before ++ rest))
    (hbefore : accepted before ≠ []) (hrest : ∀ s ∈ rest, s.shielded = true) :
    ∀ s ∈ rest, s.failure = none := by
  intro s hs
  obtain ⟨front, back, rfl⟩ := List.append_of_mem hs
  refine h (before ++ front) s back (by simp) (hrest s hs) ?_
  simp [hbefore]

/-- **What a run has been heard saying of its documents**, if nothing was lost. -/
theorem Account.accepted {docs : List Document} {sent : List Sent} (h : Account docs sent)
    (hfaithful : Faithful sent) :
    ∃ edits, accepted sent =
        docs.map (documentLine .opened) ++ edits ++ docs.map (documentLine .closed) ∧
      ∀ l ∈ edits, IsEdit (docs.map (·.uri)) l := by
  obtain ⟨opens, edits, closes, rfl, hopens, hedits, hcloses⟩ := h
  refine ⟨Run.accepted edits, ?_, fun l => isEdit_of_mem_accepted hedits⟩
  rw [accepted_append, accepted_append, hopens.accepted]
  congr 1
  cases docs with
  | nil => cases hcloses; rfl
  | cons d ds =>
      refine hcloses.accepted (hfaithful.accepted ?_ hcloses.shielded)
      simp [hopens.accepted]

/-! ### Before the server is asked to shut down -/

/-- Nobody has asked a server to shut down that runs while nobody moves. -/
theorem Idle.shutdown_notMem {v : Supervision} (h : Idle v) (hready : v.system.state.isReady = true) :
    .shutdown ∉ purposes v.lines := by
  intro hm
  simp only [State.isReady, Bool.and_eq_true, decide_eq_true_eq] at hready
  obtain ⟨i, t, ht, hstopping⟩ := h.reached.conversing.asked hready.1.1 hm
  have haside := h.aside i t ht
  revert hstopping haside
  cases t.task <;> simp [Task.isStopping, Task.isAside]

/-- **The shape of the conversation about documents**, in every run that returns and
whose server was up all the time that it was ready. It does not matter whether the run
was interrupted, or whether some file could not be read or opened. -/
theorem dialogue_shape (k : Conditions) (c : Client) (o : Options) (id : SessionId)
    (files : FileSystem) (interrupted : Bool) (ahead : List Incident)
    {r : Course × Session Unit (Bridge Course) × Option Error} {v : Supervision}
    (h : run (means k c) o id { now := { files, interrupted }, ahead } = r)
    (hl : r.1.lost = false) (hv : r.1.now.server = some v) (hsteady : v.steady = true) :
    ∃ (docs : List Document) (before edits after : List Line),
      spoken v.lines = before ++ docs.map (documentLine .opened) ++ edits ++
        docs.map (documentLine .closed) ++ after ∧
      (∀ l ∈ before, isPassed l = false) ∧ .shutdown ∉ purposes before ∧
      (∀ l ∈ edits, IsEdit (docs.map (·.uri)) l) ∧ ∀ l ∈ after, isPassed l = false := by
  have hends := run_ends k c o id (p := { now := { files, interrupted }, ahead }) rfl rfl
  rw [h] at hends
  obtain ⟨-, ⟨-, hserver, -⟩ | ⟨-, v₀, v', docs, hv', haccount, htended, hceased⟩⟩ := hends hl
  · rw [hserver] at hv
    cases hv
  obtain rfl := Option.some.inj (hv.symm.trans hv')
  have hsteady₀ := hceased.steady hsteady
  obtain ⟨before, hbefore, hsaid⟩ := htended.said hsteady₀
  obtain ⟨after, hspoken, hafter⟩ := hceased.unpassed
  obtain ⟨edits, hheard, hedits⟩ := haccount.accepted (htended.faithful hsteady₀)
  rw [hsaid] at hspoken
  by_cases hnothing : accepted r.1.now.sent = []
  · -- nothing was said of documents: the server may have been stopped at any time
    rw [hnothing, List.append_nil] at hspoken
    refine ⟨[], [], [], spoken v.lines, by simp, by simp, by simp [purposes], by simp, ?_⟩
    rw [hspoken]
    exact fun l hl => (List.mem_append.mp hl).elim (hbefore l) (hafter l)
  · refine ⟨docs, before, edits, after, ?_, hbefore, ?_, hedits, hafter⟩
    · rw [hspoken, hheard]
      simp only [List.append_assoc]
    · intro hm
      apply htended.idle.shutdown_notMem (htended.ready hsteady₀ hnothing)
      rw [← purposes_spoken, hsaid, purposes_append]
      exact List.mem_append_left _ hm

/-! ### An edit, and an interruption -/

/-- A document is opened and edited, and then the run is interrupted. -/
def editedAhead : List Incident :=
  startUp ++ passing 2 ++
    [.save fun fs => fs.put ["a.gbnf"] (.file (utf8 "z") 0o644), .edited "/a.gbnf"] ++
    passing 3 ++ passing 4 ++ [.interrupt, .proceed, .proceed] ++ passing 5 ++ windUp 6

def editedRun : Course × Session Unit (Bridge Course) × Option Error :=
  run (means localConditions localClient) { files := ["/a.gbnf"] } ⟨⟨[]⟩⟩
    { now := { files := localFiles }, ahead := editedAhead }

theorem editedRun_played :
    ∃ v, editedRun.1.now.server = some v ∧
      (editedRun.1.lost, v.steady, (spoken v.lines).length) = (false, true, 8) :=
  Option.map_eq_some_iff.mp (by decide +kernel)

/-- The eight messages of such a run have the shape. -/
theorem editedRun_shape :
    ∃ (v : Supervision) (docs : List Document) (before edits after : List Line),
      editedRun.1.now.server = some v ∧ (spoken v.lines).length = 8 ∧
      spoken v.lines = before ++ docs.map (documentLine .opened) ++ edits ++
        docs.map (documentLine .closed) ++ after := by
  obtain ⟨v, hv, hplayed⟩ := editedRun_played
  simp only [Prod.mk.injEq] at hplayed
  obtain ⟨hl, hsteady, hlength⟩ := hplayed
  obtain ⟨docs, before, edits, after, hspoken, -⟩ := dialogue_shape localConditions localClient
    { files := ["/a.gbnf"] } ⟨⟨[]⟩⟩ localFiles false editedAhead
    (rfl : _ = editedRun) hl hv hsteady
  exact ⟨v, docs, before, edits, after, hv, hlength, hspoken⟩

end LanguageClient.Run
