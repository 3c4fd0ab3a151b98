import LanguageClient.Run

/-! # What a run sends.

A run sends nothing but notifications about documents. A `Ledger` is a record of
what was sent, with what came of it, for any sender and any surroundings of a
run that add nothing else to the record.

`serve_adds` says what a run adds once the server is running, for every list of
files and however waiting goes on: documents are opened up to the first one that is
refused, then edits of them are passed on, and then those that were opened are closed
up to the first one that is refused, by calls that no interruption cuts short. -/

namespace LanguageClient.Run

/-- A notification that was handed to a sender. -/
structure Sent where
  method : String
  params : Bytes
  /-- Whether no interruption could cut the call short. -/
  shielded : Bool
  failure : Option Error

def Sent.Tells (event : DocumentEvent) (doc : Document) (s : Sent) : Prop :=
  s.method = event.method ∧ s.params = event.params doc

/-! ### What is sent about documents -/

/-- Documents are opened one after the other, and the last attempt may be refused. -/
inductive Opens : List Document → List Sent → Prop where
  | nil : Opens [] []
  | refused {d : Document} {s : Sent} (tells : s.Tells .opened d) (h : s.failure ≠ none) : Opens [] [s]
  | opened {d : Document} {s : Sent} {ds : List Document} {ss : List Sent}
      (tells : s.Tells .opened d) (h : s.failure = none) (rest : Opens ds ss) : Opens (d :: ds) (s :: ss)

/-- An edit of one of the documents with some addresses. -/
def Edits (uris : List String) (s : Sent) : Prop :=
  ∃ event d, (event = .changed ∨ event = .saved) ∧ s.Tells event d ∧ d.uri ∈ uris

/-- Documents are closed one after the other, until one is refused. -/
inductive Closes : List Document → List Sent → Prop where
  | nil : Closes [] []
  | refused {d : Document} {s : Sent} {ds : List Document}
      (tells : s.Tells .closed d) (shielded : s.shielded = true) (h : s.failure ≠ none) :
      Closes (d :: ds) [s]
  | closed {d : Document} {s : Sent} {ds : List Document} {ss : List Sent}
      (tells : s.Tells .closed d) (shielded : s.shielded = true) (h : s.failure = none)
      (rest : Closes ds ss) : Closes (d :: ds) (s :: ss)

/-- The account of what a run sends about the documents it opens. -/
def Account (docs : List Document) (sent : List Sent) : Prop :=
  ∃ opens edits closes, sent = opens ++ edits ++ closes ∧ Opens docs opens ∧
    (∀ s ∈ edits, Edits (docs.map (·.uri)) s) ∧ Closes docs closes

theorem account_nil : Account [] [] := ⟨[], [], [], rfl, .nil, by simp, .nil⟩

theorem Opens.method {docs : List Document} {ss : List Sent} (h : Opens docs ss) :
    ∀ s ∈ ss, s.method = DocumentEvent.opened.method := by
  induction h with
  | nil => simp
  | refused tells => simpa using tells.1
  | opened tells _ _ ih => exact List.forall_mem_cons.mpr ⟨tells.1, ih⟩

theorem Edits.method {uris : List String} {s : Sent} (h : Edits uris s) :
    s.method = DocumentEvent.changed.method ∨ s.method = DocumentEvent.saved.method := by
  obtain ⟨event, d, rfl | rfl, tells, _⟩ := h
  · exact Or.inl tells.1
  · exact Or.inr tells.1

theorem Closes.method {docs : List Document} {ss : List Sent} (h : Closes docs ss) :
    ∀ s ∈ ss, s.method = DocumentEvent.closed.method := by
  induction h with
  | nil => simp
  | refused tells => simpa using tells.1
  | closed tells _ _ _ ih => exact List.forall_mem_cons.mpr ⟨tells.1, ih⟩

/-! ### What was told -/

/-- The parameters of what was told of an event without an error. -/
def told (event : DocumentEvent) (sent : List Sent) : List Bytes :=
  (sent.filter fun s => s.method = event.method ∧ s.failure.isNone).map (·.params)

theorem told_append (event : DocumentEvent) (sent more : List Sent) :
    told event (sent ++ more) = told event sent ++ told event more := by
  simp [told]

theorem told_eq_nil {event : DocumentEvent} {sent : List Sent}
    (h : ∀ s ∈ sent, s.method ≠ event.method) : told event sent = [] := by
  rw [told, List.map_eq_nil_iff, List.filter_eq_nil_iff]
  intro s hs
  simp [h s hs]

theorem Opens.told {docs : List Document} {ss : List Sent} (h : Opens docs ss) :
    told .opened ss = docs.map DocumentEvent.opened.params := by
  induction h with
  | nil => rfl
  | refused _ h =>
      rw [Run.told, List.filter_cons_of_neg (by simp [h])]
      rfl
  | opened tells h _ ih =>
      rw [Run.told, List.filter_cons_of_pos (by simp [h, tells.1]), List.map_cons, List.map_cons, tells.2]
      exact congrArg (_ :: ·) ih

theorem Closes.told {docs : List Document} {ss : List Sent} (h : Closes docs ss) :
    told .closed ss = docs.map DocumentEvent.closed.params ∨ ∃ s ∈ ss, s.failure ≠ none := by
  induction h with
  | nil => exact Or.inl rfl
  | refused _ _ h => exact Or.inr ⟨_, List.mem_cons_self, h⟩
  | closed tells _ h _ ih =>
      refine ih.imp ?_ fun ⟨s, hs, hfail⟩ => ⟨s, List.mem_cons_of_mem _ hs, hfail⟩
      intro ih
      rw [Run.told, List.filter_cons_of_pos (by simp [h, tells.1]), List.map_cons, List.map_cons, tells.2]
      exact congrArg (_ :: ·) ih

/-- **What was opened is closed**, unless closing was refused. -/
theorem Account.told {docs : List Document} {sent : List Sent} (h : Account docs sent) :
    told .opened sent = docs.map DocumentEvent.opened.params ∧
      (told .closed sent = docs.map DocumentEvent.closed.params ∨
        ∃ s ∈ sent, s.method = DocumentEvent.closed.method ∧ s.failure ≠ none) := by
  obtain ⟨opens, edits, closes, rfl, hopens, hedits, hcloses⟩ := h
  -- Edits and closes do not open, opens do not close.
  have hedited (event : DocumentEvent) (hc : DocumentEvent.changed.method ≠ event.method)
      (hs : DocumentEvent.saved.method ≠ event.method) : Run.told event edits = [] := by
    apply told_eq_nil
    intro s hm
    rcases (hedits s hm).method with h | h <;> rwa [h]
  have hclosed : Run.told .opened closes = [] := by
    apply told_eq_nil
    intro s hm
    rw [hcloses.method s hm]
    decide
  have hopened : Run.told .closed opens = [] := by
    apply told_eq_nil
    intro s hm
    rw [hopens.method s hm]
    decide
  simp only [told_append, hopens.told, hclosed, hopened, hedited .opened (by decide) (by decide),
    hedited .closed (by decide) (by decide), List.append_nil, List.nil_append, true_and]
  refine hcloses.told.imp_right fun ⟨s, hs, hfail⟩ => ?_
  exact ⟨s, List.mem_append_right _ hs, hcloses.method s hs, hfail⟩

/-! ### Records -/

/-- A record of what was sent, and what else holds all along. -/
structure Record (σ : Type) where
  sent : σ → List Sent
  shielded : σ → Bool
  holds : σ → Prop

/-- What is added to a record on the way from one state to another. -/
structure Record.Adds (r : Record σ) (ss : List Sent) (w w' : σ) : Prop where
  sent : r.sent w' = r.sent w ++ ss
  holds : r.holds w → r.holds w'

theorem Record.Adds.refl (r : Record σ) (w : σ) : r.Adds [] w w := ⟨by simp, id⟩

theorem Record.Adds.trans {r : Record σ} {ss ts : List Sent} {w₁ w₂ w₃ : σ} (h : r.Adds ss w₁ w₂)
    (h' : r.Adds ts w₂ w₃) : r.Adds (ss ++ ts) w₁ w₃ :=
  ⟨by rw [h'.sent, h.sent, List.append_assoc], fun hw => h'.holds (h.holds hw)⟩

def Record.AddsEdits (r : Record σ) (uris : List String) (w w' : σ) : Prop :=
  ∃ edits, r.Adds edits w w' ∧ ∀ s ∈ edits, Edits uris s

theorem Record.Adds.edits {r : Record σ} {w w' : σ} (h : r.Adds [] w w') (uris : List String) :
    r.AddsEdits uris w w' := ⟨[], h, by simp⟩

theorem Record.AddsEdits.trans {r : Record σ} {uris : List String} {w₁ w₂ w₃ : σ}
    (h : r.AddsEdits uris w₁ w₂) (h' : r.AddsEdits uris w₂ w₃) : r.AddsEdits uris w₁ w₃ := by
  obtain ⟨es, hadds, hes⟩ := h
  obtain ⟨es', hadds', hes'⟩ := h'
  refine ⟨es ++ es', hadds.trans hadds', ?_⟩
  intro s hs
  rcases List.mem_append.mp hs with hs | hs
  · exact hes s hs
  · exact hes' s hs

/-- A record to which the surroundings of a run add nothing but what is sent. -/
structure Ledger (m : Means σ η) (send : Sender σ) extends Record σ where
  send_adds : ∀ method params w,
    toRecord.Adds [⟨method, params, shielded w, (send method params w).2⟩] w (send method params w).1
  send_shielded : ∀ method params w, shielded (send method params w).1 = shielded w
  say_adds : ∀ report w, toRecord.Adds [] w (m.activator.say report w)
  debug_adds : ∀ text w, toRecord.Adds [] w (m.debug text w)
  next_adds : ∀ once w, toRecord.Adds [] w (m.next once w).1
  late_adds : ∀ w, toRecord.Adds [] w (m.late w).1
  shield_adds : ∀ w, toRecord.Adds [] w (m.shield w)
  shield_shielded : ∀ w, shielded (m.shield w) = true

namespace Ledger

def bridge (selector : Selector) (send : Sender σ) : Bridge σ := { selector, sender := some send }

variable {m : Means σ η} {send : Sender σ} (l : Ledger m send) (selector : Selector)

/-! ### Forwarding -/

/-- What is forwarded is sent once, and it is an error exactly if sending failed. -/
theorem forward_selected (event : DocumentEvent) {doc : Document}
    (h : selector.selects doc = true) (w : σ) :
    ∃ w' s, l.Adds [s] w w' ∧ l.shielded w' = l.shielded w ∧ s.Tells event doc ∧
      s.shielded = l.shielded w ∧
      ((bridge selector send).forward event doc w = (w', .ok true) ∧ s.failure = none ∨
        (∃ e, (bridge selector send).forward event doc w = (w', .error e)) ∧ s.failure ≠ none) := by
  refine ⟨(send event.method (event.params doc) w).1,
    ⟨event.method, event.params doc, l.shielded w, (send event.method (event.params doc) w).2⟩,
    l.send_adds .., l.send_shielded .., ⟨rfl, rfl⟩, rfl, ?_⟩
  simp only [Bridge.forward, bridge, h, if_true]
  cases hr : send event.method (event.params doc) w with
  | mk w' failure =>
      cases failure with
      | none => exact Or.inl ⟨rfl, rfl⟩
      | some e => exact Or.inr ⟨⟨_, rfl⟩, by simp⟩

/-- What is not selected is not sent. -/
theorem forward_unselected {event : DocumentEvent} {doc : Document}
    (h : selector.selects doc = false) (w : σ) :
    (bridge selector send).forward event doc w = (w, .ok false) := by
  simp only [Bridge.forward, bridge, h, Bool.false_eq_true, if_false]

/-- Whether or not a document is selected, what is sent tells of it. -/
theorem forward_adds (event : DocumentEvent) (doc : Document) (w : σ) :
    ∃ ss, l.Adds ss w ((bridge selector send).forward event doc w).1 ∧ ∀ s ∈ ss, s.Tells event doc := by
  cases h : selector.selects doc with
  | false =>
      rw [forward_unselected selector h]
      exact ⟨[], .refl _ w, by simp⟩
  | true =>
      obtain ⟨w', s, hs, -, ht, -, ⟨hr, -⟩ | ⟨⟨e, hr⟩, -⟩⟩ := l.forward_selected selector event h w
      all_goals
        rw [hr]
        exact ⟨[s], hs, by simpa using ht⟩

/-! ### Opening and closing -/

/-- **Opening files** adds one attempt for each document, up to the first that fails. -/
theorem openDocuments_adds (paths : List String) (w : σ) :
    ∃ opens, l.Adds opens w (openDocuments m (bridge selector send) paths w).1 ∧
      Opens ((openDocuments m (bridge selector send) paths w).2.1.map (·.document)) opens ∧
      ∀ o ∈ (openDocuments m (bridge selector send) paths w).2.1, selector.selects o.document = true := by
  -- One path after the other; a failure ends the loop.
  induction paths generalizing w with
  | nil => exact ⟨[], .refl _ w, .nil, by simp [openDocuments]⟩
  | cons path paths ih =>
      cases hread : readDocument m (m.files w) path with
      | error e =>
          simp only [openDocuments, hread]
          exact ⟨[], .refl _ w, .nil, by simp⟩
      | ok document =>
          cases hsel : selector.selects document with
          | false =>
              -- The selector leaves this document out, and the loop goes on.
              simp only [openDocuments, hread, forward_unselected selector hsel]
              obtain ⟨opens, hopens, h⟩ := ih (m.activator.say (.line (skippedLine m path)) w)
              exact ⟨opens, (l.say_adds _ w).trans hopens, h⟩
          | true =>
              obtain ⟨w', s, hs, -, ht, -, ⟨hr, hnone⟩ | ⟨⟨e, hr⟩, hsome⟩⟩ :=
                l.forward_selected selector .opened hsel w
              · simp only [openDocuments, hread, hr]
                obtain ⟨opens, hopens, hrest, hsels⟩ := ih (m.debug ("Opened " ++ document.uri) w')
                exact ⟨s :: opens, hs.trans ((l.debug_adds _ w').trans hopens), .opened ht hnone hrest,
                  List.forall_mem_cons.mpr ⟨hsel, hsels⟩⟩
              · simp only [openDocuments, hread, hr]
                exact ⟨[s], hs, .refused ht hsome, by simp⟩

/-- **Closing documents** adds one attempt for each, up to the first that fails. -/
theorem closeDocuments_adds (opened : List Opened)
    (hsel : ∀ o ∈ opened, selector.selects o.document = true) (w : σ) (hw : l.shielded w = true) :
    ∃ closes, l.Adds closes w (closeDocuments (bridge selector send) opened w) ∧
      Closes (opened.map (·.document)) closes := by
  induction opened generalizing w with
  | nil => exact ⟨[], .refl _ w, .nil⟩
  | cons o os ih =>
      obtain ⟨hsel, hrest⟩ := List.forall_mem_cons.mp hsel
      obtain ⟨w', s, hs, hkept, ht, hshielded, ⟨hr, hnone⟩ | ⟨⟨e, hr⟩, hsome⟩⟩ :=
        l.forward_selected selector .closed hsel w
      · simp only [closeDocuments, hr]
        obtain ⟨closes, hcloses, h⟩ := ih hrest w' (hkept.trans hw)
        exact ⟨s :: closes, hs.trans hcloses, .closed ht (hshielded.trans hw) hnone h⟩
      · simp only [closeDocuments, hr]
        exact ⟨[s], hs, .refused ht (hshielded.trans hw) hsome⟩

/-! ### Edits -/

/-- All documents of a watcher have one of these addresses. -/
def Follows (uris : List String) (watcher : Watcher) : Prop :=
  ∀ p ∈ watcher.documents, p.2.uri ∈ uris

theorem Follows.put {uris : List String} {watcher : Watcher} (h : Follows uris watcher) {path : String}
    {doc : Document} (hd : doc.uri ∈ uris) : Follows uris (watcher.put path doc) :=
  List.forall_mem_cons.mpr ⟨hd, fun p hp => h p (List.mem_filter.mp hp).1⟩

/-- An edited document keeps its address. -/
theorem Follows.edited {uris : List String} {watcher : Watcher} (h : Follows uris watcher)
    {fs : FileSystem} {path : String} {doc : Document} (he : watcher.edited? fs path = some doc) :
    doc.uri ∈ uris := by
  unfold Watcher.edited? at he
  split at he
  · next old text hold _ =>
      split at he <;> cases he
      have hmem : (path, old) ∈ watcher.documents := by
        obtain ⟨l₁, l₂, hl, -⟩ := List.lookup_eq_some_iff.mp hold
        rw [hl]
        exact List.mem_append_right l₁ List.mem_cons_self
      exact h _ hmem
  · cases he

/-- The watcher of opened documents follows no others. -/
theorem follows_watcherFor (fs : FileSystem) (opened : List Opened) :
    Follows (opened.map (·.document.uri)) (watcherFor fs opened) := by
  have hfold (os : List Opened) (watcher : Watcher) {uris : List String} (h : Follows uris watcher)
      (hos : ∀ o ∈ os, o.document.uri ∈ uris) :
      Follows uris (os.foldl (fun watcher o => watcher.track fs o.path o.document) watcher) := by
    induction os generalizing watcher with
    | nil => exact h
    | cons o os ih =>
        obtain ⟨ho, hos⟩ := List.forall_mem_cons.mp hos
        exact ih (watcher.track fs o.path o.document) (h.put ho) hos
  apply hfold opened {} (by simp [Follows])
  intro o ho
  exact List.mem_map_of_mem ho

theorem sayAll_adds (reports : List Report) (w : σ) : l.Adds [] w (m.activator.sayAll reports w) := by
  induction reports generalizing w with
  | nil => exact .refl _ w
  | cons r rs ih => exact (l.say_adds r w).trans (ih _)

/-- The server is told of an edit by a change and a save. -/
theorem tell_adds {uris : List String} {doc : Document} (hd : doc.uri ∈ uris) (w : σ) :
    l.AddsEdits uris w (Watcher.tell (bridge selector send) doc w).1 := by
  have hedits (event : DocumentEvent) (he : event = .changed ∨ event = .saved) (w : σ) :
      l.AddsEdits uris w ((bridge selector send).forward event doc w).1 := by
    obtain ⟨ss, hadds, ht⟩ := l.forward_adds selector event doc w
    exact ⟨ss, hadds, fun s hs => ⟨event, doc, he, ht s hs, hd⟩⟩
  have hchange := hedits .changed (Or.inl rfl) w
  have hsave := hedits .saved (Or.inr rfl) ((bridge selector send).forward .changed doc w).1
  simp only [Watcher.tell]
  split
  · next hr =>
      rw [hr] at hchange
      exact hchange
  · next hr =>
      rw [hr] at hchange hsave
      have hboth := hchange.trans hsave
      split <;> next hr' =>
        rw [hr'] at hboth
        exact hboth

/-- Taking note of a file that was written sends nothing but edits of its document. -/
theorem heed_adds {uris : List String} {watcher : Watcher} (h : Follows uris watcher)
    (watched : List String) (path : String) (w : σ) :
    Follows uris (heed m (bridge selector send) watched watcher path w).1 ∧
      l.AddsEdits uris w (heed m (bridge selector send) watched watcher path w).2 := by
  have hsay (reports : List Report) (w : σ) : l.AddsEdits uris w (m.activator.sayAll reports w) :=
    (l.sayAll_adds reports w).edits uris
  simp only [heed, Watcher.notice]
  split
  · simp only [Watcher.reload]
    split
    · exact ⟨h, hsay _ w⟩
    · next doc he =>
        have hd := h.edited he
        exact ⟨h.put hd, (l.tell_adds selector hd w).trans (hsay _ _)⟩
  · exact ⟨h, hsay _ w⟩

/-- **Waiting** sends nothing but edits. -/
theorem attend_adds (once : Bool) (watched : List String) {uris : List String}
    (patience : Nat) {watcher : Watcher} (h : Follows uris watcher) (w : σ) :
    Follows uris (attend m once (bridge selector send) watched patience watcher w).1 ∧
      l.AddsEdits uris w (attend m once (bridge selector send) watched patience watcher w).2.1 := by
  induction patience generalizing watcher w with
  | zero => exact ⟨h, (Record.Adds.refl _ w).edits uris⟩
  | succ patience ih =>
      have hnext := l.next_adds once w
      simp only [attend]
      cases hr : m.next once w with
      | mk w' happening =>
          rw [hr] at hnext
          cases happening with
          | edited path =>
              obtain ⟨hfollows, hheeds⟩ := l.heed_adds selector h watched path w'
              obtain ⟨hfollows, hrest⟩ := ih hfollows _
              exact ⟨hfollows, (hnext.edits uris).trans (hheeds.trans hrest)⟩
          | interrupted => exact ⟨h, (hnext.trans (l.say_adds _ w')).edits uris⟩
          | settled => exact ⟨h, hnext.edits uris⟩
          | failed e => exact ⟨h, hnext.edits uris⟩

/-- Edits that are seen late are still nothing but edits. -/
theorem dismiss_adds (watched : List String) {uris : List String} (patience : Nat)
    {watcher : Watcher} (h : Follows uris watcher) (w : σ) :
    l.AddsEdits uris w (dismiss m (bridge selector send) watched patience watcher w) := by
  induction patience generalizing watcher w with
  | zero => exact (Record.Adds.refl _ w).edits uris
  | succ patience ih =>
      have hlate := l.late_adds w
      simp only [dismiss]
      cases hr : m.late w with
      | mk w' path =>
          rw [hr] at hlate
          cases path with
          | none => exact hlate.edits uris
          | some path =>
              obtain ⟨hfollows, hheeds⟩ := l.heed_adds selector h watched path w'
              exact (hlate.edits uris).trans (hheeds.trans (ih hfollows _))

theorem idle_adds (once : Bool) {uris : List String} {watcher : Watcher}
    (h : Follows uris watcher) (w : σ) :
    l.AddsEdits uris w (idle m once (bridge selector send) watcher w).1 :=
  (l.attend_adds selector once [] m.patience h w).2

theorem follow_adds (once : Bool) {uris : List String} {watcher : Watcher}
    (h : Follows uris watcher) (w : σ) :
    l.AddsEdits uris w (follow m once (bridge selector send) watcher w).1 := by
  obtain ⟨hfollows, hattends⟩ := l.attend_adds selector once watcher.directories m.patience h w
  exact hattends.trans (l.dismiss_adds selector watcher.directories m.patience hfollows _)

/-- **Waiting for the end of a run** sends nothing but edits of what was opened. -/
theorem wait_adds (o : Options) (opened : List Opened) (w : σ) :
    l.AddsEdits (opened.map (·.document.uri)) w (wait m o (bridge selector send) opened w).1 := by
  have hfollows := follows_watcherFor (m.files w) opened
  simp only [wait]
  split
  · exact l.idle_adds selector o.once hfollows w
  · split
    · exact l.follow_adds selector o.once hfollows w
    · exact ((l.say_adds _ w).edits _).trans (l.idle_adds selector o.once hfollows _)

/-- **What a run sends while the server runs**: it opens documents, passes on edits of
those that were opened, and closes them. -/
theorem serve_adds (o : Options) (w : σ) :
    ∃ docs sent, l.Adds sent w (serve m o (bridge selector send) w).1 ∧ Account docs sent := by
  obtain ⟨opens, hopens, hdocs, hsel⟩ := l.openDocuments_adds selector o.files w
  simp only [serve]
  cases hr : openDocuments m (bridge selector send) o.files w with
  | mk w₁ r =>
      obtain ⟨opened, failure⟩ := r
      rw [hr] at hopens hdocs hsel
      -- The closes come last in every case, and are shielded.
      have hclose (w₂ : σ) := l.closeDocuments_adds selector opened hsel (m.shield w₂) (l.shield_shielded w₂)
      cases failure with
      | some e =>
          obtain ⟨closes, hcloses, hc⟩ := hclose w₁
          refine ⟨_, opens ++ [] ++ closes, ?_, opens, [], closes, rfl, hdocs, by simp, hc⟩
          rw [List.append_nil]
          exact hopens.trans ((l.shield_adds w₁).trans hcloses)
      | none =>
          obtain ⟨edits, hedits, he⟩ := l.wait_adds selector o opened w₁
          obtain ⟨closes, hcloses, hc⟩ := hclose (wait m o (bridge selector send) opened w₁).1
          refine ⟨_, opens ++ edits ++ closes, ?_, opens, edits, closes, rfl, hdocs, ?_, hc⟩
          · exact (hopens.trans hedits).trans ((l.shield_adds _).trans hcloses)
          · rw [List.map_map]
            exact he

end Ledger

end LanguageClient.Run
