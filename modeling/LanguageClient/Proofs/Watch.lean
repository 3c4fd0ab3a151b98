import Mathlib.Data.List.Chain
import LanguageClient.Watch

/-! # What a server is told of edits on disk.

A `Vigil` is a watcher at work: files change in any way, and now and then it is
reported, truly or not, that some file was written or made. `edits_converge` says what
the server is told meanwhile, through any sender:

* the messages are those of the edits, a change and a save for each, in their order;
* the edits of one file are versions of its document, each one the next, counted with
  64 bits, and each with another text than the one before;
* after a report about a file that can be read, the last text is the content of the file.

A server is told characters and not octets. So a text with a stray octet may be sent as
the text it replaces, and behind the largest version comes the smallest
(`edits_diverge`). -/

namespace LanguageClient.Watcher

/-! ### Messages -/

/-- What was handed to a sender, and what came of it. -/
structure Message where
  method : String
  params : Bytes
  failure : Option Error

/-- The message of an event, which was sent unless there is a failure. -/
def Message.of (event : DocumentEvent) (doc : Document) (failure : Option Error := none) : Message :=
  ⟨event.method, event.params doc, failure⟩

/-- A record of what was handed to a sender. -/
structure Journal (send : Sender σ) where
  sent : σ → List Message
  send_sent : ∀ method params s,
    sent (send method params s).1 = sent s ++ [⟨method, params, (send method params s).2⟩]

/-- A sender that does nothing but remember. -/
def remember : Sender (List Message) := fun method params s => (s ++ [⟨method, params, none⟩], none)

def remember.journal : Journal remember := ⟨id, fun _ _ _ => rfl⟩

/-! ### Vigils -/

structure Edit where
  path : String
  document : Document

def Edit.messages (e : Edit) : List Message :=
  [.of .changed e.document, .of .saved e.document]

/-- What happens while a watcher is at work. -/
inductive Incident where
  /-- Files are written, removed, or made again. -/
  | save (place : FileSystem → FileSystem)
  /-- It is reported that a file was written or made. -/
  | event (path : String)

/-- A watcher at work, with the edits it has seen. -/
structure Vigil (σ : Type) where
  files : FileSystem
  watcher : Watcher
  server : σ
  edits : List Edit := []

/-- The edit that is seen when a file is reported. -/
def Vigil.edit? (path : String) (v : Vigil σ) : Option Edit :=
  (v.watcher.edited? v.files (Path.clean path)).map (Edit.mk (Path.clean path))

/-- Something happens to a watcher that watches some directories. -/
def Vigil.undergo (watched : List String) (bridge : Bridge σ) (v : Vigil σ) : Incident → Vigil σ
  | .save place => { v with files := place v.files }
  | .event path =>
    let (watcher, server, _) := v.watcher.notice watched bridge v.files path v.server
    { v with watcher, server, edits := v.edits ++ (v.edit? path).toList }

/-- A watcher goes to work, and watches the directories of its files from then on. -/
def watch (bridge : Bridge σ) (w : Watcher) (fs : FileSystem) (s : σ) (incidents : List Incident) :
    Vigil σ :=
  incidents.foldl (Vigil.undergo w.directories bridge) { files := fs, watcher := w, server := s }

def editsOf (path : String) (edits : List Edit) : List Document :=
  (edits.filter (·.path = path)).map (·.document)

theorem watch_concat (bridge : Bridge σ) (w : Watcher) (fs : FileSystem) (s : σ)
    (incidents : List Incident) (i : Incident) :
    watch bridge w fs s (incidents ++ [i]) =
      (watch bridge w fs s incidents).undergo w.directories bridge i := by
  simp [watch]

/-! ### Documents of a watcher -/

variable {w : Watcher} {fs : FileSystem} {path : String} {doc : Document}

/-- A document that was put is found under its path, and the others as before. -/
theorem get?_put (w : Watcher) (path : String) (doc : Document) (other : String) :
    (w.put path doc).get? other = if other = path then some doc else w.get? other := by
  have hfilter (l : List (String × Document)) (h : other ≠ path) :
      (l.filter (·.1 != path)).lookup other = l.lookup other := by
    induction l with
    | nil => rfl
    | cons x l ih =>
        obtain ⟨p, d⟩ := x
        by_cases hp : p = path
        · have hother : (other == p) = false := by simpa [hp] using h
          simp [List.lookup_cons, ih, hp, hp ▸ hother]
        · simp [List.lookup_cons, ih, hp]
  by_cases h : other = path
  · simp [get?, put, h]
  · have hother : (other == path) = false := by simpa using h
    simp [get?, put, List.lookup_cons, h, hother, hfilter _ h]

/-- What edits a document. -/
theorem edited?_eq_some {d : Document} (h : w.edited? fs path = some d) :
    ∃ old text, w.get? path = some old ∧ fs.content path = .ok text ∧ text ≠ old.text ∧
      d = { old with version := (old.version + 1).bmod (Nat.pow 2 64), text } := by
  unfold edited? at h
  split at h
  · next old text hold htext =>
      split at h <;> cases h
      next hne => exact ⟨old, text, hold, htext, hne, rfl⟩
  · cases h

/-- A file whose document is not edited has the text of its document, if it can be read. -/
theorem text_of_edited?_eq_none (h : w.edited? fs path = none) {text : Bytes}
    (hdoc : w.get? path = some doc) (hread : fs.content path = .ok text) : doc.text = text := by
  simp only [edited?, hdoc, hread] at h
  split at h
  · next he => exact he.symm
  · cases h

theorem dir_mem_directories (h : w.get? path = some doc) : Path.dir path ∈ w.directories := by
  obtain ⟨l₁, l₂, hl, -⟩ := List.lookup_eq_some_iff.mp h
  rw [directories, List.mem_eraseDups, hl]
  simp

/-- A report is heeded if its file has a document; for any other it makes no difference. -/
theorem notice_eq_reload {watched : List String}
    (h : ∀ path doc, w.get? path = some doc → Path.dir path ∈ watched) (bridge : Bridge σ)
    (path : String) (s : σ) :
    w.notice watched bridge fs path s = w.reload bridge fs (Path.clean path) s := by
  simp only [notice]
  split
  · rfl
  · next hdir =>
      have hnone : w.edited? fs (Path.clean path) = none := by
        rw [Option.eq_none_iff_forall_ne_some]
        intro d hd
        obtain ⟨old, -, hold, -⟩ := edited?_eq_some hd
        exact hdir (List.contains_iff_mem.mpr (h _ old hold))
      rw [reload, hnone]

/-! ### What is sent -/

section Sending

variable {send : Sender σ} (j : Journal send) (selector : Selector)

def bridgeTo (selector : Selector) (send : Sender σ) : Bridge σ := { selector, sender := some send }

/-- What is forwarded was handed to the sender, and it is an error exactly if that failed. -/
theorem forward_sent (event : DocumentEvent) (h : selector.selects doc = true) (s : σ) :
    ∃ s' failure, j.sent s' = j.sent s ++ [.of event doc failure] ∧
      ((bridgeTo selector send).forward event doc s = (s', .ok true) ∧ failure = none ∨
        (∃ e, (bridgeTo selector send).forward event doc s = (s', .error e)) ∧ failure ≠ none) := by
  refine ⟨_, _, j.send_sent event.method (event.params doc) s, ?_⟩
  simp only [Bridge.forward, bridgeTo, h, if_true]
  cases hr : send event.method (event.params doc) s with
  | mk s' failure =>
      cases failure with
      | none => exact Or.inl ⟨rfl, rfl⟩
      | some e => exact Or.inr ⟨⟨_, rfl⟩, by simp⟩

/-- What is handed to the sender for an edit. -/
inductive Tells (selector : Selector) (e : Edit) : List Message → Prop where
  /-- Nothing is forwarded of a document that is not selected. -/
  | passed (h : selector.selects e.document = false) : Tells selector e []
  /-- Without the change there is no save. -/
  | refused (h : selector.selects e.document = true) (error : Error) :
      Tells selector e [.of .changed e.document (some error)]
  | changed (h : selector.selects e.document = true) (failure : Option Error) :
      Tells selector e [.of .changed e.document, .of .saved e.document failure]

/-- The server is told of an edit once. -/
theorem tell_tells (path : String) (doc : Document) (s : σ) :
    ∃ new, j.sent (tell (bridgeTo selector send) doc s).1 = j.sent s ++ new ∧
      Tells selector ⟨path, doc⟩ new := by
  cases h : selector.selects doc with
  | false =>
      refine ⟨[], ?_, .passed h⟩
      simp [tell, Bridge.forward, bridgeTo, h]
  | true =>
      obtain ⟨s₁, f₁, hs₁, ⟨hr₁, rfl⟩ | ⟨⟨e, hr₁⟩, hf₁⟩⟩ := forward_sent j selector .changed h s
      · obtain ⟨s₂, f₂, hs₂, ⟨hr₂, rfl⟩ | ⟨⟨e, hr₂⟩, hf₂⟩⟩ := forward_sent j selector .saved h s₁
        · refine ⟨_, ?_, .changed h none⟩
          simp only [tell, hr₁, hr₂, hs₂, hs₁, List.append_assoc]
          rfl
        · refine ⟨_, ?_, .changed h f₂⟩
          simp only [tell, hr₁, hr₂, hs₂, hs₁, List.append_assoc]
          rfl
      · obtain ⟨error, rfl⟩ := Option.ne_none_iff_exists'.mp hf₁
        refine ⟨_, ?_, .refused h error⟩
        simp only [tell, hr₁, hs₁]

/-- Unless sending fails, an edit of a selected document is told by its messages. -/
theorem Tells.messages_eq {selector : Selector} {e : Edit} {new : List Message} (h : Tells selector e new)
    (hselected : selector.selects e.document = true) (hok : ∀ m ∈ new, m.failure = none) :
    new = e.messages := by
  cases h with
  | passed hnot =>
      rw [hselected] at hnot
      cases hnot
  | refused _ error =>
      have hfailure : some error = none := hok _ List.mem_cons_self
      cases hfailure
  | changed _ failure =>
      obtain rfl : failure = none := hok (.of .saved e.document failure) (by simp)
      rfl

end Sending

/-! ### One file after the other -/

/-- A document is followed by its next version, which has another text. -/
structure Precedes (d d' : Document) : Prop where
  uri : d'.uri = d.uri
  languageId : d'.languageId = d.languageId
  version : d'.version = (d.version + 1).bmod (Nat.pow 2 64)
  text : d'.text ≠ d.text

/-- An edit makes the next version of the document, with the text that the file has now. -/
theorem precedes_of_edited? {d : Document} (h : w.edited? fs path = some d) :
    ∃ old, w.get? path = some old ∧ Precedes old d ∧ fs.content path = .ok d.text := by
  obtain ⟨old, text, hold, htext, hne, rfl⟩ := edited?_eq_some h
  exact ⟨old, hold, ⟨rfl, rfl, rfl, hne⟩, htext⟩

/-- The edits of one file, if there is one more edit. -/
theorem editsOf_concat (path : String) (edits : List Edit) (e : Edit) :
    editsOf path (edits ++ [e]) =
      if e.path = path then editsOf path edits ++ [e.document] else editsOf path edits := by
  by_cases h : e.path = path <;> simp [editsOf, h]

/-- What holds of a vigil of a watcher `w`. The last edit of a file is its document. -/
structure Keeps (w : Watcher) (v : Vigil σ) : Prop where
  untracked : ∀ path, w.get? path = none → editsOf path v.edits = [] ∧ v.watcher.get? path = none
  tracked : ∀ path doc, w.get? path = some doc →
    (doc :: editsOf path v.edits).IsChain Precedes ∧
      v.watcher.get? path = (doc :: editsOf path v.edits).getLast?

namespace Keeps

variable {v v' : Vigil σ}

/-- A file of the vigil is one of the watcher it began with. -/
theorem isSome (h : Keeps w v) (hdoc : v.watcher.get? path = some doc) :
    ∃ first, w.get? path = some first := by
  cases hw : w.get? path with
  | some first => exact ⟨first, rfl⟩
  | none =>
      rw [(h.untracked path hw).2] at hdoc
      cases hdoc

/-- **One more edit.** -/
theorem edit (h : Keeps w v) {d : Document} (hd : v.watcher.edited? v.files path = some d)
    (hw : v'.watcher = v.watcher.put path d) (he : v'.edits = v.edits ++ [⟨path, d⟩]) :
    Keeps w v' := by
  obtain ⟨old, hold, hprecedes, -⟩ := precedes_of_edited? hd
  obtain ⟨first, hfirst⟩ := h.isSome hold
  refine ⟨?_, ?_⟩
  · intro other hother
    have hne : ¬ path = other := by
      rintro rfl
      rw [hfirst] at hother
      cases hother
    rw [he, editsOf_concat, if_neg hne, hw, get?_put, if_neg (Ne.symm hne)]
    exact h.untracked other hother
  · intro other doc hdoc
    rw [he, editsOf_concat, hw, get?_put]
    obtain ⟨hchain, hlast⟩ := h.tracked other doc hdoc
    by_cases hother : path = other
    · subst hother
      rw [if_pos rfl, if_pos rfl, ← List.cons_append, List.getLast?_concat]
      refine ⟨hchain.append (by simp) ?_, rfl⟩
      -- the edit follows the document that the watcher has
      intro x hx y hy
      rw [← hlast, hold] at hx
      cases hx
      cases hy
      exact hprecedes
    · rw [if_neg hother, if_neg (Ne.symm hother)]
      exact ⟨hchain, hlast⟩

theorem directories (h : Keeps w v) (hdoc : v.watcher.get? path = some doc) :
    Path.dir path ∈ w.directories := by
  obtain ⟨first, hfirst⟩ := h.isSome hdoc
  exact dir_mem_directories hfirst

/-- A report leads to an edit of its file or to nothing. -/
theorem undergo_event (h : Keeps w v) (bridge : Bridge σ) (path : String) :
    v.undergo w.directories bridge (.event path) =
      match v.watcher.edited? v.files (Path.clean path) with
      | none => v
      | some d => { v with
          watcher := v.watcher.put (Path.clean path) d
          server := (tell bridge d v.server).1
          edits := v.edits ++ [⟨Path.clean path, d⟩] } := by
  have hwatched : ∀ path doc, v.watcher.get? path = some doc → Path.dir path ∈ w.directories :=
    fun _ _ => h.directories
  simp only [Vigil.undergo, notice_eq_reload hwatched, Vigil.edit?, reload]
  cases v.watcher.edited? v.files (Path.clean path) with
  | none => simp only [Option.map_none, Option.toList_none, List.append_nil]
  | some d => rfl

/-- After a report, the document of a file that can be read has the text of the file. -/
theorem text_of_event (h : Keeps w v) (bridge : Bridge σ)
    (hdoc : w.get? (Path.clean path) = some doc) {text : Bytes}
    (hread : v.files.content (Path.clean path) = .ok text) :
    ((v.undergo w.directories bridge (.event path)).watcher.get? (Path.clean path)).map (·.text) =
      some text := by
  rw [h.undergo_event]
  cases hd : v.watcher.edited? v.files (Path.clean path) with
  | some d =>
      obtain ⟨-, -, -, htext⟩ := precedes_of_edited? hd
      simp only [get?_put, if_true, Option.map_some]
      rw [hread] at htext
      cases htext
      rfl
  | none =>
      have hlast := (h.tracked _ doc hdoc).2
      rw [List.getLast?_eq_some_getLast (List.cons_ne_nil _ _)] at hlast
      simp only [hlast, Option.map_some]
      rw [text_of_edited?_eq_none hd hlast hread]

theorem begins (w : Watcher) (fs : FileSystem) (s : σ) :
    Keeps w { files := fs, watcher := w, server := s } :=
  ⟨fun _ h => ⟨rfl, h⟩, fun path doc h => ⟨by simp [editsOf], by simpa [editsOf] using h⟩⟩

/-- Every edit is one of a file that the vigil began with. -/
theorem exists_first (h : Keeps w v) {e : Edit} (he : e ∈ v.edits) :
    ∃ first, w.get? e.path = some first ∧ e.document ∈ editsOf e.path v.edits := by
  have hmem : e.document ∈ editsOf e.path v.edits := by
    simp only [editsOf, List.mem_map, List.mem_filter, decide_eq_true_eq]
    exact ⟨e, ⟨he, rfl⟩, rfl⟩
  cases hfirst : w.get? e.path with
  | some first => exact ⟨first, rfl, hmem⟩
  | none =>
      rw [(h.untracked e.path hfirst).1] at hmem
      cases hmem

end Keeps

/-! ### The whole vigil -/

section Vigil

variable {send : Sender σ} (j : Journal send) {selector : Selector}

/-- An edit, and what was handed to the sender for it. -/
structure Telling where
  edit : Edit
  messages : List Message

/-- What holds of a vigil, and of what was sent since it began with `s`: each edit was told
once, one after the other. -/
structure Told (w : Watcher) (selector : Selector) (s : σ) (v : Vigil σ) : Prop where
  keeps : Keeps w v
  told : ∃ told : List Telling, told.map (·.edit) = v.edits ∧
    j.sent v.server = j.sent s ++ told.flatMap (·.messages) ∧
    ∀ t ∈ told, Tells selector t.edit t.messages

/-- What the server was told keeps step with the edits that were seen, whatever happens next. -/
theorem Told.undergo {s : σ} {v : Vigil σ} (h : Told j w selector s v) (i : Incident) :
    Told j w selector s (v.undergo w.directories (bridgeTo selector send) i) := by
  cases i with
  | save place => exact ⟨⟨h.keeps.untracked, h.keeps.tracked⟩, h.told⟩
  | event path =>
      rw [h.keeps.undergo_event]
      cases hd : v.watcher.edited? v.files (Path.clean path) with
      | none => exact h
      | some d =>
          obtain ⟨told, hedits, hsent, hall⟩ := h.told
          obtain ⟨new, hnew, htells⟩ := tell_tells j selector (Path.clean path) d v.server
          refine ⟨h.keeps.edit hd rfl rfl, told ++ [⟨⟨Path.clean path, d⟩, new⟩], ?_, ?_, ?_⟩
          · simp [hedits]
          · simp [hnew, hsent]
          · exact List.forall_mem_append.mpr ⟨hall, List.forall_mem_singleton.mpr htells⟩

/-- After any incidents the server was told of the edits that were seen, and of nothing else. -/
theorem told_watch (w : Watcher) (selector : Selector) (fs : FileSystem) (s : σ) (incidents : List Incident) :
    Told j w selector s (watch (bridgeTo selector send) w fs s incidents) := by
  -- over the incidents so far
  induction incidents using List.reverseRecOn with
  | nil => exact ⟨.begins w fs s, [], rfl, by simp [watch], by simp⟩
  | append_singleton incidents i ih =>
      rw [watch_concat]
      exact ih.undergo j i

end Vigil

/-! ### Versions -/

/-- Versions that follow one another are counted with 64 bits. -/
theorem versions_of_isChain {docs : List Document} (h : (doc :: docs).IsChain Precedes) :
    docs.map (·.version) =
      (List.range docs.length).map fun k : Nat => (doc.version + (k + 1)).bmod (Nat.pow 2 64) := by
  induction docs generalizing doc with
  | nil => rfl
  | cons d docs ih =>
      obtain ⟨hd, hrest⟩ := List.isChain_cons_cons.mp h
      rw [List.map_cons, ih hrest, List.length_cons, List.range_succ_eq_map, List.map_cons,
        List.map_map, hd.version]
      congr 1
      apply List.map_congr_left
      intro k _
      rw [Int.bmod_add_bmod]
      congr 1
      simp only [Nat.succ_eq_add_one, Int.natCast_add]
      omega

/-- In a chain of versions neither the address nor the language changes. -/
theorem same_of_isChain {docs : List Document} (h : (doc :: docs).IsChain Precedes) :
    ∀ d ∈ docs, d.uri = doc.uri ∧ d.languageId = doc.languageId := by
  induction docs generalizing doc with
  | nil => simp
  | cons d docs ih =>
      obtain ⟨hd, hrest⟩ := List.isChain_cons_cons.mp h
      refine List.forall_mem_cons.mpr ⟨⟨hd.uri, hd.languageId⟩, fun e he => ?_⟩
      obtain ⟨huri, hlanguage⟩ := ih hrest e he
      exact ⟨huri.trans hd.uri, hlanguage.trans hd.languageId⟩

/-- Files with an address of their own each: what is said of an address is said of its file. -/
theorem Keeps.filter_uri {v : Vigil σ} (h : Keeps w v)
    (hdistinct : ∀ p q d e, w.get? p = some d → w.get? q = some e → d.uri = e.uri → p = q)
    (hdoc : w.get? path = some doc) :
    v.edits.filter (·.document.uri = doc.uri) = v.edits.filter (·.path = path) := by
  apply List.filter_congr
  intro e he
  obtain ⟨first, hfirst, hmem⟩ := h.exists_first he
  have huri := (same_of_isChain (h.tracked e.path first hfirst).1 e.document hmem).1
  rw [huri, decide_eq_decide]
  constructor
  · exact hdistinct e.path path first doc hfirst hdoc
  · intro hp
    rw [hp, hdoc] at hfirst
    rw [Option.some.inj hfirst]

/-- The documents of selected files stay selected. -/
theorem Keeps.selects {selector : Selector} {v : Vigil σ} (h : Keeps w v)
    (hselected : ∀ path doc, w.get? path = some doc → selector.selects doc = true) :
    ∀ e ∈ v.edits, selector.selects e.document = true := by
  intro e he
  obtain ⟨first, hfirst, hmem⟩ := h.exists_first he
  obtain ⟨huri, hlanguage⟩ := same_of_isChain (h.tracked e.path first hfirst).1 e.document hmem
  have hsame := hselected e.path first hfirst
  rwa [Selector.selects, ← huri, ← hlanguage] at hsame

/-- What holds of a vigil of selected files: unless sending fails, the messages are those of
the edits. -/
structure Kept {send : Sender σ} (j : Journal send) (w : Watcher) (s : σ) (v : Vigil σ) : Prop where
  keeps : Keeps w v
  sent : ∃ new, j.sent v.server = j.sent s ++ new ∧
    ((∀ m ∈ new, m.failure = none) → new = v.edits.flatMap Edit.messages)

theorem kept_watch {send : Sender σ} (j : Journal send) {selector : Selector}
    (hselected : ∀ path doc, w.get? path = some doc → selector.selects doc = true)
    (fs : FileSystem) (s : σ) (incidents : List Incident) :
    Kept j w s (watch (bridgeTo selector send) w fs s incidents) := by
  obtain ⟨hkeeps, told, hedits, hsent, hall⟩ := told_watch j w selector fs s incidents
  refine ⟨hkeeps, told.flatMap (·.messages), hsent, ?_⟩
  intro hok
  have hselects := hkeeps.selects hselected
  rw [← hedits] at hselects ⊢
  rw [List.flatMap_map]
  apply List.flatMap_congr
  intro t ht
  refine (hall t ht).messages_eq (hselects t.edit (List.mem_map_of_mem ht)) ?_
  intro m hm
  exact hok m (List.mem_flatMap_of_mem ht hm)

/-- **What a server is told of edits on disk**, whatever happens to the files and whatever
is reported of them, as long as sending succeeds. -/
theorem edits_converge {send : Sender σ} (j : Journal send) (selector : Selector) (w : Watcher)
    (fs : FileSystem) (s : σ) (incidents : List Incident)
    (hselected : ∀ path doc, w.get? path = some doc → selector.selects doc = true)
    (hsends : ∀ m ∈ (j.sent (watch (bridgeTo selector send) w fs s incidents).server).drop
      (j.sent s).length, m.failure = none) :
    let v := watch (bridgeTo selector send) w fs s
    -- Each change is followed at once by a save with the same text, and nothing else is sent.
    j.sent (v incidents).server = j.sent s ++ (v incidents).edits.flatMap Edit.messages ∧
    (∀ path, w.get? path = none → editsOf path (v incidents).edits = []) ∧
    (∀ path doc, w.get? path = some doc →
      -- The edits of a file are the next versions of its document.
      (∀ d ∈ editsOf path (v incidents).edits, d.uri = doc.uri ∧ d.languageId = doc.languageId) ∧
      (editsOf path (v incidents).edits).map (·.version) =
        (List.range (editsOf path (v incidents).edits).length).map fun k : Nat =>
          (doc.version + (k + 1)).bmod (Nat.pow 2 64)) ∧
    (∀ path doc, w.get? path = some doc →
      -- No edit repeats the text before it, which is the server's if nobody else has its address.
      (doc :: editsOf path (v incidents).edits).IsChain (fun d d' => d'.text ≠ d.text) ∧
      ((∀ p q d e, w.get? p = some d → w.get? q = some e → d.uri = e.uri → p = q) →
        (v incidents).edits.filter (·.document.uri = doc.uri) =
          (v incidents).edits.filter (·.path = path))) ∧
    -- Behind a report of a file that can be read, the last text is what was read.
    ∀ before path after doc text, incidents = before ++ .event path :: after →
      w.get? (Path.clean path) = some doc → (v before).files.content (Path.clean path) = .ok text →
      (doc :: editsOf (Path.clean path) (v (before ++ [.event path])).edits).getLast?.map (·.text) =
        some text := by
  intro v
  have hkept := kept_watch j hselected fs s
  obtain ⟨hkeeps, new, hnew, hall⟩ := hkept incidents
  refine ⟨?_, ?_, ?_, ?_, ?_⟩
  · rw [hnew, List.drop_left] at hsends
    rw [hnew, hall hsends]
  · exact fun path hpath => (hkeeps.untracked path hpath).1
  · intro path doc hdoc
    have hchain := (hkeeps.tracked path doc hdoc).1
    exact ⟨same_of_isChain hchain, versions_of_isChain hchain⟩
  · intro path doc hdoc
    exact ⟨(hkeeps.tracked path doc hdoc).1.imp fun _ _ h => h.text, fun h => hkeeps.filter_uri h hdoc⟩
  · rintro before path after doc text - hdoc hread
    have hlast := ((hkept (before ++ [.event path])).keeps.tracked _ doc hdoc).2
    rw [← hlast, watch_concat]
    exact (hkept before).keeps.text_of_event _ hdoc hread

def single (version : Int) (text : Bytes) : Watcher :=
  { documents := [("/a.gbnf", { uri := "file:///a.gbnf", languageId := "gbnf", version, text })] }

def written (text : Bytes) : Incident := .save fun fs => fs.put ["a.gbnf"] (.file text 0o644)

/-- An editor saves a file by moving a new one over it, and more is reported than happens. -/
def movedOver : List Incident :=
  [.save (·.erase ["a.gbnf"]), .event "/a.gbnf", written (utf8 "z"), .event "/./a.gbnf",
    .event "/a.gbnf", .event "/b.gbnf"]

/-- A file that is moved over leads to one edit. -/
theorem moved_over_edits :
    let v := watch (bridgeTo (.files "gbnf") remember) (single 1 (utf8 "y")) {} [] movedOver
    (∀ path doc, (single 1 (utf8 "y")).get? path = some doc →
      (Selector.files "gbnf").selects doc = true) ∧
    (∀ m ∈ v.server, m.failure = none) ∧
    v.server = v.edits.flatMap Edit.messages ∧
    (editsOf "/a.gbnf" v.edits).map (·.version) = [2] := by
  intro v
  have hselected : ∀ path doc, (single 1 (utf8 "y")).get? path = some doc →
      (Selector.files "gbnf").selects doc = true := by
    intro path doc hdoc
    simp only [get?, single, List.lookup_cons, List.lookup_nil] at hdoc
    split at hdoc <;> cases hdoc
    decide +kernel
  have hsends : ∀ m ∈ v.server, m.failure = none := by
    have hall : v.server.all (·.failure.isNone) = true := by decide +kernel
    intro m hm
    exact Option.isNone_iff_eq_none.mp (List.all_eq_true.mp hall m hm)
  -- The general theorem applies; only its premises are evaluated.
  have hconverge := edits_converge remember.journal (.files "gbnf") (single 1 (utf8 "y")) {} []
    movedOver hselected hsends
  exact ⟨hselected, hsends, hconverge.1, by decide +kernel⟩

/-- Two files that were given one address. -/
def twins : Watcher :=
  { documents := [("/a.gbnf", { uri := "file:///a.gbnf", languageId := "gbnf", text := utf8 "x" }),
      ("/b.gbnf", { uri := "file:///a.gbnf", languageId := "gbnf", text := utf8 "z" })] }

/-- **Edits that skip versions and repeat texts.** Behind the largest version comes the
smallest, one stray octet reads like another, and the texts of two files with one address
may become the same. -/
theorem edits_diverge :
    (∃ doc d, (single Number.int64Max [0xFF]).get? "/a.gbnf" = some doc ∧
      (Selector.files "gbnf").selects doc = true ∧
      (watch (bridgeTo (.files "gbnf") remember) (single Number.int64Max [0xFF]) {} []
          [written [0xFE], .event "/a.gbnf"]).server.map (fun m => (m.method, m.params)) =
        [(DocumentEvent.changed.method, DocumentEvent.changed.params d),
          (DocumentEvent.saved.method, DocumentEvent.saved.params d)] ∧
      d.version ≠ doc.version + 1 ∧
      DocumentEvent.changed.params d = DocumentEvent.changed.params { d with text := doc.text }) ∧
    ∃ d d', (watch (bridgeTo (.files "gbnf") remember) twins {} []
        [.save fun fs => (fs.put ["a.gbnf"] (.file (utf8 "y") 0o644)).put ["b.gbnf"] (.file (utf8 "y") 0o644),
          .event "/b.gbnf", .event "/a.gbnf"]).edits.map (·.document) = [d, d'] ∧
      d'.uri = d.uri ∧ d'.text = d.text := by
  refine ⟨⟨_, { uri := "file:///a.gbnf", languageId := "gbnf", version := Number.int64Min, text := [0xFE] },
    rfl, by decide +kernel, by decide +kernel, by decide, by decide +kernel⟩, ?_⟩
  exact ⟨{ uri := "file:///a.gbnf", languageId := "gbnf", version := 1, text := utf8 "y" },
    { uri := "file:///a.gbnf", languageId := "gbnf", version := 1, text := utf8 "y" },
    by decide +kernel, rfl, rfl⟩

end LanguageClient.Watcher
