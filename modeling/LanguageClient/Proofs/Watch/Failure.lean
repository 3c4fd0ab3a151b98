import LanguageClient.Proofs.Watch

/-! # Edits that the server was not told of.

A document is kept before the server is told of it. So the document of a file is that of its
last edit, even if the change could not be forwarded (`last_edit_kept`), and what was not
forwarded is not sent again unless the file changes once more (`refused_edit_kept`). -/

namespace LanguageClient.Watcher

def Telling.isForwarded (t : Telling) : Bool := t.messages.head?.any (·.failure.isNone)

/-- What was handed to the sender for the edits of one file. -/
def tellingsOf (path : String) (told : List Telling) : List Telling := told.filter (·.edit.path = path)

theorem editsOf_map (path : String) (told : List Telling) :
    editsOf path (told.map (·.edit)) = (tellingsOf path told).map (·.edit.document) := by
  rw [editsOf, tellingsOf, List.filter_map, List.map_map]
  rfl

/-- A list ends as what is left of it ends, if its last element is left. -/
theorem getLast?_filter_of_last {α : Type} {p : α → Bool} {xs : List α} (h : xs.getLast?.all p = true) :
    (xs.filter p).getLast? = xs.getLast? := by
  induction xs using List.reverseRecOn with
  | nil => rfl
  | append_singleton xs x _ =>
      rw [List.getLast?_concat, Option.all_some] at h
      rw [List.filter_append, List.filter_cons_of_pos h, List.filter_nil, List.getLast?_concat,
        List.getLast?_concat]

theorem getLast?_cons_map {α β : Type} (f : α → β) (b : β) (xs : List α) :
    (b :: xs.map f).getLast? = some ((xs.getLast?.map f).getD b) := by
  rw [List.getLast?_cons, List.getLast?_map]

/-- A report of a file that reads like its document leads to nothing. -/
theorem Keeps.undergo_same {w : Watcher} {v : Vigil σ} (h : Keeps w v) (bridge : Bridge σ) {path : String}
    {doc : Document} (hdoc : v.watcher.get? (Path.clean path) = some doc)
    (hread : v.files.content (Path.clean path) = .ok doc.text) :
    v.undergo w.directories bridge (.event path) = v := by
  have hnone : v.watcher.edited? v.files (Path.clean path) = none := by
    simp [edited?, hdoc, hread]
  rw [h.undergo_event, hnone]

/-- **The document of a file is that of its last edit**, forwarded or not, in any vigil and
through any sender. Each edit is told once: if its change fails, it is never sent again. Only if
the last change of a file was forwarded is its document the last one forwarded. -/
theorem last_edit_kept {send : Sender σ} (j : Journal send) (selector : Selector) (w : Watcher)
    (fs : FileSystem) (s : σ) (incidents : List Incident) :
    let v := watch (bridgeTo selector send) w fs s incidents
    ∃ told : List Telling, told.map (·.edit) = v.edits ∧
      j.sent v.server = j.sent s ++ told.flatMap (·.messages) ∧
      (∀ t ∈ told, Tells selector t.edit t.messages) ∧
      (∀ path, w.get? path = none → v.watcher.get? path = none) ∧
      (∀ path doc, w.get? path = some doc →
        v.watcher.get? path = (doc :: editsOf path v.edits).getLast? ∧
        ((tellingsOf path told).getLast?.all (·.isForwarded) = true →
          v.watcher.get? path =
            (doc :: ((tellingsOf path told).filter (·.isForwarded)).map (·.edit.document)).getLast?)) ∧
      -- Behind a failure, too, only another text makes an edit.
      ∀ path doc, v.watcher.get? (Path.clean path) = some doc →
        v.files.content (Path.clean path) = .ok doc.text →
        v.undergo w.directories (bridgeTo selector send) (.event path) = v := by
  intro v
  obtain ⟨hkeeps, told, hedits, hsent, hall⟩ := told_watch j w selector fs s incidents
  refine ⟨told, hedits, hsent, hall, fun path hpath => (hkeeps.untracked path hpath).2, ?_, ?_⟩
  · intro path doc hdoc
    have hlast := (hkeeps.tracked path doc hdoc).2
    refine ⟨hlast, ?_⟩
    intro hforwarded
    rw [hlast, ← hedits, editsOf_map, getLast?_cons_map, getLast?_cons_map,
      getLast?_filter_of_last hforwarded]
  · intro path doc hdoc hread
    exact hkeeps.undergo_same _ hdoc hread

/-- A sender that fails as often as it is told to, and remembers. -/
def failing : Sender (Nat × List Message) := fun method params s =>
  let failure := if s.1 = 0 then none else some (.plain "broken pipe")
  ((s.1 - 1, s.2 ++ [⟨method, params, failure⟩]), failure)

def failing.journal : Journal failing := ⟨Prod.snd, fun _ _ _ => rfl⟩

/-- A file is written twice, and the first change cannot be forwarded. -/
def writtenTwice : List Incident :=
  [written (utf8 "z"), .event "/a.gbnf", written (utf8 "x"), .event "/a.gbnf"]

/-- The version in between is lost. -/
theorem second_edit_forwarded :
    let v := watch (bridgeTo (.files "gbnf") failing) (single 1 (utf8 "y")) {} (1, []) writtenTwice
    ∃ told : List Telling, told.map (·.edit) = v.edits ∧ v.server.2 = told.flatMap (·.messages) ∧
      v.server.2.map (fun m => (m.method, m.failure.isSome)) =
        [("textDocument/didChange", true), ("textDocument/didChange", false), ("textDocument/didSave", false)] ∧
      (v.watcher.get? "/a.gbnf").map (fun d => (d.version, d.text)) = some (3, utf8 "x") := by
  intro v
  obtain ⟨told, hedits, hsent, -⟩ :=
    last_edit_kept failing.journal (.files "gbnf") (single 1 (utf8 "y")) {} (1, []) writtenTwice
  exact ⟨told, hedits, hsent, by decide +kernel, by decide +kernel⟩

/-- **A change that could not be forwarded counts as forwarded**: the document of the file is
the new one, though the server was told of nothing, and the next report of the file leads to
nothing, though the sender would not fail again. -/
theorem refused_edit_kept :
    let v := watch (bridgeTo (.files "gbnf") failing) (single 1 (utf8 "y")) {} (1, [])
      [written (utf8 "z"), .event "/a.gbnf", .event "/a.gbnf"]
    v.server.1 = 0 ∧
      v.server.2.map (fun m => (m.method, m.failure.isSome)) = [("textDocument/didChange", true)] ∧
      ((single 1 (utf8 "y")).get? "/a.gbnf").map (·.text) = some (utf8 "y") ∧
      (v.watcher.get? "/a.gbnf").map (·.text) = some (utf8 "z") := by
  decide +kernel

end LanguageClient.Watcher
