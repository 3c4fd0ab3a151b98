import LanguageClient.Proofs.Bridge.Wire
import LanguageClient.Proofs.Run.Ledger
import LanguageClient.Proofs.Supervisor.Order

/-! # What a run opens.

A run opens each file argument in the language of the client, whatever the other arguments
are. So by what it sends a document is opened at most once for each argument that stands
for its address (`Opening.countP_le`), and nothing is opened after something was closed
(`Opening.unreopened`). Messages are told apart by their methods and by what a server
reads in their parameters (`announces`). -/

namespace LanguageClient

/-- Whether a file is in the language of a client. -/
def Client.takes (c : Client) (path : String) : Bool :=
  (c.config.languageFor? path).getD "" == c.selector.language

namespace Run

open Supervisor

/-! ### Announcements -/

/-- Whether a message announces an event of the document with an address. -/
def announces (event : DocumentEvent) (uri : String) : Purpose → Bool
  | .passed method (.json params) =>
    method == event.method &&
      match Notice.decoder.run {} params with
      | .ok notice => notice.document.uri == some uri
      | .error _ => false
  | _ => false

/-- The message that announces an event of a document. -/
def announcement (event : DocumentEvent) (doc : Document) : Purpose :=
  .passed event.method (.json (event.params doc))

/-- What a message is for that hands on what was sent. -/
def Sent.purpose (s : Sent) : Purpose := .passed s.method (.json s.params)

/-- The announcement of an event announces it for the address of the document. -/
theorem announces_announcement (event : DocumentEvent) {doc : Document}
    (hversion : Number.fitsInt64 doc.version = true) (uri : String) :
    announces event uri (announcement event doc) = (doc.uri == uri) := by
  have huri : (event.notice doc).document.uri = some doc.uri := by cases event <;> rfl
  simp only [announces, announcement, DocumentEvent.read_params event hversion, huri, beq_self_eq_true,
    Bool.true_and]
  rfl

theorem method_of_announces {event : DocumentEvent} {uri : String} {s : Sent}
    (h : announces event uri s.purpose = true) : s.method = event.method := by
  simp only [announces, Sent.purpose, Bool.and_eq_true, beq_iff_eq] at h
  exact h.1

theorem Sent.Tells.purpose_eq {event : DocumentEvent} {doc : Document} {s : Sent}
    (h : s.Tells event doc) : s.purpose = announcement event doc := by
  rw [Sent.purpose, announcement, h.1, h.2]

theorem isPassed_of_announces {event : DocumentEvent} {uri : String} {p : Purpose}
    (h : announces event uri p = true) : p.isPassed = true := by
  cases p with
  | passed method params => rfl
  | _ => cases h

/-! ### Discipline -/

/-- Between two announcements that a document is opened there is one that it is closed. -/
def Disciplined (uri : String) (said : List Purpose) : Prop :=
  ∀ before p between q after, said = before ++ p :: between ++ q :: after →
    announces .opened uri p = true → announces .opened uri q = true →
    ∃ r ∈ between, announces .closed uri r = true

/-- Nothing is opened that was closed before. -/
def Unreopened (uri : String) (said : List Purpose) : Prop :=
  said.Pairwise fun p q => announces .closed uri p = true → announces .opened uri q = false

instance (uri : String) (said : List Purpose) : Decidable (Unreopened uri said) :=
  inferInstanceAs (Decidable (List.Pairwise _ said))

section Discipline

variable {uri : String} {said : List Purpose}

theorem disciplined_of_countP_le (h : said.countP (announces .opened uri) ≤ 1) : Disciplined uri said := by
  rintro before p between q after rfl hp hq
  simp only [List.countP_append, List.countP_cons_of_pos hp, List.countP_cons_of_pos hq] at h
  omega

theorem exists_two_of_countP {α : Type} {f : α → Bool} {l : List α} (h : 2 ≤ l.countP f) :
    ∃ before x between y after, l = before ++ x :: between ++ y :: after ∧ f x = true ∧ f y = true := by
  induction l with
  | nil => simp at h
  | cons a l ih =>
      by_cases ha : f a = true
      · rw [List.countP_cons_of_pos ha] at h
        obtain ⟨y, hy, hfy⟩ := List.countP_pos_iff.mp (show 0 < l.countP f by omega)
        obtain ⟨between, after, rfl⟩ := List.append_of_mem hy
        exact ⟨[], a, between, y, after, rfl, ha, hfy⟩
      · rw [List.countP_cons_of_neg ha] at h
        obtain ⟨before, x, between, y, after, rfl, hx, hy⟩ := ih h
        exact ⟨a :: before, x, between, y, after, rfl, hx, hy⟩

/-- Where nothing is opened again, there is discipline only if nothing is opened twice. -/
theorem Disciplined.countP_le (h : Disciplined uri said) (hun : Unreopened uri said) :
    said.countP (announces .opened uri) ≤ 1 := by
  by_contra hmany
  obtain ⟨before, p, between, q, after, rfl, hp, hq⟩ :=
    exists_two_of_countP (show 2 ≤ said.countP (announces .opened uri) by omega)
  obtain ⟨r, hr, hclosed⟩ := h before p between q after rfl hp hq
  have hopened := (List.pairwise_append.mp hun).2.2 r
    (List.mem_append_right before (List.mem_cons_of_mem p hr)) q List.mem_cons_self hclosed
  rw [hq] at hopened
  cases hopened

end Discipline

/-! ### What is opened -/

def addressOf (dir : Location) (path : String) : String :=
  textOf (fileUri (utf8 (FileSystem.pathOf dir)) (utf8 path))

/-- The addresses of the files that are in the language of a client. -/
def addresses (c : Client) (dir : Location) (paths : List String) : List String :=
  (paths.filter c.takes).map (addressOf dir)

/-- What was sent by one who tried to open some documents, at one address each, and did
not open any `later`. -/
structure Opening (uris : List String) (tried : List Document) (sent later : List Sent) : Prop where
  said : sent.map Sent.purpose = tried.map (announcement .opened) ++ later.map Sent.purpose
  uris : (tried.map (·.uri)).Sublist uris
  version : ∀ d ∈ tried, d.version = 1
  later : ∀ s ∈ later, s.method ≠ DocumentEvent.opened.method

section Opening

variable {uris : List String} {tried : List Document} {sent later : List Sent}

theorem opening_nil (uris : List String) : Opening uris [] [] [] :=
  ⟨rfl, List.nil_sublist uris, by simp, by simp⟩

/-- One more file does no harm. -/
theorem Opening.cons {c : Client} {dir : Location} {paths : List String}
    (h : Opening (addresses c dir paths) tried sent later) (path : String) :
    Opening (addresses c dir (path :: paths)) tried sent later where
  said := h.said
  uris := h.uris.trans (((List.sublist_cons_self path paths).filter c.takes).map (addressOf dir))
  version := h.version
  later := h.later

/-- One more file is opened. -/
theorem Opening.tells {c : Client} {dir : Location} {path : String} {paths : List String}
    (h : Opening (addresses c dir paths) tried sent later) (htakes : c.takes path = true)
    {doc : Document} {s : Sent} (huri : doc.uri = addressOf dir path) (hversion : doc.version = 1)
    (htells : s.Tells .opened doc) :
    Opening (addresses c dir (path :: paths)) (doc :: tried) (s :: sent) later where
  said := by rw [List.map_cons, List.map_cons, htells.purpose_eq, h.said, List.cons_append]
  uris := by
    rw [addresses, List.filter_cons_of_pos htakes, List.map_cons, List.map_cons, huri]
    exact h.uris.cons_cons _
  version := List.forall_mem_cons.mpr ⟨hversion, h.version⟩
  later := h.later

theorem Opening.append {more : List Sent} (h : Opening uris tried sent [])
    (hmore : ∀ s ∈ more, s.method ≠ DocumentEvent.opened.method) :
    Opening uris tried (sent ++ more) more where
  said := by rw [List.map_append, h.said, List.map_nil, List.append_nil]
  uris := h.uris
  version := h.version
  later := hmore

theorem announces_tried {uri : String} {d : Document} (h : d.version = 1) :
    announces .opened uri (announcement .opened d) = (d.uri == uri) :=
  announces_announcement .opened (by rw [h]; rfl) uri

theorem Opening.announces_later (h : Opening uris tried sent later) {s : Sent} (hs : s ∈ later)
    (uri : String) : announces .opened uri s.purpose = false := by
  rw [Bool.eq_false_iff]
  intro ha
  exact h.later s hs (method_of_announces ha)

/-- A document is announced to be opened at most once for each address that is given. -/
theorem Opening.countP_le (h : Opening uris tried sent later) (uri : String) :
    (sent.map Sent.purpose).countP (announces .opened uri) ≤ uris.count uri := by
  have hlater : (later.map Sent.purpose).countP (announces .opened uri) = 0 := by
    rw [List.countP_eq_zero]
    intro p hp
    obtain ⟨s, hs, rfl⟩ := List.mem_map.mp hp
    rw [h.announces_later hs]
    exact Bool.false_ne_true
  have htried : (tried.map (announcement .opened)).countP (announces .opened uri) =
      (tried.map (·.uri)).count uri := by
    rw [List.countP_map, List.count, List.countP_map]
    refine List.countP_congr ?_
    intro d hd
    rw [Function.comp_apply, announces_tried (h.version d hd)]
    rfl
  rw [h.said, List.countP_append, hlater, htried]
  exact h.uris.count_le uri

/-- All is opened before anything else is said. -/
theorem Opening.unreopened (h : Opening uris tried sent later) (uri : String) :
    Unreopened uri (sent.map Sent.purpose) := by
  rw [Unreopened, h.said]
  refine List.pairwise_append.mpr ⟨?_, ?_, ?_⟩
  · refine List.pairwise_map.mpr (List.pairwise_of_forall ?_)
    intro d d' hclosed
    -- an announcement has one method
    cases hclosed
  · refine List.pairwise_of_forall_mem_list ?_
    intro p _ q hq _
    obtain ⟨s, hs, rfl⟩ := List.mem_map.mp hq
    exact h.announces_later hs uri
  · intro p _ q hq _
    obtain ⟨s, hs, rfl⟩ := List.mem_map.mp hq
    exact h.announces_later hs uri

end Opening

namespace Ledger

variable {m : Means σ η} {send : Sender σ} (l : Ledger m send) {dir : Location}

/-- A document that was read has the address of its file, the language for its extension, and version 1. -/
theorem readDocument_eq_ok {fs : FileSystem} {path : String} {doc : Document}
    (h : readDocument m fs path = .ok doc) :
    doc.uri = addressOf fs.workingDirectory path ∧
      doc.languageId = (m.client.config.languageFor? path).getD "" ∧ doc.version = 1 := by
  unfold readDocument at h
  split at h
  · cases h
  · obtain rfl := Except.ok.inj h
    exact ⟨rfl, rfl, rfl⟩

theorem language_of_selects {s : Selector} {doc : Document} (h : s.selects doc = true) :
    (doc.languageId == s.language) = true := by
  rw [Selector.selects, Bool.and_eq_true] at h
  exact h.1

/-- **Opening files** announces each document that is selected once at most. -/
theorem openDocuments_opening (hdir : ∀ w, l.holds w → (m.files w).workingDirectory = dir)
    (paths : List String) {w : σ} (hw : l.holds w) :
    ∃ tried opens, l.Adds opens w (openDocuments m (bridge m.client.selector send) paths w).1 ∧
      Opening (addresses m.client dir paths) tried opens [] := by
  induction paths generalizing w with
  | nil => exact ⟨[], [], .refl _ w, opening_nil _⟩
  | cons path paths ih =>
      cases hread : readDocument m (m.files w) path with
      | error e =>
          simp only [openDocuments, hread]
          exact ⟨[], [], .refl _ w, opening_nil _⟩
      | ok document =>
          obtain ⟨huri, hlanguage, hversion⟩ := readDocument_eq_ok hread
          rw [hdir w hw] at huri
          cases hsel : m.client.selector.selects document with
          | false =>
              simp only [openDocuments, hread, forward_unselected m.client.selector hsel]
              have hsay := l.say_adds (.line (skippedLine m path)) w
              obtain ⟨tried, opens, hadds, hopening⟩ := ih (hsay.holds hw)
              exact ⟨tried, opens, hsay.trans hadds, hopening.cons path⟩
          | true =>
              -- The selector looks at the language, which the client finds by the path.
              have htakes : m.client.takes path = true := by
                rw [Client.takes, ← hlanguage]
                exact language_of_selects hsel
              obtain ⟨w', s, hs, -, htells, -, ⟨hr, -⟩ | ⟨⟨e, hr⟩, -⟩⟩ :=
                l.forward_selected m.client.selector .opened hsel w
              · simp only [openDocuments, hread, hr]
                have hdebug := l.debug_adds ("Opened " ++ document.uri) w'
                obtain ⟨tried, opens, hadds, hopening⟩ := ih (hdebug.holds (hs.holds hw))
                exact ⟨document :: tried, s :: opens, hs.trans (hdebug.trans hadds),
                  hopening.tells htakes huri hversion htells⟩
              · simp only [openDocuments, hread, hr]
                exact ⟨[document], [s], hs,
                  (opening_nil _).tells htakes huri hversion htells⟩

/-- **While the server runs**, a run opens documents first. -/
theorem serve_opening (hdir : ∀ w, l.holds w → (m.files w).workingDirectory = dir) (o : Options)
    {w : σ} (hw : l.holds w) :
    ∃ tried sent later, l.Adds sent w (serve m o (bridge m.client.selector send) w).1 ∧
      Opening (addresses m.client dir o.files) tried sent later := by
  obtain ⟨tried, opens, hopens, hopening⟩ := l.openDocuments_opening hdir o.files hw
  obtain ⟨-, -, -, hsel⟩ := l.openDocuments_adds m.client.selector o.files w
  simp only [serve]
  cases hr : openDocuments m (bridge m.client.selector send) o.files w with
  | mk w₁ r =>
      obtain ⟨opened, failure⟩ := r
      rw [hr] at hopens hsel
      -- Closing never opens anything.
      have hclose (w₂ : σ) : ∃ closes, l.Adds closes w₂
          (closeDocuments (bridge m.client.selector send) opened (m.shield w₂)) ∧
          ∀ s ∈ closes, s.method ≠ DocumentEvent.opened.method := by
        obtain ⟨closes, hcloses, hc⟩ :=
          l.closeDocuments_adds m.client.selector opened hsel (m.shield w₂) (l.shield_shielded w₂)
        refine ⟨closes, (l.shield_adds w₂).trans hcloses, ?_⟩
        intro s hs
        rw [hc.method s hs]
        decide
      cases failure with
      | some e =>
          obtain ⟨closes, hcloses, hlater⟩ := hclose w₁
          exact ⟨tried, opens ++ closes, closes, hopens.trans hcloses, hopening.append hlater⟩
      | none =>
          obtain ⟨edits, hedits, he⟩ := l.wait_adds m.client.selector o opened w₁
          obtain ⟨closes, hcloses, hlater⟩ :=
            hclose (wait m o (bridge m.client.selector send) opened w₁).1
          refine ⟨tried, opens ++ (edits ++ closes), edits ++ closes, ?_, hopening.append ?_⟩
          · exact hopens.trans (hedits.trans hcloses)
          · intro s hs
            rcases List.mem_append.mp hs with hs | hs
            · rcases (he s hs).method with h | h <;> (rw [h]; decide)
            · exact hlater s hs

end Ledger

end Run

end LanguageClient
