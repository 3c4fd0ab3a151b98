import LanguageClient.Proofs.Activation
import LanguageClient.Proofs.Bridge.Relay
import LanguageClient.Proofs.Config.Validity
import LanguageClient.Proofs.Document
import LanguageClient.Proofs.Path

/-! # Which files a run opens.

Whether a file is opened is decided by its extension alone, though nobody asks for
that: a document gets the language of the client if its file has one of the client's
extensions, and none otherwise, and the bridge passes on documents of that language
whose URI it can read. `selects_documentAt` puts these together; it needs that the
language is not empty, and that every URI made from a path is read as one of a file.

Names of files are octets, and not always those of a text. So opening is followed for
any `Disk` (`openFiles`), of which the files of a run are one (`openDocuments_eq`), and
with a record of what is said, which changes nothing (`openFiles_aloud`). -/

namespace LanguageClient

/-! ### Names that are octets -/

/-- Files by the octets of their names. -/
structure Disk where
  workingDirectory : Bytes
  rooted : Path.isRooted workingDirectory = true
  content : Bytes → Except Error Bytes

theorem isRooted_pathOf (loc : Location) : Path.isRooted (utf8 (FileSystem.pathOf loc)) = true := by
  have hpath : (FileSystem.pathOf loc).toList = '/' :: (String.intercalate "/" loc).toList := by
    simp [FileSystem.pathOf]
  rw [utf8, hpath]
  exact congrArg Path.isRooted (Utf8.encode_append ['/'] _)

/-- The files whose names are texts. -/
def FileSystem.disk (fs : FileSystem) : Disk where
  workingDirectory := utf8 (pathOf fs.workingDirectory)
  rooted := isRooted_pathOf fs.workingDirectory
  content path := fs.content (textOf path)

/-! ### Files in the language of the client -/

/-- Whether a file has one of the extensions of the language, in any case of letters. -/
def Config.covers (c : Config) (path : Bytes) : Bool :=
  c.extensions.any fun e => Text.lower e = Text.lower (textOf (Path.extensionList path))

/-- A file is covered exactly if its extension is among the configured ones, letter case aside. -/
theorem Config.covers_iff {c : Config} {path : Bytes} :
    c.covers path = true ↔ ∃ ext, Path.HasExtension path ext ∧
      ∃ e ∈ c.extensions, Text.lower e = Text.lower (textOf ext) := by
  simp only [covers, List.any_eq_true, decide_eq_true_eq]
  constructor
  · exact fun h => ⟨_, Path.extensionList_eq_iff.mp rfl, h⟩
  · rintro ⟨ext, hext, h⟩
    rwa [Path.extensionList_eq_iff.mpr hext]

theorem Config.languageOf?_eq {c : Config} (path : Bytes) :
    c.languageOf? (textOf (Path.extensionList path)) =
      if c.covers path then some c.languageId else none := rfl

def documentAt (c : Config) (disk : Disk) (path text : Bytes) : Document where
  uri := textOf (fileUri disk.workingDirectory path)
  languageId := (c.languageOf? (textOf (Path.extensionList path))).getD ""
  version := 1
  text := text

/-- **A document is the server's business if its file has one of the extensions**, and
not otherwise. -/
theorem selects_documentAt {c : Client} (hc : c.config.validate = .ok ()) (disk : Disk)
    (path text : Bytes) :
    c.selector.selects (documentAt c.config disk path text) = c.config.covers path := by
  have hlanguage : (documentAt c.config disk path text).languageId =
      if c.config.covers path then c.config.languageId else "" := by
    rw [documentAt, Config.languageOf?_eq]
    split <;> rfl
  cases hcovers : c.config.covers path with
  | true => exact selects_of_fileUri disk.rooted rfl (hlanguage.trans (if_pos hcovers))
  | false =>
    have hne := Config.ne_empty_of_not_blank (Config.validate_eq_ok.mp hc).languageId
    rw [hcovers, if_neg Bool.false_ne_true] at hlanguage
    simp [Selector.selects, Client.selector, Selector.files, hlanguage, hne.symm]

namespace Run

/-! ### Opening files -/

section Opening

variable (m : Means σ η) (disk : σ → Disk) (bridge : Bridge σ)

/-- Opens files on the server, one after the other, up to the first one that fails. -/
def openFiles : List Bytes → σ → σ × List (Bytes × Document) × Option Error
  | [], w => (w, [], none)
  | path :: paths, w =>
    match (disk w).content path with
    | .error e => (w, [], some (.context ("failed to read " ++ textOf path) e))
    | .ok text =>
      let document := documentAt m.client.config (disk w) path text
      match bridge.forward .opened document w with
      | (w, .error e) => (w, [], some (.context ("failed to open " ++ textOf path) e))
      | (w, .ok false) =>
        openFiles paths (m.activator.say (.line (skippedLine m (textOf path))) w)
      | (w, .ok true) =>
        let (w, opened, failure) := openFiles paths (m.debug ("Opened " ++ document.uri) w)
        (w, (path, document) :: opened, failure)

/-- A document that was opened under a name that is a text. -/
def Opened.ofFile (o : Bytes × Document) : Opened := { path := textOf o.1, document := o.2 }

theorem readDocument_eq (fs : FileSystem) (path : String) :
    readDocument m fs path = match fs.disk.content (utf8 path) with
      | .error e => .error (.context ("failed to read " ++ path) e)
      | .ok text => .ok (documentAt m.client.config fs.disk (utf8 path) text) := by
  have hcontent : fs.disk.content (utf8 path) = fs.content path := by
    simp only [FileSystem.disk, Utf8.textOf_utf8]
  rw [readDocument, hcontent]
  cases fs.content path with
  | error e => rfl
  | ok text => simp only [documentAt, FileSystem.disk, Path.extensionList_utf8, Config.languageFor?]

/-- A run opens the files whose names are texts. -/
theorem openDocuments_eq (paths : List String) (w : σ) :
    openDocuments m bridge paths w =
      let r := openFiles m (fun w => (m.files w).disk) bridge (paths.map utf8) w
      (r.1, r.2.1.map Opened.ofFile, r.2.2) := by
  induction paths generalizing w with
  | nil => rfl
  | cons path paths ih =>
    simp only [openDocuments, List.map_cons, openFiles, readDocument_eq]
    cases (m.files w).disk.content (utf8 path) with
    | error e => simp [Utf8.textOf_utf8]
    | ok text =>
      dsimp only
      cases bridge.forward .opened (documentAt m.client.config (m.files w).disk (utf8 path) text) w with
      | mk w' r =>
        cases r with
        | error e => simp [Utf8.textOf_utf8]
        | ok b =>
          cases b with
          | false => simp [Utf8.textOf_utf8, ih]
          | true => simp [Utf8.textOf_utf8, ih, Opened.ofFile]

end Opening

end Run

/-! ### With a record of what is said -/

/-- The same bridge, beside a record. -/
def Bridge.aloud (b : Bridge σ) : Bridge (σ × List Report) where
  selector := b.selector
  sender := b.sender.map fun send method params w =>
    (((send method params w.1).1, w.2), (send method params w.1).2)

theorem Bridge.forward_aloud (b : Bridge σ) (event : DocumentEvent) (doc : Document)
    (w : σ × List Report) :
    b.aloud.forward event doc w = (((b.forward event doc w.1).1, w.2), (b.forward event doc w.1).2) := by
  obtain ⟨selector, sender⟩ := b
  cases hselects : selector.selects doc with
  | false => simp [Bridge.forward, Bridge.aloud, hselects]
  | true =>
    simp only [Bridge.forward, Bridge.aloud, hselects, if_true]
    cases sender with
    | none => rfl
    | some send =>
      simp only [Option.map_some]
      cases send event.method (event.params doc) w.1 with
      | mk w' failure => cases failure <;> rfl

namespace Run

open Supervisor

/-- The same means, with a record of what is said. -/
def Means.aloud (m : Means σ η) : Means (σ × List Report) η where
  client := m.client
  activator := m.activator.aloud
  files w := m.files w.1
  debug s w := (m.debug s w.1, w.2)
  interrupted w := m.interrupted w.1
  shield w := (m.shield w.1, w.2)
  next once w := (((m.next once w.1).1, w.2), (m.next once w.1).2)
  late w := (((m.late w.1).1, w.2), (m.late w.1).2)
  patience := m.patience

/-- **Keeping a record changes nothing.** -/
theorem openFiles_aloud (m : Means σ η) (disk : σ → Disk) (bridge : Bridge σ) (paths : List Bytes)
    (w : σ × List Report) :
    let r := openFiles m.aloud (fun w => disk w.1) bridge.aloud paths w
    (r.1.1, r.2) = openFiles m disk bridge paths w.1 := by
  induction paths generalizing w with
  | nil => rfl
  | cons path paths ih =>
    simp only [openFiles, Bridge.forward_aloud]
    cases (disk w.1).content path with
    | error e => rfl
    | ok text =>
      dsimp only [Means.aloud, Activator.aloud] at ih ⊢
      cases bridge.forward .opened (documentAt m.client.config (disk w.1) path text) w.1 with
      | mk w' r =>
        cases r with
        | error e => rfl
        | ok b =>
          cases b with
          | false => exact ih _
          | true =>
            -- With and without reports, the same documents are opened.
            have hrest := ih
              (m.debug ("Opened " ++ (documentAt m.client.config (disk w.1) path text).uri) w', w.2)
            dsimp only
            rw [← hrest]

/-! ### A server that stays up -/

section Served

variable (k : Conditions) (c : Client) (disk : Circumstances → Disk)

/-- A run opens files, with a record of what is said. -/
def opening (paths : List Bytes) (p : Course) (said : List Report) :
    (Course × List Report) × List (Bytes × Document) × Option Error :=
  openFiles (means k c).aloud (fun w => disk w.1.now) (relay c.selector).aloud paths (p, said)

/-- What is said of a file that is skipped. -/
def skipReport (path : Bytes) : Report := .line (skippedLine (means k c) (textOf path))

variable {k c disk} {path text : Bytes} {paths : List Bytes} {p : Course} {said : List Report}

theorem opening_unreadable {e : Error} (h : (disk p.now).content path = .error e) :
    opening k c disk (path :: paths) p said =
      ((p, said), [], some (.context ("failed to read " ++ textOf path) e)) := by
  simp only [opening, openFiles, h]

/-- A file without one of the extensions is skipped. -/
theorem opening_skipped (hc : c.config.validate = .ok ())
    (h : (disk p.now).content path = .ok text) (hcovers : c.config.covers path = false) :
    opening k c disk (path :: paths) p said =
      opening k c disk paths p (said ++ [skipReport k c path]) := by
  have hselects := (selects_documentAt hc (disk p.now) path text).trans hcovers
  have hforward := forward_unselected c.selector hselects .opened p
  have hclient : (means k c).aloud.client = c := rfl
  simp only [opening, openFiles, h, Bridge.forward_aloud, hclient, hforward]
  rfl

/-- A file with one of them is told to the server. -/
theorem opening_covered (hc : c.config.validate = .ok ())
    (h : (disk p.now).content path = .ok text) (hcovers : c.config.covers path = true) :
    let doc := documentAt c.config (disk p.now) path text
    let sent := p.notify DocumentEvent.opened.method (DocumentEvent.opened.params doc)
    opening k c disk (path :: paths) p said =
      match sent.2 with
      | some e => ((sent.1, said), [], some (.context ("failed to open " ++ textOf path)
          (.context (DocumentEvent.opened.method ++ " " ++ doc.uri) e)))
      | none =>
        let r := opening k c disk paths sent.1 said
        (r.1, (path, doc) :: r.2.1, r.2.2) := by
  have hselects := (selects_documentAt hc (disk p.now) path text).trans hcovers
  have hforward := forward_selected c.selector hselects .opened p
  have hclient : (means k c).aloud.client = c := rfl
  simp only [opening, openFiles, h, Bridge.forward_aloud, hclient, hforward]
  cases (p.notify DocumentEvent.opened.method (DocumentEvent.opened.params
    (documentAt c.config (disk p.now) path text))).2 <;> rfl

/-- What has become of files that were dealt with, and what was said meanwhile. -/
structure Dealt (k : Conditions) (c : Client) (disk : Circumstances → Disk) (handled : List Bytes)
    (said : List Report) (r : (Course × List Report) × List (Bytes × Document) × Option Error) :
    Prop where
  opened : r.2.1.map (·.1) = handled.filter c.config.covers
  said : r.1.2 = said ++ (handled.filter (!c.config.covers ·)).map (skipReport k c)
  documents : ∀ o ∈ r.2.1, ∃ w text, (disk w).content o.1 = .ok text ∧
    o.2 = documentAt c.config (disk w) o.1 text

/-- Why other files were not dealt with. -/
inductive Ends (c : Client) (disk : Circumstances → Disk) (w : Circumstances) :
    List Bytes → Option Error → Prop
  /-- There are none. -/
  | all : Ends c disk w [] none
  /-- The first one cannot be read. -/
  | unreadable {path : Bytes} {rest : List Bytes} {e : Error} (h : (disk w).content path = .error e) :
      Ends c disk w (path :: rest) (some (.context ("failed to read " ++ textOf path) e))
  /-- The run was interrupted while the server was told of it. -/
  | interrupted {path : Bytes} {rest : List Bytes} {e : Error} (h : c.config.covers path = true)
      (hcut : w.cutsShort = true) : Ends c disk w (path :: rest) (some e)

theorem Dealt.nil (p : Course) (said : List Report) (failure : Option Error) :
    Dealt k c disk [] said ((p, said), [], failure) :=
  ⟨rfl, (List.append_nil _).symm, nofun⟩

/-- A file that is not covered is skipped, and that is reported. -/
theorem Dealt.skip {handled : List Bytes}
    {r : (Course × List Report) × List (Bytes × Document) × Option Error}
    (h : Dealt k c disk handled (said ++ [skipReport k c path]) r)
    (hcovers : c.config.covers path = false) : Dealt k c disk (path :: handled) said r where
  opened := by rw [h.opened, List.filter_cons_of_neg (by simp [hcovers])]
  said := by
    rw [h.said, List.filter_cons_of_pos (by simp [hcovers]), List.map_cons, List.append_assoc]
    rfl
  documents := h.documents

/-- A file that is covered and can be read is opened. -/
theorem Dealt.open {handled : List Bytes} {w : Circumstances}
    {r : (Course × List Report) × List (Bytes × Document) × Option Error}
    (h : Dealt k c disk handled said r) (hcovers : c.config.covers path = true)
    (htext : (disk w).content path = .ok text) :
    Dealt k c disk (path :: handled) said
      (r.1, (path, documentAt c.config (disk w) path text) :: r.2.1, r.2.2) where
  opened := by rw [List.map_cons, h.opened, List.filter_cons_of_pos (by simp [hcovers])]
  said := by rw [h.said, List.filter_cons_of_neg (by simp [hcovers])]
  documents := List.forall_mem_cons.mpr ⟨⟨w, text, htext, rfl⟩, h.documents⟩

theorem opening_lost (hc : c.config.validate = .ok ())
    (hl : (opening k c disk paths p said).1.1.lost = false) : p.lost = false := by
  induction paths generalizing p said with
  | nil => exact hl
  | cons path paths ih =>
    cases htext : (disk p.now).content path with
    | error e => rwa [opening_unreadable htext] at hl
    | ok text =>
      cases hcovers : c.config.covers path with
      | false => exact ih (opening_skipped hc htext hcovers ▸ hl)
      | true =>
        rw [opening_covered hc htext hcovers] at hl
        have hsent : (p.notify DocumentEvent.opened.method (DocumentEvent.opened.params
            (documentAt c.config (disk p.now) path text))).1.lost = false := by
          split at hl
          · exact hl
          · exact ih hl
        exact call_lost (t := notifier p.now DocumentEvent.opened.method
          (DocumentEvent.opened.params (documentAt c.config (disk p.now) path text))) hsent

/-- **What opening files comes to**, whatever else happens meanwhile. -/
theorem opening_said (hc : c.config.validate = .ok ()) {v : Supervision}
    (hv : p.now.server = some v) (h : Serving v) (paths : List Bytes)
    (hl : (opening k c disk paths p said).1.1.lost = false) :
    ∃ v' handled rest, paths = handled ++ rest ∧
      Dealt k c disk handled said (opening k c disk paths p said) ∧
      (opening k c disk paths p said).1.1.now.server = some v' ∧ Serving v' ∧
      (v'.steady = true → v.steady = true ∧
        spoken v'.lines = spoken v.lines ++
          (opening k c disk paths p said).2.1.map (fun o => toldLine (.opened, o.2)) ∧
        Ends c disk (opening k c disk paths p said).1.1.now rest
          (opening k c disk paths p said).2.2) := by
  induction paths generalizing p v said with
  | nil =>
    exact ⟨v, [], [], rfl, .nil p said none, hv, h, fun hs => ⟨hs, (List.append_nil _).symm, .all⟩⟩
  | cons path paths ih =>
    cases htext : (disk p.now).content path with
    | error e =>
      rw [opening_unreadable htext]
      exact ⟨v, [], path :: paths, rfl, .nil .., hv, h,
        fun hs => ⟨hs, (List.append_nil _).symm, .unreadable htext⟩⟩
    | ok text =>
      cases hcovers : c.config.covers path with
      | false =>
        rw [opening_skipped hc htext hcovers] at hl ⊢
        obtain ⟨v', handled, rest, rfl, hdealt, htells⟩ := ih hv h hl
        exact ⟨v', path :: handled, rest, rfl, hdealt.skip hcovers, htells⟩
      | true =>
        -- The notification has returned, or the course would have been lost here already.
        have hsent : (p.notify DocumentEvent.opened.method (DocumentEvent.opened.params
            (documentAt c.config (disk p.now) path text))).1.lost = false := by
          rw [opening_covered hc htext hcovers] at hl
          split at hl
          · exact hl
          · exact opening_lost hc hl
        obtain ⟨v₁, hv₁, hserving₁, htells₁⟩ := notify_said hv h _ _ hsent
        rw [opening_covered hc htext hcovers] at hl ⊢
        dsimp only at hl ⊢
        cases hr : (p.notify DocumentEvent.opened.method (DocumentEvent.opened.params
            (documentAt c.config (disk p.now) path text))).2 with
        | some e =>
          simp only [hr] at hl htells₁ ⊢
          refine ⟨v₁, [], path :: paths, rfl, .nil .., hv₁, hserving₁, fun hs => ?_⟩
          obtain ⟨hsteady, hspoken, hfirm⟩ := htells₁ hs
          refine ⟨hsteady, hspoken, .interrupted hcovers ?_⟩
          -- A failure that no cut explains cannot be.
          by_contra hcut
          exact absurd (hfirm (Bool.eq_false_of_not_eq_true hcut)) (by simp)
        | none =>
          simp only [hr] at hl htells₁ ⊢
          obtain ⟨v', handled, rest, rfl, hdealt, hv', hserving', htells⟩ := ih hv₁ hserving₁ hl
          refine ⟨v', path :: handled, rest, rfl, hdealt.open hcovers htext, hv', hserving',
            fun hs => ?_⟩
          obtain ⟨hs₁, hspoken, hends⟩ := htells hs
          obtain ⟨hsteady, hspoken₁, -⟩ := htells₁ hs₁
          refine ⟨hsteady, ?_, hends⟩
          rw [hspoken, hspoken₁, List.append_assoc]
          rfl

/-- **Opening files comes to an end**, once all that is ahead has happened and the threads
of the calls have taken their steps. If nothing is ahead, the server stays up and nobody
gives up. -/
theorem opening_returns (hc : c.config.validate = .ok ()) {v : Supervision}
    (hv : p.now.server = some v) (h : Serving v) (hp : p.lost = false) (said : List Report)
    (paths : List Bytes) :
    ∃ more, (∀ x ∈ more, x.IsOwn) ∧
      (opening k c disk paths (p.extend more) said).1.1.lost = false ∧
      (p.ahead = [] → v.steady = true → ∃ v',
        (opening k c disk paths (p.extend more) said).1.1.now.server = some v' ∧ v'.steady = true ∧
        (opening k c disk paths (p.extend more) said).1.1.now.cutsShort = p.now.cutsShort) := by
  induction paths generalizing p v said with
  | nil =>
    refine ⟨[], by simp, ?_⟩
    rw [extend_nil]
    exact ⟨hp, fun _ hs => ⟨v, hv, hs, rfl⟩⟩
  | cons path paths ih =>
    cases htext : (disk p.now).content path with
    | error e =>
      refine ⟨[], by simp, ?_⟩
      rw [extend_nil, opening_unreadable htext]
      exact ⟨hp, fun _ hs => ⟨v, hv, hs, rfl⟩⟩
    | ok text =>
      cases hcovers : c.config.covers path with
      | false =>
        obtain ⟨more, hown, hl, hsteady⟩ := ih hv h hp (said ++ [skipReport k c path])
        refine ⟨more, hown, ?_⟩
        rw [opening_skipped (p := p.extend more) hc htext hcovers]
        exact ⟨hl, hsteady⟩
      | true =>
        obtain ⟨first, hown, hl, hsteady⟩ := notify_returns hv h DocumentEvent.opened.method
          (DocumentEvent.opened.params (documentAt c.config (disk p.now) path text))
        -- Enough for this notification, and then enough for the others.
        rw [hp] at hl
        obtain ⟨v₁, hv₁, hserving₁, -⟩ := notify_said (p := p.extend first) hv h _ _ hl
        obtain ⟨rest, hown', hl', hsteady'⟩ := ih hv₁ hserving₁ hl said
        cases hr : ((p.extend first).notify DocumentEvent.opened.method
            (DocumentEvent.opened.params (documentAt c.config (disk p.now) path text))).2 with
        | some e =>
          refine ⟨first, hown, ?_⟩
          rw [opening_covered (p := p.extend first) hc htext hcovers]
          simp only [now_extend, hr]
          refine ⟨hl, fun hahead hs => ?_⟩
          obtain ⟨v₂, hv₂, hs₂, huncut, -⟩ := hsteady hahead hs
          exact ⟨v₂, hv₂, hs₂, huncut⟩
        | none =>
          refine ⟨first ++ rest, ?_, ?_⟩
          · intro x hx
            exact (List.mem_append.mp hx).elim (hown x) (hown' x)
          · rw [extend_append, opening_covered (p := (p.extend first).extend rest) hc htext hcovers]
            simp only [now_extend, notify_extend hl, hr]
            refine ⟨hl', fun hahead hs => ?_⟩
            obtain ⟨v₂, hv₂, hs₂, huncut, hahead₂⟩ := hsteady hahead hs
            obtain rfl := Option.some.inj (hv₁.symm.trans hv₂)
            obtain ⟨v₃, hv₃, hs₃, huncut'⟩ := hsteady' hahead₂ hs₂
            exact ⟨v₃, hv₃, hs₃, huncut'.trans huncut⟩

/-- If every file can be read and the run is not interrupted, all files are dealt with. -/
theorem Ends.complete {w : Circumstances} {rest : List Bytes} {failure : Option Error}
    (h : Ends c disk w rest failure) (hcut : w.cutsShort = false)
    (hread : ∀ path ∈ rest, ∃ text, (disk w).content path = .ok text) : rest = [] ∧ failure = none := by
  cases h with
  | all => exact ⟨rfl, rfl⟩
  | unreadable h =>
    obtain ⟨text, htext⟩ := hread _ List.mem_cons_self
    rw [h] at htext
    cases htext
  | interrupted _ h =>
    rw [hcut] at h
    cases h

/-- **A run opens the files that have one of the configured extensions, and no others.**
Whatever octets the paths are, and whatever else happens while they are opened, the files
are dealt with in their order: the server is told that a document is open for each of those
with such an extension, and nothing else, and a line is logged for each of the others. That
goes on up to the first file that cannot be read, or to an interruption. And no call waits
for anything but its own steps. -/
theorem opens_what_is_covered {c : Client} (hc : c.config.validate = .ok ()) (k : Conditions)
    (disk : Circumstances → Disk) (paths : List Bytes) {p : Course} {v : Supervision}
    (hv : p.now.server = some v) (hserving : Serving v) (hp : p.lost = false) :
    (∀ path, c.config.covers path = true ↔ ∃ ext, Path.HasExtension path ext ∧
      ∃ e ∈ c.config.extensions, Text.lower e = Text.lower (textOf ext)) ∧
    -- What is followed here is opening files, with a record of what is said.
    (∀ names : List String, openDocuments (means k c) (relay c.selector) names p =
      let r := openFiles (means k c) (fun q => q.now.files.disk) (relay c.selector)
        (names.map utf8) p
      (r.1, r.2.1.map Opened.ofFile, r.2.2)) ∧
    (∀ r, opening k c disk paths p [] = r →
      (r.1.1, r.2) = openFiles (means k c) (fun q => disk q.now) (relay c.selector) paths p) ∧
    (∀ r, opening k c disk paths p [] = r → r.1.1.lost = false →
      ∃ v' handled rest, paths = handled ++ rest ∧ Dealt k c disk handled [] r ∧
        r.1.1.now.server = some v' ∧ (v'.steady = true →
          spoken v'.lines = spoken v.lines ++ r.2.1.map (fun o => toldLine (.opened, o.2)) ∧
          Ends c disk r.1.1.now rest r.2.2 ∧
          (r.1.1.now.cutsShort = false →
            (∀ path ∈ rest, ∃ text, (disk r.1.1.now).content path = .ok text) →
            rest = [] ∧ r.2.2 = none))) ∧
    ∃ more, (∀ x ∈ more, x.IsOwn) ∧ (opening k c disk paths (p.extend more) []).1.1.lost = false ∧
      (p.ahead = [] → v.steady = true → ∃ v',
        (opening k c disk paths (p.extend more) []).1.1.now.server = some v' ∧ v'.steady = true ∧
        (opening k c disk paths (p.extend more) []).1.1.now.cutsShort = p.now.cutsShort) := by
  refine ⟨fun path => Config.covers_iff, fun names => openDocuments_eq .., ?_, ?_,
    opening_returns hc hv hserving hp [] paths⟩
  · rintro r rfl
    exact openFiles_aloud (means k c) (fun q => disk q.now) (relay c.selector) paths (p, [])
  · rintro r rfl hl
    obtain ⟨v', handled, rest, hpaths, hdealt, hv', -, htells⟩ := opening_said hc hv hserving paths hl
    refine ⟨v', handled, rest, hpaths, hdealt, hv', fun hs => ?_⟩
    obtain ⟨-, hspoken, hends⟩ := htells hs
    exact ⟨hspoken, hends, hends.complete⟩

end Served

/-! Three files, of which the second has another extension and the last a name that is no
text. -/

def settledClient : Client := { localClient with config := { installRoot := "/opt" } }

/-- A disk on which every file can be read. -/
def plainDisk : Disk where
  workingDirectory := utf8 "/srv"
  rooted := by decide
  content path := .ok path

def threePaths : List Bytes := [utf8 "a.GBNF", utf8 "notes.gbnf/b", utf8 "/c" ++ [0xFF] ++ utf8 ".gbnf"]

def threeFiles : (Course × List Report) × List (Bytes × Document) × Option Error :=
  opening localConditions settledClient (fun _ => plainDisk) threePaths
    (servedCourse.extend (passing 2 ++ passing 3)) []

theorem threeFiles_played :
    (threeFiles.1.1.lost, threeFiles.1.1.now.cutsShort,
      threeFiles.1.1.now.server.any (·.steady)) = (false, false, true) := by decide +kernel

/-- Of three files one is of another kind; of the others one is written in capitals, and the name of one
is no text. -/
theorem threeFiles_selected : ∃ v v', servedCourse.now.server = some v ∧ Serving v ∧
    threeFiles.1.1.now.server = some v' ∧ v'.steady = true ∧ threeFiles.2.2 = none ∧
    threeFiles.2.1.map (·.1) = [utf8 "a.GBNF", utf8 "/c" ++ [0xFF] ++ utf8 ".gbnf"] ∧
    threeFiles.1.2 = [skipReport localConditions settledClient (utf8 "notes.gbnf/b")] ∧
    spoken v'.lines = spoken v.lines ++ threeFiles.2.1.map (fun o => toldLine (.opened, o.2)) := by
  have hplayed := threeFiles_played
  have hlost := servedCourse_played
  simp only [Prod.mk.injEq, Option.any_eq_true] at hplayed hlost
  obtain ⟨hl, huncut, v', hv', hsteady⟩ := hplayed
  obtain ⟨v, hv, -, hserving⟩ := serving_servedCourse
  have hc : settledClient.config.validate = .ok () := Config.eq_ok_of_toOption (by decide +kernel)
  obtain ⟨-, -, -, hsaid, -⟩ := opens_what_is_covered hc localConditions (fun _ => plainDisk) threePaths
    ((now_extend _ (passing 2 ++ passing 3)).symm ▸ hv) hserving
    ((lost_extend _ (passing 2 ++ passing 3)).trans hlost.1)
  obtain ⟨u, handled, rest, hpaths, hdealt, hu, htells⟩ := hsaid threeFiles rfl hl
  obtain rfl := Option.some.inj (hv'.symm.trans hu)
  obtain ⟨hspoken, -, hcomplete⟩ := htells hsteady
  obtain ⟨rfl, hnone⟩ := hcomplete huncut fun path _ => ⟨path, rfl⟩
  rw [List.append_nil] at hpaths
  subst hpaths
  have hcovered : threePaths.filter settledClient.config.covers =
      [utf8 "a.GBNF", utf8 "/c" ++ [0xFF] ++ utf8 ".gbnf"] := by decide +kernel
  have hothers : threePaths.filter (!settledClient.config.covers ·) = [utf8 "notes.gbnf/b"] := by
    decide +kernel
  have hopened := hdealt.opened
  have hlogged := hdealt.said
  rw [hcovered] at hopened
  rw [hothers] at hlogged
  exact ⟨v, v', hv, hserving, hv', hsteady, hnone, hopened, hlogged, hspoken⟩

end Run

end LanguageClient
