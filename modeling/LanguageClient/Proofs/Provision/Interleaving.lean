import LanguageClient.Proofs.Number.Decimal
import LanguageClient.Proofs.Provision.Callers
import LanguageClient.Proofs.Provision.Target

/-! # Downloads do not get in each other's way.

Whatever callers do in whatever order, and wherever processes end, the path of
the binary leads to what was there, or to a complete download (`Seen`). The
files are in one of four phases (`Phase`); a caller that holds the lock relies
on more than that (`Point.Fits`). A caller without the lock makes a directory or
the lock file at most (`Minor`), which disturbs nobody. -/

namespace LanguageClient.Provision

open FileSystem (Names IsLegal spelled Touches HoldsFile)

/-! ### Phases -/

/-- A response that may be installed. -/
def Answered (notes : List Note) (body : Bytes) (failure : Option Error) : Prop :=
  .answered (.response 200 body failure) ∈ notes

/-- The binary is missing and has not been moved into place. -/
structure Open (b : Binary) (files : FileSystem) (notes : List Note) : Prop where
  pending : Pending files b
  temporaryApart : ∀ number, files.Apart b.path false (temporaryPath b (suffixOf number))
  unmoved : ∀ i, .renamed i ∉ notes

/-- A complete download is in place. -/
structure Complete (b : Binary) (files : FileSystem) (notes : List Note) : Prop where
  wellFormed : files.WellFormed
  legal : IsLegal b.path
  found : ∃ l body, files.find true b.path = .ok (l, .file body executableMode) ∧
    Answered notes body none

/-- How the files have come to be what they are. -/
inductive Phase (fs : FileSystem) (b : Binary) (notes : List Note) : FileSystem → Prop where
  /-- There was something else than nothing, and it is as it was. -/
  | kept (found : fs.find true b.path ≠ .error .noEntry) : Phase fs b notes fs
  /-- There was a file, which can now be executed. -/
  | permitted {l : Location} {content : Bytes} {mode : Nat}
      (found : fs.find true b.path = .ok (l, .file content mode)) :
      Phase fs b notes (fs.put l (.file content (mode ||| executableMode)))
  | missing {files : FileSystem} (missing : fs.find true b.path = .error .noEntry)
      (still : Open b files notes) : Phase fs b notes files
  | complete {files : FileSystem} (missing : fs.find true b.path = .error .noEntry)
      (complete : Complete b files notes) : Phase fs b notes files

/-- What the path of a binary leads to: nothing if there was nothing, what was
there, that with more permissions, or the whole body of a response. -/
inductive Seen (fs : FileSystem) (b : Binary) (notes : List Note) (files : FileSystem) : Prop where
  | absent (before : (fs.stat b.path).toOption = none) (now : (files.stat b.path).toOption = none)
  | original (now : files.stat b.path = fs.stat b.path)
  | permitted {content : Bytes} {mode : Nat} (before : fs.stat b.path = .ok (.file content mode))
      (now : files.stat b.path = .ok (.file content (mode ||| executableMode)))
  | complete {body : Bytes} (now : files.stat b.path = .ok (.file body executableMode))
      (answered : .answered (.response 200 body none) ∈ notes)

/-! ### Points -/

/-- What a caller relies on between finding the binary missing under the lock and
moving it into place. -/
structure Ready (b : Binary) (files : FileSystem) (notes : List Note) : Prop where
  still : Open b files notes
  directory : files.HasDirectory (Path.dir b.path)
  noDirectory : files.NoDirectory b.path

/-- What a caller relies on at each point. -/
def Point.Fits (b : Binary) (files : FileSystem) (notes : List Note) : Point → Prop
  | .recheck _ => files.HasDirectory (Path.dir b.path)
  | .fetch _ => Ready b files notes
  | .create _ body failure => Ready b files notes ∧ Answered notes body failure
  | .write _ t rest failure => Ready b files notes ∧
      ∃ l content mode, files.HoldsFile t l content mode ∧ Answered notes (content ++ rest) failure
  | .close _ t | .permit _ t => Ready b files notes ∧
      ∃ l content mode, files.HoldsFile t l content mode ∧ Answered notes content none
  | .move _ t => Ready b files notes ∧
      ∃ l content, files.HoldsFile t l content executableMode ∧ Answered notes content none
  | .discard t _ => Ready b files notes ∧ ∃ l content mode, files.HoldsFile t l content mode
  | _ => True

/-- What a call relies on. Only calls that have found the binary missing work. -/
def Stage.Fits (fs : FileSystem) (b : Binary) (files : FileSystem) (notes : List Note) : Stage → Prop
  | .join => fs.find true b.path = .error .noEntry
  | .working point => fs.find true b.path = .error .noEntry ∧ point.Fits b files notes
  | _ => True

/-! ### Small changes -/

/-- What a caller without the lock does to the files. -/
inductive Minor (b : Binary) (files : FileSystem) : FileSystem → Prop where
  | same : Minor b files files
  | directory : Minor b files (files.makeDirectory (Path.dir b.path)).1
  | lock {files' : FileSystem} (opened : files.openOrCreate (lockPath b) 0o600 = .ok files') :
      Minor b files files'

section Minor

variable {fs files files' : FileSystem} {b : Binary} {notes : List Note}
variable {rooted : Bool} {es : List (List Char)} {n : List Char}

/-- Where the directory is there, at most a file is new. -/
theorem Minor.touches (h : Minor b files files') (hd : files.HasDirectory (Path.dir b.path)) :
    files' = files ∨ ∃ l, Touches files files' l ∧ files.entryAt? l = none := by
  cases h with
  | same => exact Or.inl rfl
  | directory =>
      rw [FileSystem.makeDirectory_of_directory hd]
      exact Or.inl rfl
  | lock opened =>
      rcases FileSystem.openOrCreate_eq_ok opened with h | ⟨l, _, hnone, _, htouch, _⟩
      · exact Or.inl h
      · exact Or.inr ⟨l, htouch, hnone⟩

/-- What is there stays there. -/
theorem Minor.find (h : Minor b files files') (hd : files.HasDirectory (Path.dir b.path))
    {follow : Bool} {path : String} {l : Location} {e : FileSystem.Entry}
    (hfind : files.find follow path = .ok (l, e)) : files'.find follow path = .ok (l, e) := by
  rcases h.touches hd with rfl | ⟨m, htouch, hnone⟩
  · exact hfind
  · have he := (FileSystem.find_eq_ok.mp hfind).2
    have hlm : l ≠ m := by
      rintro rfl
      rw [hnone] at he
      cases he
    refine FileSystem.find_of_sameTree hfind htouch.sameTree ?_
    rw [htouch.others l hlm, he]

theorem Minor.hasDirectory (h : Minor b files files') (hd : files.HasDirectory (Path.dir b.path)) :
    files'.HasDirectory (Path.dir b.path) := by
  obtain ⟨d, hfind⟩ := hd
  exact ⟨d, h.find ⟨d, hfind⟩ hfind⟩

theorem temporary_names (hs : Site b rooted es n) (number : Nat) :
    Names (spelled rooted es) (temporaryPath b (suffixOf number))
      (String.ofList (temporaryName n (suffixOf number))) := by
  refine hs.temporary fun hmem => ?_
  rw [suffixOf, String.toList_ofList] at hmem
  exact absurd (Number.isDigit_of_mem_natText hmem) (by decide)

theorem Open.minor (h : Open b files notes) (hs : Site b rooted es n) (hm : Minor b files files') :
    Open b files' notes := by
  cases hm with
  | same => exact h
  | directory =>
      refine ⟨h.pending.makeDirectory hs, fun number => ?_, h.unmoved⟩
      exact (hs.made h.pending).apart hs.stacked (hs.legal h.pending.legal) hs.target
        (temporary_names hs number) (temporaryName_ne n _) (h.temporaryApart number)
  | lock opened =>
      refine ⟨h.pending.openOrCreate opened, fun number => ?_, h.unmoved⟩
      rcases FileSystem.openOrCreate_eq_ok opened with rfl | ⟨l, _, _, _, htouch, _⟩
      · exact h.temporaryApart number
      · exact (h.temporaryApart number).of_sameTree htouch.sameTree

theorem Ready.minor (h : Ready b files notes) (hs : Site b rooted es n) (hm : Minor b files files') :
    Ready b files' notes := by
  refine ⟨h.still.minor hs hm, hm.hasDirectory h.directory, ?_⟩
  rcases hm.touches h.directory with rfl | ⟨l, htouch, _⟩
  · exact h.noDirectory
  · exact h.noDirectory.of_sameTree htouch.sameTree

theorem Complete.hasDirectory (h : Complete b files notes) (hs : Site b rooted es n) :
    files.HasDirectory (Path.dir b.path) := by
  obtain ⟨l, body, hfind, _⟩ := h.found
  obtain ⟨k, d, hr, _⟩ := hs.target.reaches (FileSystem.find_eq_ok.mp hfind).1
  exact hs.hasDirectory h.legal h.wellFormed hr

/-- What others do without the lock leaves a complete download alone. -/
theorem Complete.minor (h : Complete b files notes) (hs : Site b rooted es n)
    (hm : Minor b files files') : Complete b files' notes := by
  have hd := h.hasDirectory hs
  obtain ⟨l, body, hfind, hanswered⟩ := h.found
  refine ⟨?_, h.legal, l, body, hm.find hd hfind, hanswered⟩
  cases hm with
  | same => exact h.wellFormed
  | directory =>
      rw [FileSystem.makeDirectory_of_directory hd]
      exact h.wellFormed
  | lock opened =>
      rcases FileSystem.openOrCreate_eq_ok opened with rfl | ⟨l, _, _, hparent, htouch, _⟩
      · exact h.wellFormed
      · exact htouch.wellFormed h.wellFormed hparent

/-- **A small change disturbs nobody.** -/
theorem Point.Fits.minor {point : Point} (h : point.Fits b files notes) (hs : Site b rooted es n)
    (hm : Minor b files files') : point.Fits b files' notes := by
  cases point with
  | recheck v => exact hm.hasDirectory h
  | fetch v => exact Ready.minor h hs hm
  | create v body failure => exact ⟨h.1.minor hs hm, h.2⟩
  | write v t rest failure =>
      obtain ⟨hr, l, content, mode, hheld, hanswered⟩ := h
      exact ⟨hr.minor hs hm, l, content, mode, hm.find hr.directory hheld, hanswered⟩
  | close v t | permit v t =>
      obtain ⟨hr, l, content, mode, hheld, hanswered⟩ := h
      exact ⟨hr.minor hs hm, l, content, mode, hm.find hr.directory hheld, hanswered⟩
  | move v t =>
      obtain ⟨hr, l, content, hheld, hanswered⟩ := h
      exact ⟨hr.minor hs hm, l, content, hm.find hr.directory hheld, hanswered⟩
  | discard t e =>
      obtain ⟨hr, l, content, mode, hheld⟩ := h
      exact ⟨hr.minor hs hm, l, content, mode, hm.find hr.directory hheld⟩
  | _ => trivial

end Minor

/-! ### The lock -/

/-- What a step does about the lock, which is held before and after it or not. -/
inductive Relocks (b : Binary) : Bool → Bool → List String → List String → Prop where
  | stays {held : Bool} {locked : List String} : Relocks b held held locked locked
  | takes {locked : List String} (free : lockPath b ∉ locked) :
      Relocks b false true locked (lockPath b :: locked)
  | gives {locked : List String} : Relocks b true false locked (locked.erase (lockPath b))

/-- A step takes the lock and gives it back as its points say. -/
theorem step_relocks (p : Provisioner) (b : Binary) (s : Surroundings) (w : Shared) (point : Point) :
    Relocks b point.holds (step p b s w point).2.1.holds w.locked (step p b s w point).1.locked := by
  cases point with
  | lock v =>
      -- by its definition as a whole, since an equation for each point takes long to derive
      simp only [step.eq_def]
      split
      · exact .stays
      · split
        · exact .stays
        · split
          · exact .stays
          · next hfree => exact .takes (by simpa using hfree)
  | unlock result => exact .gives
  | fetch v =>
      simp only [step.eq_def, fetch]
      split
      · exact .stays
      · split
        · exact .stays
        · split <;> exact .stays
  | write v t body failure => cases failure <;> exact .stays
  | close v t =>
      simp only [step.eq_def]
      split
      · exact .stays
      · split <;> exact .stays
  | version | directory v | recheck v | create v body failure | permit v t | move v t =>
      simp only [step.eq_def]
      split <;> exact .stays
  | announce v => exact .stays
  | discard t e => exact .stays
  | finished result => exact .stays

/-! ### Steps -/

section Steps

variable {p : Provisioner} {b : Binary} {s : Surroundings} {w : Shared} {notes : List Note}
variable {files files' : FileSystem} {rooted : Bool} {es : List (List Char)} {n : List Char}
variable {l : Location} {outcome : Outcome}

/-- The binary is missing, or a complete download is in place. -/
def Sound (b : Binary) (files : FileSystem) (notes : List Note) : Prop :=
  Open b files notes ∨ Complete b files notes

theorem Sound.hasDirectory (h : Sound b files notes) (hs : Site b rooted es n)
    (hopen : files.openOrCreate (lockPath b) 0o600 = .ok files') :
    files.HasDirectory (Path.dir b.path) := by
  obtain ⟨l, hl⟩ := FileSystem.locate_of_openOrCreate hopen
  obtain ⟨k, d, hr, _⟩ := hs.lock.reaches hl
  rcases h with h | h
  · exact hs.hasDirectory h.pending.legal h.pending.wellFormed hr
  · exact hs.hasDirectory h.legal h.wellFormed hr

/-- A step without the lock is a small change, and nothing is noted of it. -/
theorem step_minor (h : Sound b w.files notes) (hs : Site b rooted es n) {point : Point}
    (hpoint : point.holds = false) (i : Nat) (outcome : Outcome) :
    Minor b w.files (step p b s w point).1.files ∧
      (step p b s w point).2.1.Fits b (step p b s w point).1.files notes ∧
      noted i outcome point (step p b s w point) = [] := by
  cases point with
  | version => simp only [step.eq_def]; split <;> exact ⟨.same, trivial, rfl⟩
  | directory v =>
      have hminor : Minor b w.files (w.files.makeDirectory (Path.dir b.path)).1 := .directory
      simp only [step.eq_def]
      split
      · next files he =>
          rw [he] at hminor
          exact ⟨hminor, trivial, rfl⟩
      · next files e he =>
          rw [he] at hminor
          exact ⟨hminor, trivial, rfl⟩
  | lock v =>
      simp only [step.eq_def]
      split
      · exact ⟨.same, trivial, rfl⟩
      · split
        · exact ⟨.same, trivial, rfl⟩
        · next opened hopen =>
            have hminor : Minor b w.files opened := .lock hopen
            split
            · exact ⟨hminor, trivial, rfl⟩
            · exact ⟨hminor, hminor.hasDirectory (h.hasDirectory hs hopen), rfl⟩
  | finished result => exact ⟨.same, trivial, rfl⟩
  | _ => cases hpoint

/-- A step with the lock leads to this. -/
def Leads (b : Binary) (notes : List Note) (r : Shared × Point × List Effect) : Prop :=
  Sound b r.1.files notes ∧ r.2.1.Fits b r.1.files notes

theorem Ready.touch (h : Ready b files notes) (ht : Touches files files' l)
    (hparent : files.entryAt? (FileSystem.parent l) = some .directory)
    (hother : files.entryAt? l = none → files.locate true b.path ≠ .ok l) : Ready b files' notes where
  still :=
    { pending := h.still.pending.touch ht hparent hother
      temporaryApart := fun number => (h.still.temporaryApart number).of_sameTree ht.sameTree
      unmoved := h.still.unmoved }
  directory := by
    obtain ⟨d, hfind⟩ := h.directory
    have hd := (FileSystem.find_eq_ok.mp hfind).2
    have hne : d ≠ l := by
      rintro rfl
      cases ht.before _ hd
    refine ⟨d, FileSystem.find_of_sameTree hfind ht.sameTree ?_⟩
    rw [ht.others d hne, hd]
  noDirectory := h.noDirectory.of_sameTree ht.sameTree

/-- A file that is there may change. -/
theorem Ready.change (h : Ready b files notes) {t : String} {content : Bytes} {mode : Nat}
    (hheld : files.HoldsFile t l content mode) (ht : Touches files files' l) : Ready b files' notes := by
  have he := hheld.entry
  refine h.touch ht ?_ (by rw [he]; simp)
  exact h.still.pending.wellFormed.parents l (FileSystem.ne_nil_of_vacant ht.before) (by rw [he]; simp)

/-- The second look, with the lock held, leads on. -/
theorem recheck_leads {v : ReleaseVersion} (hs : Site b rooted es n) (h : Sound b w.files notes)
    (hd : w.files.HasDirectory (Path.dir b.path)) : Leads b notes (step p b s w (.recheck v)) := by
  simp only [step.eq_def]
  rcases h with h | h
  · rcases h.pending.present_cases s.refusals with ⟨hmissing, hpresent⟩ | ⟨e, hpresent⟩
    · rw [hpresent]
      exact ⟨Or.inl h, h, hd, hs.target.noDirectory h.pending.wellFormed hmissing⟩
    · rw [hpresent]
      exact ⟨Or.inl h, trivial⟩
  · have hpresent : present s.refusals w.files b = .ok (true, w.files) := by
      obtain ⟨l, body, hfind, _⟩ := h.found
      exact present_of_ready hfind (by decide) _
    rw [hpresent]
    exact ⟨Or.inr h, trivial⟩

/-- The request leads to a response that may be installed, or to an error. -/
theorem fetch_leads {v : ReleaseVersion} {i : Nat} {cancelled : Bool} {suffix : String}
    {refusals : Refusals}
    (h : Ready b w.files notes) :
    Leads b (notes ++ noted i outcome (.fetch v) (step p b ⟨cancelled, { outcome }, suffix, refusals⟩ w (.fetch v)))
      (step p b ⟨cancelled, { outcome }, suffix, refusals⟩ w (.fetch v)) := by
  have hready : ∀ more, (∀ j, .renamed j ∉ more) → Ready b w.files (notes ++ more) := by
    intro more hmore
    refine ⟨⟨h.still.pending, h.still.temporaryApart, fun j hj => ?_⟩, h.directory, h.noDirectory⟩
    exact (List.mem_append.mp hj).elim (h.still.unmoved j) (hmore j)
  obtain ⟨hw, hcases⟩ := fetch_cases p b v cancelled outcome suffix refusals w
  have hnext := hready (noted i outcome (.fetch v) (fetch p b v ⟨cancelled, { outcome }, suffix, refusals⟩ w))
    (by simp [noted])
  simp only [step.eq_def, Leads, hw]
  rcases hcases with ⟨e, hpoint⟩ | ⟨body, failure, rfl, hpoint, hrequests⟩
  · rw [hpoint]
    exact ⟨Or.inl hnext.still, trivial⟩
  · obtain ⟨r, rs, hr⟩ := List.exists_cons_of_ne_nil hrequests
    rw [hpoint]
    refine ⟨Or.inl hnext.still, hnext, ?_⟩
    simp [Answered, noted, hr]

/-- A temporary file is made, and nothing else is touched. -/
theorem create_leads {v : ReleaseVersion} {body : Bytes} {failure : Option Error} {number : Nat}
    (hs : Site b rooted es n) (hnumber : s.suffix = suffixOf number)
    (h : Point.Fits b w.files notes (.create v body failure)) :
    Leads b notes (step p b s w (.create v body failure)) := by
  obtain ⟨hready, hanswered⟩ := h
  simp only [step.eq_def, hnumber]
  split
  · next files hcreate =>
      have hn := temporary_names hs number
      obtain ⟨l, hl, hnone, rfl⟩ := FileSystem.createNew_eq_ok hcreate
      have htouch : Touches w.files (w.files.put l (.file [] 0o600)) l :=
        FileSystem.touches_put (FileSystem.vacant_of_none hnone)
      have hnext := hready.touch htouch (hn.parent_directory hready.still.pending.wellFormed hl)
        fun _ hpath => hready.still.temporaryApart number w.files (.refl _) l hpath hl
      exact ⟨Or.inl hnext.still, hnext, l, [], 0o600, hn.holdsFile_of_put hl hnone [] 0o600, hanswered⟩
  · exact ⟨Or.inl hready.still, trivial⟩

/-- A temporary file is written to. -/
theorem Ready.append (h : Ready b files notes) {t : String} {content : Bytes} {mode : Nat}
    (hheld : files.HoldsFile t l content mode) (more : Bytes) :
    Ready b (files.append t more) notes ∧ (files.append t more).HoldsFile t l (content ++ more) mode := by
  rw [hheld.append_eq]
  exact ⟨h.change hheld (FileSystem.touches_put (FileSystem.vacant_of_file hheld.entry)), hheld.put _ _⟩

/-- What arrives is written to the temporary file. -/
theorem write_leads {v : ReleaseVersion} {t : String} {rest : Bytes} {failure : Option Error}
    (h : Point.Fits b w.files notes (.write v t rest failure)) :
    Leads b notes (step p b s w (.write v t rest failure)) := by
  obtain ⟨hready, l, content, mode, hheld, hanswered⟩ := h
  obtain ⟨hnext, hmore⟩ := hready.append hheld rest
  cases failure with
  | some e => exact ⟨Or.inl hnext.still, hnext, l, _, mode, hmore⟩
  | none => exact ⟨Or.inl hnext.still, hnext, l, _, mode, hmore, hanswered⟩

/-- What could not be closed is removed. -/
theorem close_leads {v : ReleaseVersion} {t : String} (hw : b.platform.isWindows = false)
    (h : Point.Fits b w.files notes (.close v t)) : Leads b notes (step p b s w (.close v t)) := by
  obtain ⟨hready, l, content, mode, hheld, hanswered⟩ := h
  simp only [step.eq_def, hw]
  cases s.refusals.close with
  | some r => exact ⟨Or.inl hready.still, hready, l, content, mode, hheld⟩
  | none => exact ⟨Or.inl hready.still, hready, l, content, mode, hheld, hanswered⟩

/-- The temporary file gets its permissions, or is given up. -/
theorem permit_leads {v : ReleaseVersion} {t : String}
    (h : Point.Fits b w.files notes (.permit v t)) : Leads b notes (step p b s w (.permit v t)) := by
  obtain ⟨hready, l, content, mode, hheld, hanswered⟩ := h
  have htouch : Touches w.files (w.files.put l (.file content executableMode)) l :=
    FileSystem.touches_put (FileSystem.vacant_of_file hheld.entry)
  have hnext := hready.change hheld htouch
  simp only [step.eq_def]
  cases s.refusals.chmod with
  | some r =>
      obtain ⟨r', hrefused⟩ := FileSystem.changeMode_refused t executableMode r w.files
      rw [hrefused]
      exact ⟨Or.inl hready.still, hready, l, content, mode, hheld⟩
  | none =>
      rw [hheld.changeMode_eq]
      exact ⟨Or.inl hnext.still, hnext, l, content, hheld.put _ _, hanswered⟩

/-- A temporary file that is given up is removed. -/
theorem discard_leads {t : String} {e : Error} (h : Point.Fits b w.files notes (.discard t e)) :
    Leads b notes (step p b s w (.discard t e)) := by
  obtain ⟨hready, l, content, mode, hheld⟩ := h
  have htouch := FileSystem.touches_erase hready.still.pending.wellFormed
    (FileSystem.vacant_of_file hheld.entry)
  have hnext := hready.change hheld htouch
  rw [← hheld.remove_eq] at hnext
  exact ⟨Or.inl hnext.still, trivial⟩

/-- The temporary file takes the place of the binary. -/
theorem move_leads {v : ReleaseVersion} {t : String} {i : Nat} (hs : Site b rooted es n)
    (h : Point.Fits b w.files notes (.move v t)) :
    Leads b (notes ++ noted i outcome (.move v t) (step p b s w (.move v t)))
      (step p b s w (.move v t)) := by
  obtain ⟨hready, l, content, hheld, hanswered⟩ := h
  have hwf := hready.still.pending.wellFormed
  have hvacant := FileSystem.vacant_of_file hheld.entry
  simp only [step.eq_def]
  split
  · next moved hmoved =>
      obtain ⟨source, e, target, hsource, htarget, hdir, rfl⟩ := FileSystem.rename_eq_ok hmoved
      cases hheld.symm.trans hsource
      -- The root is a directory, and a directory is not replaced.
      have hne : target ≠ [] := by
        rintro rfl
        exact hdir rfl
      have hparent := hs.target.parent_directory hwf htarget
      have hwf' := FileSystem.wellFormed_moved hwf hvacant hne hparent hdir
      refine ⟨Or.inr ⟨hwf' _, hready.still.pending.legal, target, content, ?_, ?_⟩, trivial⟩
      · exact hs.target.find_moved hwf hvacant htarget hdir hready.noDirectory
      · exact List.mem_append_left _ hanswered
  · simp only [noted, List.append_nil]
    exact ⟨Or.inl hready.still, hready, l, content, _, hheld⟩

/-- **A step with the lock leads on.** -/
theorem step_leads {point : Point} {i number : Nat} {cancelled : Bool} {refusals : Refusals}
    (hs : Site b rooted es n)
    (hw : b.platform.isWindows = false) (h : Sound b w.files notes)
    (hfits : point.Fits b w.files notes) (hpoint : point.holds = true) :
    Leads b
      (notes ++ noted i outcome point
        (step p b ⟨cancelled, { outcome }, suffixOf number, refusals⟩ w point))
      (step p b ⟨cancelled, { outcome }, suffixOf number, refusals⟩ w point) := by
  have hquiet : ∀ r, (∀ v, point ≠ .fetch v) → (∀ v t, point ≠ .move v t) →
      notes ++ noted i outcome point r = notes := by
    intro r hfetch hmove
    cases point <;> simp_all [noted]
  cases point with
  | recheck v => rw [hquiet _ (by simp) (by simp)]; exact recheck_leads hs h hfits
  | fetch v => exact fetch_leads hfits
  | create v body failure =>
      rw [hquiet _ (by simp) (by simp)]
      exact create_leads hs rfl hfits
  | write v t rest failure => rw [hquiet _ (by simp) (by simp)]; exact write_leads hfits
  | close v t => rw [hquiet _ (by simp) (by simp)]; exact close_leads hw hfits
  | permit v t => rw [hquiet _ (by simp) (by simp)]; exact permit_leads hfits
  | move v t => exact move_leads hs hfits
  | discard t e => rw [hquiet _ (by simp) (by simp)]; exact discard_leads hfits
  | announce v => rw [hquiet _ (by simp) (by simp)]; exact ⟨h, trivial⟩
  | unlock result => rw [hquiet _ (by simp) (by simp)]; exact ⟨h, trivial⟩
  | _ => cases hpoint

end Steps

/-! ### Everybody -/

/-- At most one caller holds the lock. -/
def HeldBy (b : Binary) (w : World) (holder : Option Nat) : Prop :=
  w.shared.locked = holder.toList.map (fun _ => lockPath b) ∧
    ∀ i, holder = some i ↔ ∃ c : Caller, w.callers[i]? = some c ∧ c.stage.holds = true

/-- What is true whatever has happened. -/
structure Invariant (fs : FileSystem) (b : Binary) (w : World) (notes : List Note) : Prop where
  phase : Phase fs b notes w.shared.files
  fits : ∀ (i : Nat) (c : Caller), w.callers[i]? = some c → c.stage.Fits fs b w.shared.files notes
  lock : ∃ holder, HeldBy b w holder

section Everybody

variable {fs files files' : FileSystem} {b : Binary} {w : World} {notes notes' : List Note}
variable {rooted : Bool} {es : List (List Char)} {n : List Char}
variable {i : Nat} {c : Caller} {stage : Stage} {shared : Shared}

theorem Phase.sound (h : Phase fs b notes files) (hmissing : fs.find true b.path = .error .noEntry) :
    Sound b files notes := by
  cases h with
  | kept found => exact absurd hmissing found
  | permitted found =>
      rw [found] at hmissing
      cases hmissing
  | missing _ still => exact Or.inl still
  | complete _ complete => exact Or.inr complete

theorem Sound.phase (h : Sound b files notes) (hmissing : fs.find true b.path = .error .noEntry) :
    Phase fs b notes files :=
  h.elim (.missing hmissing) (.complete hmissing)

theorem Sound.minor (h : Sound b files notes) (hs : Site b rooted es n) (hm : Minor b files files') :
    Sound b files' notes :=
  h.imp (fun h => h.minor hs hm) fun h => h.minor hs hm

/-- Looking for the binary changes nothing where it was missing. -/
theorem Phase.present {there : Bool} {refusals : Refusals} (h : Phase fs b notes files)
    (hp : present refusals files b = .ok (there, files')) :
    Phase fs b notes files' ∧ (there = false → fs.find true b.path = .error .noEntry) ∧
      (fs.find true b.path = .error .noEntry → files' = files) := by
  cases h with
  | kept found =>
      -- The check either leaves the files alone or adds the execute bits.
      have hpresence := presence refusals fs b
      rw [hp] at hpresence
      cases hpresence with
      | missing missing => exact absurd missing found
      | ready _ _ => exact ⟨.kept found, by simp, fun _ => rfl⟩
      | repaired file => exact ⟨.permitted file, by simp, fun h => absurd h found⟩
  -- The execute bits have been added already, and are not added twice.
  | @permitted l content mode found =>
      have hfind := FileSystem.find_put found content (mode ||| executableMode)
      cases (present_of_ready hfind (executeBits_or mode) refusals).symm.trans hp
      exact ⟨.permitted found, by simp, fun _ => rfl⟩
  | missing missing still =>
      rcases still.pending.present_cases refusals with ⟨_, hp'⟩ | ⟨e, hp'⟩
      · cases hp'.symm.trans hp
        exact ⟨.missing missing still, fun _ => missing, fun _ => rfl⟩
      · cases hp'.symm.trans hp
  | complete missing complete =>
      obtain ⟨l, body, hfind, _⟩ := complete.found
      cases (present_of_ready hfind (by decide) refusals).symm.trans hp
      exact ⟨.complete missing complete, by simp, fun _ => rfl⟩

theorem Stage.Fits.minor (h : stage.Fits fs b files notes) (hs : Site b rooted es n)
    (hm : Minor b files files') : stage.Fits fs b files' notes := by
  cases stage with
  | working point => exact ⟨h.1, h.2.minor hs hm⟩
  | join => exact h
  | _ => trivial

/-- A call without the lock relies on nothing that could change. -/
theorem Stage.Fits.of_not_holds (h : stage.Fits fs b files notes) (hn : stage.holds = false) :
    stage.Fits fs b files' notes' := by
  cases stage with
  | working point =>
      refine ⟨h.1, ?_⟩
      cases point <;> trivial
  | join => exact h
  | _ => trivial

/-- Where there was something, nobody relies on anything. -/
theorem Stage.Fits.of_found (h : stage.Fits fs b files notes)
    (hfound : fs.find true b.path ≠ .error .noEntry) : stage.Fits fs b files' notes' := by
  cases stage with
  | working point => exact absurd h.1 hfound
  | join => exact absurd h hfound
  | _ => trivial

/-- Two callers that hold the lock are one. -/
theorem HeldBy.unique {holder : Option Nat} {j : Nat} {d : Caller} (h : HeldBy b w holder)
    (hi : w.callers[i]? = some c) (hc : c.stage.holds = true) (hj : w.callers[j]? = some d)
    (hd : d.stage.holds = true) : i = j := by
  have hholder := (h.2 i).mpr ⟨c, hi, hc⟩
  rw [(h.2 j).mpr ⟨d, hj, hd⟩] at hholder
  exact (Option.some.inj hholder).symm

/-- One caller gets to another stage and does this about the lock. -/
theorem HeldBy.become {holder : Option Nat} (h : HeldBy b w holder) (hi : w.callers[i]? = some c)
    (hr : Relocks b c.stage.holds stage.holds w.shared.locked shared.locked) :
    ∃ holder', HeldBy b ({ w with shared }.become i stage) holder' := by
  have hself : ({ w with shared }.become i stage).callers[i]? = some { c with stage } := by
    rw [World.callers_become]
    simp [hi]
  have hother : ∀ j, j ≠ i → ({ w with shared }.become i stage).callers[j]? = w.callers[j]? := by
    intro j hj
    rw [World.callers_become]
    simp [Ne.symm hj]
  obtain ⟨hlocked, hholder⟩ := h
  have hothers : ∀ j, j ≠ i → (holder = some j ↔
      ∃ d : Caller, ({ w with shared }.become i stage).callers[j]? = some d ∧ d.stage.holds = true) := by
    intro j hj
    rw [hother j hj]
    exact hholder j
  -- The cases of the relation fix all four of these, so they have to be variables.
  generalize hbefore : c.stage.holds = before at hr
  generalize hafter : stage.holds = after at hr
  generalize hl : w.shared.locked = locked at hr hlocked
  generalize hl' : shared.locked = locked' at hr
  cases hr with
  | stays =>
      refine ⟨holder, hl'.trans hlocked, fun j => ?_⟩
      by_cases hj : j = i
      · rw [hj, hself, hholder i, hi]
        simp [hbefore, hafter]
      · exact hothers j hj
  | takes free =>
      have hnone : holder = none := by
        cases holder with
        | none => rfl
        | some k => simp [hlocked] at free
      subst hnone
      refine ⟨some i, ?_, fun j => ?_⟩
      · rw [hlocked] at hl'
        exact hl'
      · by_cases hj : j = i
        · rw [hj, hself]
          simp [hafter]
        · rw [← hothers j hj]
          simp [Ne.symm hj]
  | gives =>
      have hsome : holder = some i := (hholder i).mpr ⟨c, hi, hbefore⟩
      subst hsome
      refine ⟨none, ?_, fun j => ?_⟩
      · have hempty : shared.locked = [] := by simpa [hlocked] using hl'
        exact hempty
      · by_cases hj : j = i
        · rw [hj, hself]
          simp [hafter]
        · rw [← hothers j hj]
          simp [Ne.symm hj]

/-- One caller gets to another stage and does this to the files. -/
theorem Invariant.become (h : Invariant fs b w notes) (hi : w.callers[i]? = some c)
    (hphase : Phase fs b notes' shared.files) (hfits : stage.Fits fs b shared.files notes')
    (hothers : ∀ (j : Nat) (d : Caller), j ≠ i → w.callers[j]? = some d →
      d.stage.Fits fs b shared.files notes')
    (hr : Relocks b c.stage.holds stage.holds w.shared.locked shared.locked) :
    Invariant fs b ({ w with shared }.become i stage) notes' := by
  obtain ⟨holder, hholder⟩ := h.lock
  refine ⟨hphase, fun j d hj => ?_, hholder.become hi hr⟩
  rw [World.callers_become] at hj
  by_cases hij : i = j
  · subst hij
    simp only [hi, if_true, Option.map_some, Option.some.injEq] at hj
    subst hj
    exact hfits
  · simp only [if_neg hij, Option.map_id'] at hj
    exact hothers j d (Ne.symm hij) hj

/-- A caller gets to another stage without doing anything. -/
theorem Invariant.become_alone (h : Invariant fs b w notes) (hi : w.callers[i]? = some c)
    (hfits : stage.Fits fs b w.shared.files notes) (hr : stage.holds = c.stage.holds) :
    Invariant fs b (w.become i stage) notes := by
  have hstays : Relocks b c.stage.holds stage.holds w.shared.locked w.shared.locked := by
    rw [hr]
    exact .stays
  exact h.become hi h.phase hfits (fun j d _ hj => h.fits j d hj) hstays

/-- A new call keeps the invariant. -/
theorem Invariant.call (h : Invariant fs b w notes) (hstage : c.stage = .check) :
    Invariant fs b { w with callers := w.callers ++ [c] } notes := by
  -- The callers are those of before, and the new one behind them.
  have hcases : ∀ (j : Nat) (d : Caller), (w.callers ++ [c])[j]? = some d →
      w.callers[j]? = some d ∨ d = c := by
    intro j d hj
    rw [List.getElem?_append] at hj
    split at hj
    · exact Or.inl hj
    · exact Or.inr (by simpa using List.mem_of_getElem? hj)
  obtain ⟨holder, hlocked, hholder⟩ := h.lock
  refine ⟨h.phase, fun j d hj => ?_, holder, hlocked, fun j => (hholder j).trans ?_⟩
  · rcases hcases j d hj with hj | rfl
    · exact h.fits j d hj
    · rw [hstage]
      trivial
  · constructor
    · rintro ⟨d, hj, hd⟩
      exact ⟨d, List.getElem?_append_left (List.getElem?_eq_some_iff.mp hj).1 ▸ hj, hd⟩
    · rintro ⟨d, hj, hd⟩
      rcases hcases j d hj with hj | rfl
      · exact ⟨d, hj, hd⟩
      · rw [hstage] at hd
        cases hd

theorem Invariant.check {there : Bool} {refusals : Refusals} (h : Invariant fs b w notes)
    (hi : w.callers[i]? = some c) (hstage : c.stage = .check)
    (hp : Provision.present refusals w.shared.files b = .ok (there, files)) :
    Invariant fs b ((w.withFiles files).become i (if there then .returned none else .join)) notes := by
  obtain ⟨hphase, hthere, hsame⟩ := h.phase.present hp
  refine h.become hi hphase ?_ ?_ ?_
  · cases there with
    | true => trivial
    | false => exact hthere rfl
  · intro j d _ hj
    by_cases hmissing : fs.find true b.path = .error .noEntry
    · rw [hsame hmissing]
      exact h.fits j d hj
    · exact (h.fits j d hj).of_found hmissing
  · rw [hstage]
    cases there <;> exact .stays

/-- Nobody else holds the lock, so nobody else relies on anything. -/
theorem Invariant.others (h : Invariant fs b w notes) (hi : w.callers[i]? = some c)
    (hc : c.stage.holds = true) (j : Nat) (d : Caller) (hj : j ≠ i) (hd : w.callers[j]? = some d) :
    d.stage.Fits fs b files' notes' := by
  obtain ⟨holder, hholder⟩ := h.lock
  refine (h.fits j d hd).of_not_holds ?_
  rw [Bool.eq_false_iff]
  exact fun hdholds => hj (hholder.unique hd hdholds hi hc)

/-- **A caller that works makes a step.** -/
theorem Invariant.advance {point : Point} {cancelled : Bool} {outcome : Outcome} {number : Nat}
    {refusals : Refusals} {r : Shared × Point × List Effect} (h : Invariant fs b w notes)
    (hsite : fs.find true b.path = .error .noEntry → ∃ rooted es n, Site b rooted es n)
    (hw : b.platform.isWindows = false) (hi : w.callers[i]? = some c)
    (hstage : c.stage = .working point)
    (hstep : step c.provisioner b ⟨cancelled, { outcome }, suffixOf number, refusals⟩ w.shared point = r) :
    Invariant fs b ({ w with shared := r.1 }.become i (.working r.2.1))
      (notes ++ noted i outcome point r) := by
  have hfits := h.fits i c hi
  rw [hstage] at hfits
  obtain ⟨hmissing, hpoint⟩ := hfits
  obtain ⟨rooted, es, n, hs⟩ := hsite hmissing
  have hsound := h.phase.sound hmissing
  have hsame : c.stage.holds = point.holds := by
    rw [hstage]
    rfl
  have hr : Relocks b c.stage.holds r.2.1.holds w.shared.locked r.1.locked := by
    rw [hsame, ← hstep]
    exact step_relocks _ _ _ _ _
  -- Without the lock a step changes nothing that others rely on. With it the others
  -- rely on nothing that a step may change.
  cases hholds : point.holds with
  | false =>
      obtain ⟨hminor, hnext, hnoted⟩ := step_minor hsound hs hholds i outcome
      rw [hstep] at hminor hnext hnoted
      rw [hnoted, List.append_nil]
      exact h.become hi ((hsound.minor hs hminor).phase hmissing) ⟨hmissing, hnext⟩
        (fun j d _ hj => (h.fits j d hj).minor hs hminor) hr
  | true =>
      have hleads : Leads b (notes ++ noted i outcome point r) r := by
        rw [← hstep]
        exact step_leads hs hw hsound hpoint hholds
      exact h.become hi (hleads.1.phase hmissing) ⟨hmissing, hleads.2⟩
        (h.others hi (hsame.trans hholds)) hr

/-- Writing a part of the body keeps it. -/
theorem Invariant.writeSome {v : ReleaseVersion} {t : String} {body : Bytes} {failure : Option Error}
    (h : Invariant fs b w notes) (hi : w.callers[i]? = some c)
    (hstage : c.stage = .working (.write v t body failure)) (count : Nat) :
    Invariant fs b ((w.withFiles (w.shared.files.append t (body.take count))).become i
      (.working (.write v t (body.drop count) failure))) notes := by
  have hfits := h.fits i c hi
  rw [hstage] at hfits
  obtain ⟨hmissing, hready, l, content, mode, hheld, hanswered⟩ := hfits
  obtain ⟨hnext, hmore⟩ := hready.append hheld (body.take count)
  have hrest : Answered notes (content ++ body.take count ++ body.drop count) failure := by
    rwa [List.append_assoc, List.take_append_drop]
  refine h.become hi (.missing hmissing hnext.still)
    ⟨hmissing, hnext, l, content ++ body.take count, mode, hmore, hrest⟩ (h.others hi ?_) ?_
  · rw [hstage]
    rfl
  · rw [hstage]
    exact .stays

/-- Who is left when a process has ended. -/
theorem callers_die {process : Nat} {d : Caller} (hd : (w.die b process).callers[i]? = some d) :
    d.stage = .dead ∨ w.callers[i]? = some d ∧ d.process ≠ process := by
  rw [World.die, List.getElem?_map] at hd
  obtain ⟨c, hc, hd⟩ := Option.map_eq_some_iff.mp hd
  split at hd
  · exact Or.inl (hd ▸ rfl)
  · next hprocess => exact Or.inr (hd ▸ ⟨hc, hprocess⟩)

/-- A process that ends keeps it, wherever its callers stand. -/
theorem Invariant.die (h : Invariant fs b w notes) (process : Nat) :
    Invariant fs b (w.die b process) notes := by
  refine ⟨h.phase, fun j d hd => ?_, ?_⟩
  · rcases callers_die hd with hdead | ⟨hd, _⟩
    · rw [hdead]
      trivial
    · exact h.fits j d hd
  · obtain ⟨holder, hlocked, hholder⟩ := h.lock
    have hafter : ∀ (j : Nat) (d : Caller), (w.die b process).callers[j]? = some d →
        d.stage.holds = true → w.callers[j]? = some d ∧ d.process ≠ process := by
      intro j d hd hdholds
      refine (callers_die hd).resolve_left fun hdead => ?_
      rw [hdead] at hdholds
      cases hdholds
    by_cases hany : w.callers.any (fun c => c.process == process && c.stage.holds) = true
    · -- The process held the lock.
      obtain ⟨c, hc, hcholds⟩ := List.any_eq_true.mp hany
      rw [Bool.and_eq_true, beq_iff_eq] at hcholds
      obtain ⟨i, hi⟩ := List.getElem?_of_mem hc
      have hsome := (hholder i).mpr ⟨c, hi, hcholds.2⟩
      refine ⟨none, ?_, fun j => ⟨by simp, ?_⟩⟩
      · simp [World.die, hany, hlocked, hsome]
      · rintro ⟨d, hd, hdholds⟩
        obtain ⟨hd, hprocess⟩ := hafter j d hd hdholds
        have hji := (hholder j).mpr ⟨d, hd, hdholds⟩
        rw [hsome, Option.some.injEq] at hji
        subst hji
        cases hi.symm.trans hd
        exact absurd hcholds.1 hprocess
    · refine ⟨holder, ?_, fun j => ⟨fun hj => ?_, ?_⟩⟩
      · simp [World.die, hany, hlocked]
      · obtain ⟨c, hc, hcholds⟩ := (hholder j).mp hj
        have hprocess : c.process ≠ process := by
          intro he
          exact hany (List.any_eq_true.mpr ⟨c, List.mem_of_getElem? hc, by simp [he, hcholds]⟩)
        exact ⟨c, by simp [World.die, hc, hprocess], hcholds⟩
      · rintro ⟨d, hd, hdholds⟩
        exact (hholder j).mpr ⟨d, (hafter j d hd hdholds).1, hdholds⟩

theorem holds_of_result? {result : Option Error} (h : stage.result? = some result) :
    stage.holds = false := by
  cases stage with
  | working point =>
      cases point with
      | finished result => rfl
      | _ => cases h
  | _ => rfl

theorem fetched_noted {outcome : Outcome} {point : Point} {r : Shared × Point × List Effect} {k : Nat}
    (h : .fetched k ∈ noted i outcome point r) : ∃ v, point = .fetch v := by
  unfold noted at h
  split at h
  · exact ⟨_, rfl⟩
  · simp at h
  · cases h

/-- **A move keeps what is true**, and there is no request once a file has been
moved into place. -/
theorem Invariant.step (h : Invariant fs b w notes)
    (hsite : fs.find true b.path = .error .noEntry → ∃ rooted es n, Site b rooted es n)
    (hw : b.platform.isWindows = false) {m : Move} {w' : World} {more : List Note}
    (hstep : w.step? b m = some (w', more)) :
    Invariant fs b w' (notes ++ more) ∧ ((∃ i, .renamed i ∈ notes) → ∀ i, .fetched i ∉ more) := by
  suffices hmoved : more = [] ∧ Invariant fs b w' notes ∨
      ∃ i c point outcome r, w.callers[i]? = some c ∧ c.stage = .working point ∧
        more = noted i outcome point r ∧ Invariant fs b w' (notes ++ more) by
    rcases hmoved with ⟨rfl, hnext⟩ | ⟨i, c, point, outcome, r, hi, hstage, rfl, hnext⟩
    · exact ⟨by rwa [List.append_nil], by simp⟩
    · -- Whoever is about to fetch knows that nothing has been moved into place.
      refine ⟨hnext, fun ⟨j, hj⟩ k hk => ?_⟩
      obtain ⟨v, rfl⟩ := fetched_noted hk
      have hfits := h.fits i c hi
      rw [hstage] at hfits
      exact Open.unmoved (Ready.still hfits.2) j hj
  cases m with
  | call process group p =>
      cases hstep
      exact Or.inl ⟨rfl, h.call rfl⟩
  | check i refusals =>
      obtain ⟨c, hi, hstep⟩ := Option.bind_eq_some_iff.mp hstep
      split at hstep
      · next hstage =>
          split at hstep
          · cases hstep
            exact Or.inl ⟨rfl, h.become_alone hi trivial (by rw [hstage]; rfl)⟩
          · next there files hp =>
              cases hstep
              exact Or.inl ⟨rfl, h.check hi hstage hp⟩
      · cases hstep
  | join i =>
      obtain ⟨c, hi, hstep⟩ := Option.bind_eq_some_iff.mp hstep
      split at hstep
      · next hstage =>
          have hmissing := h.fits i c hi
          rw [hstage] at hmissing
          split at hstep
          · cases hstep
            exact Or.inl ⟨rfl, h.become_alone hi trivial (by rw [hstage]; rfl)⟩
          · cases hstep
            exact Or.inl ⟨rfl, h.become_alone hi ⟨hmissing, trivial⟩ (by rw [hstage]; rfl)⟩
      · cases hstep
  | advance i cancelled outcome number refusals =>
      obtain ⟨c, hi, hstep⟩ := Option.bind_eq_some_iff.mp hstep
      split at hstep
      · next point hstage =>
          cases hstep
          exact Or.inr ⟨i, c, point, outcome, _, hi, hstage, rfl, h.advance hsite hw hi hstage rfl⟩
      · cases hstep
  | writeSome i count =>
      obtain ⟨c, hi, hstep⟩ := Option.bind_eq_some_iff.mp hstep
      split at hstep
      · next hstage =>
          cases hstep
          exact Or.inl ⟨rfl, h.writeSome hi hstage count⟩
      · cases hstep
  | leave i =>
      obtain ⟨c, hi, hstep⟩ := Option.bind_eq_some_iff.mp hstep
      split at hstep
      · obtain ⟨result, hresult, hstep⟩ := Option.map_eq_some_iff.mp hstep
        cases hstep
        exact Or.inl ⟨rfl, h.become_alone hi trivial (holds_of_result? hresult).symm⟩
      · next j hstage =>
          obtain ⟨result, _, hstep⟩ := Option.map_eq_some_iff.mp hstep
          cases hstep
          exact Or.inl ⟨rfl, h.become_alone hi trivial (by rw [hstage]; rfl)⟩
      · cases hstep
  | die process =>
      cases hstep
      exact Or.inl ⟨rfl, h.die process⟩

/-- **Whatever moves are made, what is true stays true.** -/
theorem Invariant.play {moves : List Move} {w' : World} {more : List Note}
    (h : Invariant fs b w notes)
    (hsite : fs.find true b.path = .error .noEntry → ∃ rooted es n, Site b rooted es n)
    (hw : b.platform.isWindows = false) (hplay : World.play? b moves w = some (w', more)) :
    Invariant fs b w' (notes ++ more) ∧ ((∃ i, .renamed i ∈ notes) → ∀ i, .fetched i ∉ more) := by
  induction moves generalizing w notes more with
  | nil =>
      cases hplay
      rw [List.append_nil]
      exact ⟨h, by simp⟩
  | cons m moves ih =>
      obtain ⟨⟨v, first⟩, hstep, hplay⟩ := Option.bind_eq_some_iff.mp hplay
      obtain ⟨⟨u, rest⟩, hrest, hplay⟩ := Option.map_eq_some_iff.mp hplay
      cases hplay
      obtain ⟨hnext, hquiet⟩ := h.step hsite hw hstep
      obtain ⟨hlast, hquiet'⟩ := ih hnext hrest
      rw [← List.append_assoc]
      refine ⟨hlast, fun ⟨j, hj⟩ k hk => ?_⟩
      rcases List.mem_append.mp hk with hk | hk
      · exact hquiet ⟨j, hj⟩ k hk
      · exact hquiet' ⟨j, List.mem_append_left _ hj⟩ k hk

/-- Before anybody has called. -/
theorem invariant_quiet (hwf : fs.WellFormed) (hclean : Path.clean b.path = b.path)
    (hlock : ∀ l, fs.locate true b.path = .ok l → fs.locate true (lockPath b) ≠ .ok l)
    (htemporary : ∀ l number, fs.locate true b.path = .ok l →
      fs.locate false (temporaryPath b (suffixOf number)) ≠ .ok l) :
    Invariant fs b (.quiet fs) [] := by
  refine ⟨?_, by simp [World.quiet], none, rfl, by simp [World.quiet]⟩
  by_cases hmissing : fs.find true b.path = .error .noEntry
  · obtain ⟨rooted, es, n, hs⟩ := site_of_missing hclean hwf hmissing
    refine .missing hmissing ⟨hs.pending hwf hmissing hlock, fun number => ?_, by simp⟩
    exact FileSystem.apart_of_noEntry hmissing fun l => htemporary l number
  · exact .kept hmissing

theorem Phase.seen (h : Phase fs b notes files) : Seen fs b notes files := by
  cases h with
  | kept _ => exact .original rfl
  | permitted found =>
      exact .permitted (stat_eq_ok.mpr ⟨_, found⟩)
        (stat_eq_ok.mpr ⟨_, FileSystem.find_put found _ _⟩)
  | missing missing still =>
      refine .absent (stat_absent fun x hx => ?_) (stat_absent still.pending.absent)
      rw [hx] at missing
      cases missing
  | complete _ complete =>
      obtain ⟨l, body, hfind, hanswered⟩ := complete.found
      exact .complete (stat_eq_ok.mpr ⟨l, hfind⟩) hanswered

theorem holds_of_downloads (h : stage.downloads = true) : stage.holds = true := by
  cases stage with
  | working point => cases point <;> first | rfl | cases h
  | _ => cases h

/-- **Callers do not get in each other's way.** Whoever makes which moves, and
wherever processes end, the path of the binary leads to what was there or to a
complete download, at most one caller is between its request and the move into
place, and once that has been made there is no further request. -/
theorem provisioning_safe (hplatform : b.platform.isWindows = false) (hwf : fs.WellFormed)
    (hclean : Path.clean b.path = b.path)
    (hlock : ∀ l, fs.locate true b.path = .ok l → fs.locate true (lockPath b) ≠ .ok l)
    (htemporary : ∀ l number, fs.locate true b.path = .ok l →
      fs.locate false (temporaryPath b (suffixOf number)) ≠ .ok l)
    {moves : List Move} (hplay : World.play? b moves (.quiet fs) = some (w, notes)) :
    Seen fs b notes w.shared.files ∧
      (∀ (i j : Nat) (c d : Caller), w.callers[i]? = some c → w.callers[j]? = some d →
        c.stage.downloads = true → d.stage.downloads = true → i = j) ∧
      ∀ moves' w' more, World.play? b moves' w = some (w', more) →
        (∃ i, .renamed i ∈ notes) → ∀ i, .fetched i ∉ more := by
  have hsite := site_of_missing hclean hwf
  obtain ⟨hinvariant, _⟩ :=
    (invariant_quiet hwf hclean hlock htemporary).play hsite hplatform hplay
  rw [List.nil_append] at hinvariant
  refine ⟨hinvariant.phase.seen, ?_, ?_⟩
  · intro i j c d hi hj hc hd
    obtain ⟨holder, hholder⟩ := hinvariant.lock
    exact hholder.unique hi (holds_of_downloads hc) hj (holds_of_downloads hd)
  · intro moves' w' more hmore
    exact (hinvariant.play hsite hplatform hmore).2

end Everybody

/-! ### Runs -/

/-- A directory for binaries with nothing in it. -/
def bare : FileSystem := { entries := [(["bin"], .directory)] }

/-- So many steps of a caller, to whose request there is a response. -/
def steps (caller count : Nat) : List Move :=
  List.replicate count (.advance caller false (.response 200 (utf8 "BIN") none) caller {})

/-- A process ends while it writes, and another one that waits for the lock
installs the binary. A third caller finds it. -/
def crashMoves : List Move :=
  [.call 1 0 releases, .call 2 0 releases, .check 0 {}, .join 0, .check 1 {}, .join 1] ++ steps 0 6 ++
    [.writeSome 0 2] ++ steps 1 3 ++ [.die 1] ++ steps 1 10 ++
    [.leave 1, .call 3 0 releases, .check 2 {}]

theorem crashMoves_played :
    ∃ r, World.play? engine crashMoves (.quiet bare) = some r ∧
      ((r.1.shared.files.stat engine.path).toOption,
        r.2.any fun | .renamed _ => true | _ => false) =
        (some (.file (utf8 "BIN") executableMode), true) :=
  Option.map_eq_some_iff.mp (by decide +kernel)

/-- The third caller has found a complete binary, and nobody fetches it again. -/
theorem crashMoves_safe :
    ∃ w notes, World.play? engine crashMoves (.quiet bare) = some (w, notes) ∧
      w.shared.files.stat engine.path = .ok (.file (utf8 "BIN") executableMode) ∧
      Seen bare engine notes w.shared.files ∧
      ∀ moves' w' more, World.play? engine moves' w = some (w', more) → ∀ i, .fetched i ∉ more := by
  obtain ⟨⟨w, notes⟩, hplay, hfacts⟩ := crashMoves_played
  obtain ⟨hstat, hrenamed⟩ := Prod.mk.inj hfacts
  -- The path has two plain elements, which are no links.
  have hsite : Site engine true ["bin".toList] "engine".toList :=
    ⟨by rfl, ⟨by decide, by decide, by decide, by decide⟩,
      .name ⟨by decide, by decide, by decide, by decide⟩ .nil⟩
  have hpath : bare.locate true engine.path = .ok ["bin", "engine"] := by rfl
  have hlock : ∀ l, bare.locate true engine.path = .ok l →
      bare.locate true (lockPath engine) ≠ .ok l := by
    have hlocked : bare.locate true (lockPath engine) = .ok ["bin", "engine.lock"] := by rfl
    rw [hpath, hlocked]
    exact fun l hl hl' => absurd (Except.ok.inj (hl.trans hl'.symm)) (by decide)
  have htemporary : ∀ l number, bare.locate true engine.path = .ok l →
      bare.locate false (temporaryPath engine (suffixOf number)) ≠ .ok l := by
    intro l number hl htemporary
    obtain ⟨k, d, _, rfl, _⟩ := (temporary_names hsite number).locate_false htemporary
    rw [hpath, Except.ok.injEq] at hl
    have hlast : ["bin"] ++ ["engine"] = d ++ [String.ofList (temporaryName "engine".toList _)] := hl
    have hname := List.singleton_inj.mp (List.append_inj' hlast (by simp)).2
    have hne := temporaryName_ne "engine".toList (suffixOf number)
    rw [String.ofList_toList] at hne
    exact hne hname
  obtain ⟨hseen, _, hquiet⟩ := provisioning_safe (by decide)
    (FileSystem.wellFormed_of_entries (by decide) rfl) (by rfl : Path.clean engine.path = _) hlock
    htemporary hplay
  refine ⟨w, notes, hplay, ?_, hseen, fun moves' w' more hmore => hquiet moves' w' more hmore ?_⟩
  · cases hs : w.shared.files.stat engine.path with
    | error e => rw [hs] at hstat; cases hstat
    | ok e => rw [hs] at hstat; cases hstat; rfl
  · obtain ⟨note, hmem, hnote⟩ := List.any_eq_true.mp hrenamed
    cases note with
    | renamed i => exact ⟨i, hmem⟩
    | _ => cases hnote

/-- What is there and was not, and is no complete binary. -/
theorem not_seen {fs files : FileSystem} {b : Binary} {notes : List Note} {e : FileSystem.Entry}
    (hbefore : (fs.stat b.path).toOption = none) (hnow : (files.stat b.path).toOption = some e)
    (he : ∀ body, e ≠ .file body executableMode) : ¬ Seen fs b notes files := by
  rintro (⟨_, now⟩ | now | ⟨before, _⟩ | ⟨now, _⟩)
  · rw [hnow] at now
    cases now
  · rw [now, hbefore] at hnow
    cases hnow
  · rw [before] at hbefore
    cases hbefore
  · rw [now] at hnow
    cases hnow
    exact he _ rfl

/-- Where the binary should be there is a link to a temporary file. -/
def draftLink : FileSystem :=
  { entries := [(["bin"], .directory), (["bin", "engine"], .link ".engine.0.part")] }

/-- A lock file that is a link to the binary makes an empty one, a link to the
temporary file shows a part of the binary, and where the path is not clean, the
directory around the binary is the binary itself. -/
theorem lockLink_not_seen :
    (∃ moves w notes, World.play? engine moves (.quiet lockLink) = some (w, notes) ∧
      ¬ Seen lockLink engine notes w.shared.files) ∧
    (∃ moves w notes, World.play? engine moves (.quiet draftLink) = some (w, notes) ∧
      ¬ Seen draftLink engine notes w.shared.files) ∧
    ∃ moves w notes, World.play? slashed moves (.quiet {}) = some (w, notes) ∧
      ¬ Seen {} slashed notes w.shared.files := by
  -- It is enough to end with an entry that is no executable file.
  have hstart : ∀ (b : Binary) (fs : FileSystem) (moves : List Move) (e : FileSystem.Entry),
      (World.play? b moves (.quiet fs)).map (fun r => (r.1.shared.files.stat b.path).toOption) =
        some (some e) →
      (fs.stat b.path).toOption = none → (∀ body, e ≠ .file body executableMode) →
      ∃ moves w notes, World.play? b moves (.quiet fs) = some (w, notes) ∧
        ¬ Seen fs b notes w.shared.files := by
    intro b fs moves e hplay hbefore he
    obtain ⟨⟨w, notes⟩, hplay, hnow⟩ := Option.map_eq_some_iff.mp hplay
    exact ⟨moves, w, notes, hplay, not_seen hbefore hnow he⟩
  refine ⟨?_, ?_, ?_⟩
  -- The link of the lock: the lock file appears under the binary's name.
  · refine hstart _ _ ([.call 1 0 releases, .check 0 {}, .join 0] ++ steps 0 3) (.file [] 0o600)
      (by decide +kernel) (by decide +kernel) fun body h => ?_
    cases h
  -- The link of the temporary file: half a body appears there.
  · refine hstart _ _ ([.call 1 0 releases, .check 0 {}, .join 0] ++ steps 0 6 ++ [.writeSome 0 2])
      (.file (utf8 "BI") 0o600) (by decide +kernel) (by decide +kernel) fun body h => ?_
    cases h
  -- A trailing slash: the directory appears there.
  · refine hstart _ _ ([.call 1 0 releases, .check 0 {}, .join 0] ++ steps 0 2) .directory
      (by decide +kernel) (by decide +kernel) fun body h => ?_
    cases h

end LanguageClient.Provision
