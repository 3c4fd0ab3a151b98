import LanguageClient.Proofs.Provision.Target
import LanguageClient.Supervisor.State

/-! # A binary is there, or nothing has happened.

A call that succeeds leaves a file that can be executed, with the content it had
or with that of the response (`Provided`). A call that fails leaves everything
as it was, except for directories above the binary and the lock file
(`Untouched`). What is known at each point of a call is said by `Underway`,
which every step keeps while it comes nearer to the end (`Underway.advances`). -/

namespace LanguageClient.Provision

open FileSystem (Names IsLegal Legal spelled Touches HoldsFile Made)
open LanguageClient.Path (Stacked)

/-! ### Results -/

inductive Above (path : String) : String → Prop where
  | dir : Above path (Path.dir path)
  | up {q : String} (h : Above path q) : Above path (Path.dir q)

/-- What a call gives: the state behind it, the binary, an error, and what was shown. -/
abbrev Result := Shared × Binary × Option Error × List Effect

/-- The binary is there: the file it was, without a request, or the body of the
response. -/
structure Provided (fs : FileSystem) (b : Binary) (outcome : Outcome) (r : Result) : Prop where
  binary : r.2.1 = { b with executable := true }
  accepted : Supervisor.checkExecutable r.1.files b = .ok ()
  file : ∃ content mode, r.1.files.stat b.path = .ok (.file content mode) ∧
    (b.platform.isWindows = false → mode &&& executeBits = executeBits) ∧
    ((∃ old, fs.stat b.path = .ok (.file content old)) ∧ requests r.2.2.2 = [] ∨
      (fs.stat b.path).toOption = none ∧ outcome = .response 200 content none)

/-- Nothing has happened, except that directories were made above the binary, and
the lock file. -/
structure Untouched (fs : FileSystem) (b : Binary) (suffix : String) (files : FileSystem) : Prop where
  home : files.workingDirectory = fs.workingDirectory
  target : (files.stat b.path).toOption = (fs.stat b.path).toOption
  entries : ∀ l, files.entryAt? l = fs.entryAt? l ∨ fs.entryAt? l = none ∧
    ((∃ q, Above b.path q ∧ files.find true q = .ok (l, .directory)) ∨
      files.find true (lockPath b) = .ok (l, .file [] 0o600))
  temporary : ∀ l e, files.find false (temporaryPath b suffix) = .ok (l, e) →
    fs.entryAt? l = some e ∨ files.find true (lockPath b) = .ok (l, e)

section Untouched

variable {fs base files : FileSystem} {b : Binary} {suffix : String}
variable {rooted : Bool} {es : List (List Char)} {n : List Char}

theorem Untouched.refl (fs : FileSystem) (b : Binary) (suffix : String) : Untouched fs b suffix fs :=
  ⟨rfl, rfl, fun _ => Or.inl rfl, fun _ _ h => Or.inl (FileSystem.find_eq_ok.mp h).2⟩

/-- The same entries are as untouched. -/
theorem Untouched.congr (h : Untouched fs b suffix base) (he : ∀ l, files.entryAt? l = base.entryAt? l)
    (hhome : files.workingDirectory = base.workingDirectory) : Untouched fs b suffix files := by
  have hfind := FileSystem.find_congr he hhome
  refine ⟨hhome.trans h.home, ?_, ?_, ?_⟩
  · rw [FileSystem.stat, hfind]
    exact h.target
  · intro l
    rw [he, hfind]
    exact h.entries l
  · rw [hfind]
    exact h.temporary

/-- The directories on the way to a directory above a path are above it. -/
theorem Above.of_append {path : String} {rest : List (List Char)}
    (h : Above path (spelled rooted (es ++ rest))) (hs : Stacked rooted (es ++ rest).reverse) :
    Above path (spelled rooted es) := by
  induction rest generalizing es with
  | nil => rwa [List.append_nil] at h
  | cons e rest ih =>
      have hsplit : es ++ e :: rest = es ++ [e] ++ rest := by simp
      rw [hsplit] at h hs
      have hlonger := ih h hs
      rw [List.reverse_append] at hs
      have hstacked := hs.of_append
      rw [List.reverse_append] at hstacked
      have hplain := (hstacked.plain e (by simp)).2.1
      have hdir : Path.dir (spelled rooted (es ++ [e])) = spelled rooted es :=
        Path.dir_spell hstacked.of_append hplain
      exact hdir ▸ hlonger.up

theorem Site.above (h : Site b rooted es n) (i : Nat) :
    Above b.path (spelled rooted (es.take i)) := by
  have habove : Above b.path (spelled rooted (es.take i ++ es.drop i)) := by
    rw [List.take_append_drop, ← h.dir]
    exact .dir
  refine habove.of_append ?_
  rw [List.take_append_drop]
  exact h.stacked

/-- Making the directory around a binary touches nothing else. -/
theorem untouched_makeDirectory (hs : Site b rooted es n) (hsuffix : '/' ∉ suffix.toList)
    (hp : Pending fs b) : Untouched fs b suffix (fs.makeDirectory (Path.dir b.path)).1 := by
  have hmade := hs.made hp
  refine ⟨hmade.grown.home, ?_, ?_, ?_⟩
  · rw [stat_absent hp.absent, stat_absent (hp.makeDirectory hs).absent]
  · intro l
    refine (hmade.grown.entries l).imp_right fun ⟨hnone, i, hi⟩ => ⟨hnone, Or.inl ?_⟩
    exact ⟨_, hs.above i, hi⟩
  · intro l e hfind
    obtain ⟨hlocate, he⟩ := FileSystem.find_eq_ok.mp hfind
    obtain ⟨k, d, hr, rfl, _⟩ := (hs.temporary hsuffix).locate_false hlocate
    rcases hmade.unchanged_or_empty hs.stacked (hs.legal hp.legal) with hsame | hempty
    · rw [hsame] at he
      exact Or.inl he
    · rw [hempty k d hr] at he
      cases he

/-- Opening the lock file touches nothing else. -/
theorem Untouched.openOrCreate (h : Untouched fs b suffix base) (hp : Pending base b)
    (hopen : base.openOrCreate (lockPath b) 0o600 = .ok files) : Untouched fs b suffix files := by
  have hp' := hp.openOrCreate hopen
  rcases FileSystem.openOrCreate_eq_ok hopen with rfl | ⟨l, hl, hnone, _, htouch, hfind⟩
  · exact h
  -- The lock file is new, so nothing was found at its place.
  · have hfresh : ∀ m e, base.find true (lockPath b) ≠ .ok (m, e) := by
      intro m e hm
      obtain ⟨hlocate, he⟩ := FileSystem.find_eq_ok.mp hm
      cases hl.symm.trans hlocate
      rw [hnone] at he
      cases he
    have hback : ∀ {follow : Bool} {path : String} {m : Location} {e : FileSystem.Entry}, m ≠ l →
        files.find follow path = .ok (m, e) → base.find follow path = .ok (m, e) := by
      intro follow path m e hml hm
      refine FileSystem.find_of_sameTree hm htouch.sameTree.symm ?_
      rw [← htouch.others m hml]
      exact (FileSystem.find_eq_ok.mp hm).2
    refine ⟨htouch.home.trans h.home, ?_, ?_, ?_⟩
    · rw [stat_absent hp'.absent, ← h.target, stat_absent hp.absent]
    · intro m
      -- The place of the lock file itself.
      by_cases hml : m = l
      · subst hml
        refine Or.inr ⟨?_, Or.inr hfind⟩
        exact (h.entries m).elim (fun hsame => hsame ▸ hnone) And.left
      · rw [htouch.others m hml]
        refine (h.entries m).imp_right fun ⟨hm, hmade⟩ => ⟨hm, Or.inl ?_⟩
        obtain ⟨q, hq, hdir⟩ := hmade.resolve_right (hfresh m _)
        refine ⟨q, hq, FileSystem.find_of_sameTree hdir htouch.sameTree ?_⟩
        rw [htouch.others m hml]
        exact (FileSystem.find_eq_ok.mp hdir).2
    · intro m e hm
      -- What is at the temporary path may be the lock file, when the two paths meet.
      by_cases hml : m = l
      · subst hml
        have he := (FileSystem.find_eq_ok.mp hm).2
        rw [(FileSystem.find_eq_ok.mp hfind).2] at he
        cases he
        exact Or.inr hfind
      · exact Or.inl ((h.temporary m e (hback hml hm)).resolve_right (hfresh m e))

end Untouched

/-! ### The temporary file -/

/-- A state with nothing new in it but a temporary file. -/
structure Draft (base files : FileSystem) (t : String) (l : Location) (content : Bytes) (mode : Nat) :
    Prop where
  held : files.HoldsFile t l content mode
  touch : Touches base files l
  fresh : base.entryAt? l = none
  parent : base.entryAt? (FileSystem.parent l) = some .directory

section Draft

variable {base files : FileSystem} {t dir name path : String} {l : Location} {content : Bytes}
variable {mode : Nat}

/-- A new file beside the binary is a draft. -/
theorem draft_createNew (hn : Names dir t name) (hwf : base.WellFormed)
    (h : base.createNew t mode = .ok files) : ∃ l, Draft base files t l [] mode := by
  obtain ⟨l, hl, hnone, rfl⟩ := FileSystem.createNew_eq_ok h
  exact ⟨l, hn.holdsFile_of_put hl hnone [] mode,
    FileSystem.touches_put (FileSystem.vacant_of_none hnone), hnone, hn.parent_directory hwf hl⟩

theorem Draft.put (h : Draft base files t l content mode) (content' : Bytes) (mode' : Nat) :
    Draft base (files.put l (.file content' mode')) t l content' mode' where
  held := h.held.put content' mode'
  touch := h.touch.trans (FileSystem.touches_put h.touch.after)
  fresh := h.fresh
  parent := h.parent

/-- Writing to a draft adds to its content. -/
theorem Draft.append (h : Draft base files t l content mode) (more : Bytes) :
    Draft base (files.append t more) t l (content ++ more) mode := by
  rw [h.held.append_eq]
  exact h.put _ _

/-- Without the temporary file everything is as it was. -/
theorem Draft.remove (h : Draft base files t l content mode) (hwf : base.WellFormed) :
    (∀ m, (files.remove t).entryAt? m = base.entryAt? m) ∧
      (files.remove t).workingDirectory = base.workingDirectory := by
  have hwf' := h.touch.wellFormed hwf h.parent
  have htouch := h.touch.trans (FileSystem.touches_erase hwf' h.touch.after)
  rw [h.held.remove_eq]
  refine ⟨fun m => ?_, htouch.home⟩
  by_cases hml : m = l
  · subst hml
    rw [h.fresh, FileSystem.entryAt?_erase,
      if_pos ⟨FileSystem.ne_nil_of_vacant h.touch.after, List.prefix_refl m⟩]
  · exact htouch.others m hml

/-- The temporary file is found where it was moved to. -/
theorem Draft.find_moved (h : Draft base files t l content mode) (hwf : base.WellFormed)
    (hn : Names dir path name) (hnone : base.find true path = .error .noEntry)
    {moved : FileSystem} (hmoved : files.rename t path = .ok moved) :
    ∃ target, moved.find true path = .ok (target, .file content mode) := by
  obtain ⟨source, e, target, hsource, htarget, hdir, rfl⟩ := FileSystem.rename_eq_ok hmoved
  cases h.held.symm.trans hsource
  have hno := (hn.noDirectory hwf hnone).of_sameTree h.touch.sameTree
  exact ⟨target, hn.find_moved (h.touch.wellFormed hwf h.parent) h.touch.after htarget hdir hno⟩

end Draft

/-! ### The course of a call -/

/-- A state in which the binary has been found missing. -/
structure Missing (fs : FileSystem) (b : Binary) (suffix : String) (files : FileSystem) : Prop where
  untouched : Untouched fs b suffix files
  wellFormed : files.WellFormed
  missing : files.find true b.path = .error .noEntry

/-- The body of the response is installed. -/
def Installed (b : Binary) (outcome : Outcome) (files : FileSystem) : Prop :=
  ∃ body mode, files.stat b.path = .ok (.file body mode) ∧
    (b.platform.isWindows = false → mode = executableMode) ∧ outcome = .response 200 body none

def Ended (fs : FileSystem) (b : Binary) (suffix : String) (outcome : Outcome) (files : FileSystem) :
    Option Error → Prop
  | none => Installed b outcome files
  | some _ => Untouched fs b suffix files

/-- What is known at each point of a call for a missing binary that nobody
disturbs. -/
inductive Underway (fs : FileSystem) (b : Binary) (suffix : String) (outcome : Outcome) :
    Shared → Point → Prop where
  | version (pending : Pending fs b) : Underway fs b suffix outcome ⟨fs, []⟩ .version
  | directory {v : ReleaseVersion} (pending : Pending fs b) :
      Underway fs b suffix outcome ⟨fs, []⟩ (.directory v)
  | lock {files : FileSystem} {v : ReleaseVersion} (untouched : Untouched fs b suffix files)
      (pending : Pending files b) : Underway fs b suffix outcome ⟨files, []⟩ (.lock v)
  | recheck {w : Shared} {v : ReleaseVersion} (untouched : Untouched fs b suffix w.files)
      (pending : Pending w.files b) : Underway fs b suffix outcome w (.recheck v)
  | fetch {w : Shared} {v : ReleaseVersion} (missing : Missing fs b suffix w.files) :
      Underway fs b suffix outcome w (.fetch v)
  | create {w : Shared} {v : ReleaseVersion} {body : Bytes} {failure : Option Error}
      (missing : Missing fs b suffix w.files) (answer : outcome = .response 200 body failure) :
      Underway fs b suffix outcome w (.create v body failure)
  | write {base : FileSystem} {w : Shared} {v : ReleaseVersion} {t : String} {l : Location}
      {body : Bytes} {mode : Nat} {failure : Option Error} (missing : Missing fs b suffix base)
      (draft : Draft base w.files t l [] mode) (answer : outcome = .response 200 body failure) :
      Underway fs b suffix outcome w (.write v t body failure)
  | close {base : FileSystem} {w : Shared} {v : ReleaseVersion} {t : String} {l : Location}
      {body : Bytes} {mode : Nat} (missing : Missing fs b suffix base)
      (draft : Draft base w.files t l body mode) (answer : outcome = .response 200 body none) :
      Underway fs b suffix outcome w (.close v t)
  | permit {base : FileSystem} {w : Shared} {v : ReleaseVersion} {t : String} {l : Location}
      {body : Bytes} {mode : Nat} (missing : Missing fs b suffix base)
      (draft : Draft base w.files t l body mode) (answer : outcome = .response 200 body none) :
      Underway fs b suffix outcome w (.permit v t)
  | move {base : FileSystem} {w : Shared} {v : ReleaseVersion} {t : String} {l : Location}
      {body : Bytes} {mode : Nat} (missing : Missing fs b suffix base)
      (draft : Draft base w.files t l body mode) (answer : outcome = .response 200 body none)
      (permitted : b.platform.isWindows = false → mode = executableMode) :
      Underway fs b suffix outcome w (.move v t)
  | announce {w : Shared} {v : ReleaseVersion} (installed : Installed b outcome w.files) :
      Underway fs b suffix outcome w (.announce v)
  | discard {base : FileSystem} {w : Shared} {t : String} {l : Location} {content : Bytes}
      {mode : Nat} {e : Error} (missing : Missing fs b suffix base)
      (draft : Draft base w.files t l content mode) :
      Underway fs b suffix outcome w (.discard t e)
  | unlock {w : Shared} {result : Option Error} (ended : Ended fs b suffix outcome w.files result) :
      Underway fs b suffix outcome w (.unlock result)
  | finished {w : Shared} {result : Option Error} (ended : Ended fs b suffix outcome w.files result) :
      Underway fs b suffix outcome w (.finished result)

/-- How many steps are left at most when nobody else holds the lock. -/
@[simp] def Point.remaining : Point → Nat
  | .version => 12
  | .directory _ => 11
  | .lock _ => 10
  | .recheck _ => 9
  | .fetch _ => 8
  | .create _ _ _ => 7
  | .write _ _ _ _ => 6
  | .close _ _ => 5
  | .permit _ _ => 4
  | .move _ _ => 3
  | .announce _ | .discard _ _ => 2
  | .unlock _ => 1
  | .finished _ => 0

section Course

variable {p : Provisioner} {b : Binary} {fs : FileSystem} {suffix : String} {outcome : Outcome}
variable {cancelled : Bool} {refusals : Refusals} {rooted : Bool} {es : List (List Char)}
variable {n : List Char} {w : Shared} {point : Point}

/-- A step leads to a point nearer to the end, where what is known holds. -/
def Advances (fs : FileSystem) (b : Binary) (suffix : String) (outcome : Outcome) (point : Point)
    (r : Shared × Point × List Effect) : Prop :=
  Underway fs b suffix outcome r.1 r.2.1 ∧ r.2.1.remaining ≤ point.remaining - 1

/-- What follows from the response. -/
theorem fetch_advances {v : ReleaseVersion} (h : Missing fs b suffix w.files) :
    Advances fs b suffix outcome (.fetch v) (fetch p b v ⟨cancelled, { outcome }, suffix, refusals⟩ w) := by
  obtain ⟨hw, ⟨e, hnext⟩ | ⟨body, failure, houtcome, hnext, _⟩⟩ :=
    fetch_cases p b v cancelled outcome suffix refusals w
  · rw [Advances, hw, hnext]
    exact ⟨.unlock h.untouched, by simp⟩
  · rw [Advances, hw, hnext]
    exact ⟨.create h houtcome, by simp⟩

/-- What follows from taking the lock. -/
theorem lock_advances {files : FileSystem} {v : ReleaseVersion} (hu : Untouched fs b suffix files)
    (hp : Pending files b) :
    Advances fs b suffix outcome (.lock v)
      (step p b ⟨cancelled, { outcome }, suffix, refusals⟩ ⟨files, []⟩ (.lock v)) := by
  unfold step
  simp only
  split
  · exact ⟨.finished hu, Nat.zero_le _⟩
  · split
    · exact ⟨.finished hu, Nat.zero_le _⟩
    · next opened hopen =>
        rw [if_neg (by simp)]
        exact ⟨.recheck (hu.openOrCreate hp hopen) (hp.openOrCreate hopen), Nat.le_refl _⟩

/-- **A step keeps what is known.** -/
theorem Underway.advances (hs : Site b rooted es n) (hsuffix : '/' ∉ suffix.toList)
    (h : Underway fs b suffix outcome w point) :
    Advances fs b suffix outcome point (step p b ⟨cancelled, { outcome }, suffix, refusals⟩ w point) := by
  cases h with
  | version pending =>
      simp only [step.eq_def]
      split
      · exact ⟨.directory pending, by simp⟩
      · exact ⟨.finished (.refl fs b suffix), by simp⟩
  | directory pending =>
      have huntouched := untouched_makeDirectory hs hsuffix pending
      have hpending := pending.makeDirectory hs
      simp only [step.eq_def]
      split
      · next files hmade =>
          rw [hmade] at huntouched hpending
          exact ⟨.lock huntouched hpending, by simp⟩
      · next files e hmade =>
          rw [hmade] at huntouched
          exact ⟨.finished huntouched, by simp⟩
  | lock untouched pending => exact lock_advances untouched pending
  | recheck untouched pending =>
      -- Nobody else is there to install the binary: it is missing still, or unknown.
      simp only [step.eq_def]
      rcases pending.present_cases refusals with ⟨hmissing, hpresent⟩ | ⟨e, hpresent⟩
      · rw [hpresent]
        exact ⟨.fetch ⟨untouched, pending.wellFormed, hmissing⟩, by simp⟩
      · rw [hpresent]
        exact ⟨.unlock untouched, by simp⟩
  | fetch missing => exact fetch_advances missing
  | create missing answer =>
      simp only [step.eq_def]
      split
      · next files hcreate =>
          obtain ⟨l, hdraft⟩ := draft_createNew (hs.temporary hsuffix) missing.wellFormed hcreate
          exact ⟨.write missing hdraft answer, by simp⟩
      · exact ⟨.unlock missing.untouched, by simp⟩
  | @write _ _ _ _ _ body _ failure missing draft answer =>
      have hdraft := draft.append body
      rw [List.nil_append] at hdraft
      simp only [step.eq_def]
      cases failure with
      -- A body that breaks off is written as far as it came, and removed again.
      | some e => exact ⟨.discard missing hdraft, by simp⟩
      | none => exact ⟨.close missing hdraft answer, by simp⟩
  | close missing draft answer =>
      simp only [step.eq_def]
      cases refusals.close with
      | some r => exact ⟨.discard missing draft, by simp⟩
      | none =>
          simp only
          cases hw : b.platform.isWindows with
          | true => exact ⟨.move missing draft answer (by simp [hw]), by simp⟩
          | false => exact ⟨.permit missing draft answer, by simp⟩
  | permit missing draft answer =>
      simp only [step.eq_def]
      cases refusals.chmod with
      | some r =>
          obtain ⟨r', hrefused⟩ := FileSystem.changeMode_refused _ executableMode r _
          rw [hrefused]
          exact ⟨.discard missing draft, by simp⟩
      | none =>
          rw [draft.held.changeMode_eq]
          exact ⟨.move missing (draft.put _ _) answer fun _ => rfl, by simp⟩
  | move missing draft answer permitted =>
      simp only [step.eq_def]
      split
      · next moved hmoved =>
          obtain ⟨target, hfind⟩ :=
            draft.find_moved missing.wellFormed hs.target missing.missing hmoved
          exact ⟨.announce ⟨_, _, stat_eq_ok.mpr ⟨target, hfind⟩, permitted, answer⟩, by simp⟩
      · exact ⟨.discard missing draft, by simp⟩
  | announce installed => exact ⟨.unlock installed, Nat.le_refl _⟩
  | discard missing draft =>
      obtain ⟨hentries, hhome⟩ := draft.remove missing.wellFormed
      exact ⟨.unlock (missing.untouched.congr hentries hhome), Nat.le_refl _⟩
  | unlock ended => exact ⟨.finished ended, Nat.le_refl _⟩
  | finished ended => exact ⟨.finished ended, Nat.le_refl _⟩

theorem run_finished {s : Surroundings} {result : Option Error} (fuel : Nat) (said : List Effect) :
    run p b s fuel w (.finished result) said = (w, result, said) := by
  cases fuel <;> rw [run]

theorem run_succ {s : Surroundings} (h : ∀ result, point ≠ .finished result) (fuel : Nat)
    (said : List Effect) :
    run p b s (fuel + 1) w point said =
      run p b s fuel (step p b s w point).1 (step p b s w point).2.1
        (said ++ (step p b s w point).2.2) := by
  rw [run]
  exact h

theorem remaining_pos (h : ∀ result, point ≠ .finished result) : 0 < point.remaining := by
  cases point with
  | finished result => exact absurd rfl (h result)
  | _ => simp

/-- **A whole call keeps what is known**, and has an end. -/
theorem Underway.ended (hs : Site b rooted es n) (hsuffix : '/' ∉ suffix.toList) {fuel : Nat}
    (h : Underway fs b suffix outcome w point) (hfuel : point.remaining ≤ fuel) (said : List Effect) :
    Ended fs b suffix outcome
      (run p b ⟨cancelled, { outcome }, suffix, refusals⟩ fuel w point said).1.files
      (run p b ⟨cancelled, { outcome }, suffix, refusals⟩ fuel w point said).2.1 := by
  -- Every step leaves fewer steps to make, so the number of those allowed is enough.
  induction fuel generalizing w point said with
  | zero =>
      by_cases hgoes : ∀ result, point ≠ .finished result
      · have hpos := remaining_pos hgoes
        omega
      · obtain ⟨result, hpoint⟩ := Classical.not_forall.mp hgoes
        rw [Classical.not_not.mp hpoint] at h ⊢
        cases h with
        | finished ended => rw [run_finished]; exact ended
  | succ fuel ih =>
      by_cases hgoes : ∀ result, point ≠ .finished result
      · have hadvances : Advances fs b suffix outcome point
            (step p b ⟨cancelled, { outcome }, suffix, refusals⟩ w point) := h.advances hs hsuffix
        obtain ⟨hnext, hless⟩ := hadvances
        rw [run_succ hgoes]
        exact ih hnext (by omega) _
      · obtain ⟨result, hpoint⟩ := Classical.not_forall.mp hgoes
        rw [Classical.not_not.mp hpoint] at h ⊢
        cases h with
        | finished ended => rw [run_finished]; exact ended

end Course

/-! ### Calls -/

section Calls

variable {b : Binary} {fs files : FileSystem} {suffix : String} {outcome : Outcome}

/-- A file with the permission to execute passes the check before a spawn. -/
theorem checkExecutable_of_stat {content : Bytes} {mode : Nat}
    (h : files.stat b.path = .ok (.file content mode))
    (hmode : b.platform.isWindows = false → mode &&& executeBits = executeBits) :
    Supervisor.checkExecutable files b = .ok () := by
  unfold Supervisor.checkExecutable
  rw [h]
  cases hw : b.platform.isWindows with
  | true => simp
  | false =>
      have hbits : ¬ mode &&& 0o111 = 0 := by
        intro hzero
        exact absurd ((hmode hw).symm.trans hzero) (by decide)
      simp [hbits]

/-- What a call for a missing binary gives. -/
theorem provision_ended (p : Provisioner) (cancelled : Bool) (outcome : Outcome)
    (refusals : Refusals) (hwf : fs.WellFormed) (hclean : Path.clean b.path = b.path) (hsuffix : '/' ∉ suffix.toList)
    (hlock : ∀ l, fs.locate true b.path = .ok l → fs.locate true (lockPath b) ≠ .ok l)
    (hnone : fs.find true b.path = .error .noEntry) :
    Ended fs b suffix outcome
      (run p b ⟨cancelled, { outcome }, suffix, refusals⟩ maxSteps ⟨fs, []⟩ .version []).1.files
      (run p b ⟨cancelled, { outcome }, suffix, refusals⟩ maxSteps ⟨fs, []⟩ .version []).2.1 := by
  obtain ⟨rooted, es, n, hs⟩ := site_of_missing hclean hwf hnone
  exact Underway.ended hs hsuffix (.version (hs.pending hwf hnone hlock)) (by decide) []

/-- Without a version nothing is done. -/
theorem run_unavailable {p : Provisioner} {s : Surroundings} {e : Error} (h : p.versions fs = .error e) :
    (run p b s maxSteps ⟨fs, []⟩ .version []).1.files = fs := by
  rw [maxSteps, run_succ (by simp)]
  simp only [step.eq_def, h]
  rw [run_finished]

/-- With the body of the response installed, the binary is provided. -/
theorem provided_of_installed {w : Shared} {said : List Effect}
    (hnone : fs.find true b.path = .error .noEntry) (h : Installed b outcome w.files) :
    Provided fs b outcome (w, { b with executable := true }, none, said) := by
  obtain ⟨body, mode, hstat, hmode, houtcome⟩ := h
  have hbits : b.platform.isWindows = false → mode &&& executeBits = executeBits := by
    intro hw
    rw [hmode hw]
    decide
  have habsent : (fs.stat b.path).toOption = none :=
    stat_absent fun x hx => by rw [hx] at hnone; cases hnone
  exact ⟨rfl, checkExecutable_of_stat hstat hbits, body, mode, hstat, hbits, Or.inr ⟨habsent, houtcome⟩⟩

/-- A binary that is there and can be executed is provided. -/
theorem provided_of_present {w : Shared} {l l' : Location} {content : Bytes} {old mode : Nat}
    (hfind : fs.find true b.path = .ok (l, .file content old))
    (hfind' : w.files.find true b.path = .ok (l', .file content mode))
    (hmode : b.platform.isWindows = true ∨ mode &&& executeBits = executeBits) :
    Provided fs b outcome (w, { b with executable := true }, none, []) := by
  have hstat := stat_eq_ok.mpr ⟨l', hfind'⟩
  have hbits : b.platform.isWindows = false → mode &&& executeBits = executeBits :=
    fun hw => hmode.resolve_left (by rw [hw]; decide)
  exact ⟨rfl, checkExecutable_of_stat hstat hbits, content, mode, hstat, hbits,
    Or.inl ⟨⟨old, stat_eq_ok.mpr ⟨l, hfind⟩⟩, rfl⟩⟩

/-- **A call is all or nothing**, whatever the files, the release, the platform
and the response are and whatever the system refuses, if the path of the binary
is a clean one and its lock file is somewhere else. -/
theorem ensure_allOrNothing (p : Provisioner) (cancelled : Bool) (outcome : Outcome)
    (refusals : Refusals) (hwf : fs.WellFormed) (hclean : Path.clean b.path = b.path) (hsuffix : '/' ∉ suffix.toList)
    (hlock : ∀ l, fs.locate true b.path = .ok l → fs.locate true (lockPath b) ≠ .ok l) :
    let r := ensure p b ⟨cancelled, { outcome }, suffix, refusals⟩ ⟨fs, []⟩
    (r.2.2.1 = none → Provided fs b outcome r) ∧
      (r.2.2.1 ≠ none → r.2.1 = b ∧ Untouched fs b suffix r.1.files ∧
        ∀ e, p.versions fs = .error e → r.1.files = fs) := by
  suffices h : ∀ r, ensure p b ⟨cancelled, { outcome }, suffix, refusals⟩ ⟨fs, []⟩ = r →
      (r.2.2.1 = none → Provided fs b outcome r) ∧
        (r.2.2.1 ≠ none → r.2.1 = b ∧ Untouched fs b suffix r.1.files ∧
          ∀ e, p.versions fs = .error e → r.1.files = fs) from h _ rfl
  intro r hr
  -- The first check decides: only a missing binary is provisioned.
  have hpresence := presence refusals fs b
  simp only [ensure] at hr
  generalize present refusals fs b = seen at hpresence hr
  cases hpresence with
  | missing found =>
      have hended := provision_ended p cancelled outcome refusals hwf hclean hsuffix hlock found
      simp only at hr
      generalize hrun : run p b _ maxSteps ⟨fs, []⟩ .version [] = final at hr hended
      obtain ⟨w, result, said⟩ := final
      cases result with
      | none =>
          subst hr
          exact ⟨fun _ => provided_of_installed found hended, by simp⟩
      | some e =>
          subst hr
          refine ⟨by simp, fun _ => ⟨rfl, hended, fun e he => ?_⟩⟩
          -- Without a version nothing has been touched, not even the directory.
          have hsame := run_unavailable he (b := b) (s := ⟨cancelled, { outcome }, suffix, refusals⟩)
          rwa [hrun] at hsame
  | unknown _ _ | unfit _ _ | unrepaired _ _ =>
      subst hr
      exact ⟨by simp, fun _ => ⟨rfl, .refl fs b suffix, fun _ _ => rfl⟩⟩
  | @ready l content mode found permitted =>
      subst hr
      exact ⟨fun _ => provided_of_present found found permitted, by simp⟩
  | @repaired l content mode found =>
      subst hr
      refine ⟨fun _ => provided_of_present found (FileSystem.find_put found _ _) ?_, by simp⟩
      exact Or.inr (executeBits_or mode)

end Calls

/-! ### Calls with links in the way -/

/-- Where the binary should be there is a link that leads to nothing. -/
def dangling : FileSystem :=
  { entries := [(["bin"], .directory), (["bin", "engine"], .link "engine-1.2.3")] }

/-- A call for a binary to which there is such a response. -/
def attempt (b : Binary) (outcome : Outcome) (fs : FileSystem) (refusals : Refusals := {}) : Result :=
  ensure releases b ⟨false, { outcome }, "1", refusals⟩ ⟨fs, []⟩

/-- A complete response replaces the link. One that breaks off leaves it, and so does
one that is written completely to a file that may not be made executable. -/
theorem dangling_allOrNothing :
    Provided dangling engine (.response 200 (utf8 "BIN") none)
        (attempt engine (.response 200 (utf8 "BIN") none) dangling) ∧
      Untouched dangling engine "1"
        (attempt engine (.response 200 (utf8 "B") (some (.plain "reset"))) dangling).1.files ∧
      Untouched dangling engine "1"
        (attempt engine (.response 200 (utf8 "BIN") none) dangling
          { chmod := some .notPermitted }).1.files := by
  have hwf : dangling.WellFormed := FileSystem.wellFormed_of_entries (by decide) rfl
  have hlock : ∀ l, dangling.locate true engine.path = .ok l →
      dangling.locate true (lockPath engine) ≠ .ok l := by
    have hpath : dangling.locate true engine.path = .ok ["bin", "engine-1.2.3"] := by rfl
    have hlocked : dangling.locate true (lockPath engine) = .ok ["bin", "engine.lock"] := by rfl
    rw [hpath, hlocked]
    exact fun l hl hl' => absurd (Except.ok.inj (hl.trans hl'.symm)) (by decide)
  have hsuffix : '/' ∉ "1".toList := by decide
  have hcall := fun outcome refusals =>
    ensure_allOrNothing releases false outcome refusals hwf (by rfl : Path.clean engine.path = _)
      hsuffix hlock
  have hdone : (attempt engine (.response 200 (utf8 "BIN") none) dangling).2.2.1.isNone = true := by
    decide +kernel
  have hbroken : (attempt engine (.response 200 (utf8 "B") (some (.plain "reset")))
      dangling).2.2.1.isSome = true := by decide +kernel
  have hrefused : (attempt engine (.response 200 (utf8 "BIN") none) dangling
      { chmod := some .notPermitted }).2.2.1.isSome = true := by decide +kernel
  unfold attempt at hdone hbroken hrefused ⊢
  exact ⟨(hcall _ _).1 (Option.isNone_iff_eq_none.mp hdone),
    ((hcall _ _).2 (Option.isSome_iff_ne_none.mp hbroken)).2.1,
    ((hcall _ _).2 (Option.isSome_iff_ne_none.mp hrefused)).2.1⟩

/-- Opening a lock file that is a link to the binary makes an empty one, which is
taken for the right one; and where the path is not clean, the directory around
the binary is the binary itself. -/
theorem lockLink_not_provided :
    ((attempt engine (.response 200 (utf8 "BIN") none) lockLink).2.2.1 = none ∧
      ¬ Provided lockLink engine (.response 200 (utf8 "BIN") none)
        (attempt engine (.response 200 (utf8 "BIN") none) lockLink)) ∧
    (attempt slashed (.response 200 (utf8 "BIN") none) {}).2.2.1 ≠ none ∧
      ¬ Untouched {} slashed "1" (attempt slashed (.response 200 (utf8 "BIN") none) {}).1.files := by
  have hempty : ((attempt engine (.response 200 (utf8 "BIN") none) lockLink).1.files.stat
      engine.path).toOption = some (.file [] executableMode) := by decide +kernel
  have hbefore : (lockLink.stat engine.path).toOption = none := by decide +kernel
  have hdone : (attempt engine (.response 200 (utf8 "BIN") none) lockLink).2.2.1.isNone = true := by
    decide +kernel
  have hfails : (attempt slashed (.response 200 (utf8 "BIN") none) {}).2.2.1.isSome = true := by
    decide +kernel
  refine ⟨⟨Option.isNone_iff_eq_none.mp hdone, fun h => ?_⟩,
    Option.isSome_iff_ne_none.mp hfails, fun h => absurd h.target (by decide +kernel)⟩
  obtain ⟨content, mode, hstat, _, ⟨⟨old, hold⟩, _⟩ | ⟨_, houtcome⟩⟩ := h.file
  · rw [hold] at hbefore
    cases hbefore
  · rw [hstat] at hempty
    cases hempty
    injection houtcome with _ hbody _
    exact absurd hbody (by decide)

end LanguageClient.Provision
