import LanguageClient.Proofs.FileSystem.MakeDirectory
import LanguageClient.Provision.Step

/-! # The files around a binary.

The lock and the temporary file of a binary stand beside it, in the directory
that is made first (`Site`). Where the binary is missing (`Pending`), it is still
missing when that directory has been made, the lock file has been opened, or
another file has been touched. -/

namespace LanguageClient.Provision

open FileSystem (Names IsLegal Legal spelled Touches Made)
open LanguageClient.Path (Stacked)

/-! ### Paths -/

/-- The elements of the path of a binary, which ends in a name. -/
structure Site (b : Binary) (rooted : Bool) (es : List (List Char)) (n : List Char) : Prop where
  path : b.path = spelled rooted (es ++ [n])
  name : Path.IsName n
  stacked : Stacked rooted es.reverse

def lockName (n : List Char) : List Char := n ++ ".lock".toList

def temporaryName (n : List Char) (suffix : String) : List Char :=
  '.' :: (n ++ '.' :: (suffix.toList ++ ".part".toList))

section Site

variable {b : Binary} {rooted : Bool} {es : List (List Char)} {n : List Char}

theorem Site.dir (h : Site b rooted es n) : Path.dir b.path = spelled rooted es := by
  rw [h.path]
  exact Path.dir_spell h.stacked h.name.plain

theorem Site.target (h : Site b rooted es n) :
    Names (spelled rooted es) b.path (String.ofList n) := by
  rw [h.path]
  exact FileSystem.names_spelled h.stacked h.name

theorem isName_lockName (hn : '/' ∉ n) : Path.IsName (lockName n) := by
  apply Path.isName_of_length
  · rw [lockName, List.length_append, show ".lock".toList.length = 5 from rfl]
    omega
  · rw [lockName, List.mem_append]
    rintro (h | h)
    · exact hn h
    · exact absurd h (by decide)

theorem isName_temporaryName (hn : '/' ∉ n) {suffix : String} (hsuffix : '/' ∉ suffix.toList) :
    Path.IsName (temporaryName n suffix) := by
  apply Path.isName_of_length
  · simp [temporaryName]
    omega
  · simp [temporaryName, hn, hsuffix]

/-- The lock file stands beside the binary. -/
theorem Site.lockPath_eq (h : Site b rooted es n) :
    lockPath b = spelled rooted (es ++ [lockName n]) := by
  rw [lockPath, h.path, spelled, spelled, lockName, ← Path.spell_append, String.ofList_append]
  rfl

theorem Site.lock (h : Site b rooted es n) :
    Names (spelled rooted es) (lockPath b) (String.ofList (lockName n)) := by
  rw [h.lockPath_eq]
  exact FileSystem.names_spelled h.stacked (isName_lockName h.name.plain)

theorem Site.temporaryPath_toList (h : Site b rooted es n) (suffix : String) :
    (temporaryPath b suffix).toList =
      (if spelled rooted es = "/" then [] else Path.spell rooted es) ++
        '/' :: temporaryName n suffix := by
  have hbase : Path.base b.path = String.ofList n := by
    rw [h.path]
    exact Path.base_spell h.name
  simp only [temporaryPath, h.dir, hbase]
  split
  · next hroot => simp [hroot, temporaryName]
  · simp [spelled, temporaryName]

/-- A temporary file stands beside the binary, under a name of its own. -/
theorem Site.temporary (h : Site b rooted es n) {suffix : String} (hsuffix : '/' ∉ suffix.toList) :
    Names (spelled rooted es) (temporaryPath b suffix) (String.ofList (temporaryName n suffix)) := by
  have hname := isName_temporaryName h.name.plain hsuffix
  have hbeside := FileSystem.names_spelled h.stacked hname
  have hparts : FileSystem.parts (temporaryPath b suffix) =
      (Path.elements (if spelled rooted es = "/" then [] else Path.spell rooted es)).map
        String.ofList ++ [String.ofList (temporaryName n suffix)] := by
    rw [FileSystem.parts, h.temporaryPath_toList, Path.elements_append_slash,
      Path.elements_plain hname.plain, List.map_append]
    rfl
  refine ⟨?_, hbeside.notIdle, hbeside.notUp, _, hparts, ?_⟩
  · rw [Path.rooted, h.temporaryPath_toList]
    split
    · next hroot => rw [hroot]; rfl
    · obtain ⟨c, cs, hc⟩ := List.exists_cons_of_ne_nil (Path.spell_ne_nil h.stacked)
      rw [Path.rooted, spelled, String.toList_ofList, hc]
      rfl
  · split
    · next hroot => rw [hroot]; decide
    · rw [FileSystem.parts_spelled]

/-- A binary that was resolved has a cleaned path. -/
theorem clean_of_resolve? {root base : String} {p : Platform} (h : Binary.resolve? root base p = some b) :
    Path.clean b.path = b.path := by
  obtain ⟨name, _, rfl⟩ := Option.map_eq_some_iff.mp h
  have hmem : Binary.directory ∈ [root, Binary.directory, name] := by simp
  exact Path.clean_join hmem (by decide)

end Site

/-! ### Presence -/

section Presence

variable {fs fs' : FileSystem} {b : Binary} {path : String} {e : FileSystem.Entry}

theorem stat_eq_ok : fs.stat path = .ok e ↔ ∃ l, fs.find true path = .ok (l, e) := by
  unfold FileSystem.stat
  cases fs.find true path with
  | error r => simp
  | ok x =>
      obtain ⟨l, e'⟩ := x
      simp [eq_comm]

theorem stat_absent {path : String} (h : ∀ x, fs.find true path ≠ .ok x) :
    (fs.stat path).toOption = none := by
  unfold FileSystem.stat
  cases hfind : fs.find true path with
  | error r => rfl
  | ok x => exact absurd hfind (h x)

/-- Whether a binary is there, and what comes of it. -/
inductive Presence (refusals : Refusals) (fs : FileSystem) (b : Binary) :
    Except Error (Bool × FileSystem) → Prop where
  | missing (found : fs.find true b.path = .error .noEntry) : Presence refusals fs b (.ok (false, fs))
  | unknown {r : FileReason} {e : Error} (found : fs.find true b.path = .error r)
      (other : r ≠ .noEntry) : Presence refusals fs b (.error e)
  | unfit {l : Location} {entry : FileSystem.Entry} {e : Error}
      (found : fs.find true b.path = .ok (l, entry)) (other : entry.isFile = false) :
      Presence refusals fs b (.error e)
  | ready {l : Location} {content : Bytes} {mode : Nat}
      (found : fs.find true b.path = .ok (l, .file content mode))
      (permitted : b.platform.isWindows = true ∨ mode &&& executeBits = executeBits) :
      Presence refusals fs b (.ok (true, fs))
  | repaired {l : Location} {content : Bytes} {mode : Nat}
      (found : fs.find true b.path = .ok (l, .file content mode)) :
      Presence refusals fs b (.ok (true, fs.put l (.file content (mode ||| executableMode))))
  | unrepaired {l : Location} {content : Bytes} {mode : Nat} {r : FileReason} {e : Error}
      (found : fs.find true b.path = .ok (l, .file content mode)) (refused : refusals.chmod = some r) :
      Presence refusals fs b (.error e)

/-- What a look for the binary leads to, by what stands there. -/
theorem presence (refusals : Refusals) (fs : FileSystem) (b : Binary) :
    Presence refusals fs b (present refusals fs b) := by
  unfold present FileSystem.stat
  cases hfind : fs.find true b.path with
  | error r =>
      -- Only a missing entry counts as a binary that is not there.
      have habsent : (Error.file "stat" b.path r).isA .notExist = decide (r = .noEntry) := by
        simp [Error.isA]
      simp only [habsent, decide_eq_true_eq]
      split
      · next hr =>
          subst hr
          exact .missing hfind
      · next hr => exact .unknown hfind hr
  | ok x =>
      obtain ⟨l, entry⟩ := x
      cases entry with
      | directory => exact .unfit hfind rfl
      | link target => exact .unfit hfind rfl
      | file content mode =>
          simp only
          split
          · rw [FileSystem.changeMode, hfind]
            cases hrefused : refusals.chmod with
            | none => exact .repaired hfind
            | some r => exact .unrepaired hfind hrefused
          · next hok =>
              refine .ready hfind ?_
              cases hw : b.platform.isWindows with
              | true => exact Or.inl rfl
              | false => exact Or.inr (by simpa [hw] using hok)

/-- The mode of an installed binary has every execute bit, also when more is
added to it. -/
theorem executeBits_or (mode : Nat) : (mode ||| executableMode) &&& executeBits = executeBits := by
  rw [Nat.and_or_distrib_right]
  apply Nat.eq_of_testBit_eq
  intro i
  have hbits : executableMode &&& executeBits = executeBits := by decide
  rw [hbits, Nat.testBit_or, Nat.testBit_and]
  cases mode.testBit i <;> cases executeBits.testBit i <;> rfl

theorem present_of_ready {l : Location} {content : Bytes} {mode : Nat}
    (hfind : fs.find true b.path = .ok (l, .file content mode))
    (hmode : mode &&& executeBits = executeBits) (refusals : Refusals) :
    present refusals fs b = .ok (true, fs) := by
  simp [present, FileSystem.stat, hfind, hmode]

end Presence

/-! ### Requests -/

/-- What comes of a request that nobody disturbs: a body with status 200, or the
end of the call. -/
theorem fetch_cases (p : Provisioner) (b : Binary) (v : ReleaseVersion) (cancelled : Bool)
    (outcome : Outcome) (suffix : String) (refusals : Refusals) (w : Shared) :
    (fetch p b v ⟨cancelled, { outcome }, suffix, refusals⟩ w).1 = w ∧
      ((∃ e, (fetch p b v ⟨cancelled, { outcome }, suffix, refusals⟩ w).2.1 = .unlock (some e)) ∨
        ∃ body failure, outcome = .response 200 body failure ∧
          (fetch p b v ⟨cancelled, { outcome }, suffix, refusals⟩ w).2.1 = .create v body failure ∧
          requests (fetch p b v ⟨cancelled, { outcome }, suffix, refusals⟩ w).2.2 ≠ []) := by
  unfold fetch
  simp only
  split
  · exact ⟨rfl, Or.inl ⟨_, rfl⟩⟩
  · cases outcome with
    | refused e => exact ⟨rfl, Or.inl ⟨_, rfl⟩⟩
    | response status body failure =>
        simp only
        split
        · next hstatus =>
            refine ⟨rfl, Or.inr ⟨body, failure, by rw [hstatus], rfl, ?_⟩⟩
            simp [requests]
        · exact ⟨rfl, Or.inl ⟨_, rfl⟩⟩

/-! ### A missing binary -/

/-- A binary is missing, and its lock file is somewhere else. -/
structure Pending (fs : FileSystem) (b : Binary) : Prop where
  wellFormed : fs.WellFormed
  legal : IsLegal b.path
  absent : ∀ x, fs.find true b.path ≠ .ok x
  lockApart : fs.Apart b.path true (lockPath b)

section Pending

variable {fs fs' : FileSystem} {b : Binary} {rooted : Bool} {es : List (List Char)} {n : List Char}
variable {l : Location}

/-- The lock file has another name than the binary. -/
theorem lockName_ne (n : List Char) : String.ofList n ≠ String.ofList (lockName n) := by
  intro h
  have hlen := congrArg List.length (String.ofList_inj.mp h)
  rw [lockName, List.length_append, show ".lock".toList.length = 5 from rfl] at hlen
  omega

/-- So has a temporary file. -/
theorem temporaryName_ne (n : List Char) (suffix : String) :
    String.ofList n ≠ String.ofList (temporaryName n suffix) := by
  intro h
  have hlen := congrArg List.length (String.ofList_inj.mp h)
  simp only [temporaryName, List.length_cons, List.length_append] at hlen
  omega

theorem Site.legal (h : Site b rooted es n) (hl : IsLegal b.path) : Legal es := by
  rw [h.path] at hl
  exact fun e he => FileSystem.legal_of_isLegal hl e (List.mem_append_left _ he)

/-- A clean path where there is nothing ends in a name. -/
theorem site_of_missing (hclean : Path.clean b.path = b.path) (hwf : fs.WellFormed)
    (hnone : fs.find true b.path = .error .noEntry) : ∃ rooted es n, Site b rooted es n := by
  rcases Path.clean_cases hclean with ⟨rooted, es, hpath, hs, hup⟩ | ⟨rooted, es, n, hpath, hn, hs⟩
  · -- What leads only upwards is a directory.
    obtain ⟨d, hd⟩ : fs.HasDirectory b.path := by
      rw [hpath]
      exact FileSystem.hasDirectory_upwards hwf hs hup
    rw [hd] at hnone
    cases hnone
  · exact ⟨rooted, es, n, hpath, hn, hs⟩

/-- A missing binary whose lock file leads elsewhere is pending. -/
theorem Site.pending (h : Site b rooted es n) (hwf : fs.WellFormed)
    (hnone : fs.find true b.path = .error .noEntry)
    (hlock : ∀ l, fs.locate true b.path = .ok l → fs.locate true (lockPath b) ≠ .ok l) :
    Pending fs b where
  wellFormed := hwf
  legal := h.target.isLegal hnone
  absent := by
    intro x hx
    rw [hx] at hnone
    cases hnone
  lockApart := FileSystem.apart_of_noEntry hnone hlock

theorem Site.hasDirectory (h : Site b rooted es n) (hl : IsLegal b.path) (hwf : fs.WellFormed)
    {k : Nat} {d : Location} (hr : fs.Reaches (spelled rooted es) k d) :
    fs.HasDirectory (Path.dir b.path) := by
  rw [h.dir]
  exact ⟨d, (FileSystem.find_directory hwf).mpr
    ⟨FileSystem.isLegal_spelled h.stacked (h.legal hl), k, hr⟩⟩

/-- A binary stays pending when another place is touched. -/
theorem Pending.touch (h : Pending fs b) (ht : Touches fs fs' l)
    (hparent : fs.entryAt? (FileSystem.parent l) = some .directory)
    (hother : fs.entryAt? l = none → fs.locate true b.path ≠ .ok l) : Pending fs' b where
  wellFormed := ht.wellFormed h.wellFormed hparent
  legal := h.legal
  absent := ht.find_none h.absent hother
  lockApart := h.lockApart.of_sameTree ht.sameTree

theorem Pending.openOrCreate {mode : Nat} (h : Pending fs b)
    (hopen : fs.openOrCreate (lockPath b) mode = .ok fs') : Pending fs' b := by
  rcases FileSystem.openOrCreate_eq_ok hopen with rfl | ⟨l, hl, _, hparent, htouch, _⟩
  · exact h
  · exact h.touch htouch hparent fun _ hpath => h.lockApart fs (.refl fs) l hpath hl

theorem Site.made (h : Site b rooted es n) (hp : Pending fs b) :
    Made fs rooted es (fs.makeDirectory (Path.dir b.path)) := by
  rw [h.dir]
  exact FileSystem.makeDirectory_made hp.wellFormed h.stacked (h.legal hp.legal)

theorem Pending.makeDirectory (h : Pending fs b) (hs : Site b rooted es n) :
    Pending (fs.makeDirectory (Path.dir b.path)).1 b where
  wellFormed := (hs.made h).grown.wellFormed
  legal := h.legal
  absent := (hs.made h).absent hs.stacked (hs.legal h.legal) hs.target h.absent
  lockApart := (hs.made h).apart hs.stacked (hs.legal h.legal) hs.target hs.lock (lockName_ne n) h.lockApart

/-- A missing binary is found missing, or nobody can tell. -/
theorem Pending.present_cases (h : Pending fs b) (refusals : Refusals) :
    fs.find true b.path = .error .noEntry ∧ present refusals fs b = .ok (false, fs) ∨
      ∃ e, present refusals fs b = .error e := by
  have hp := presence refusals fs b
  generalize present refusals fs b = r at hp
  cases hp with
  | missing found => exact Or.inl ⟨found, rfl⟩
  | unknown _ _ => exact Or.inr ⟨_, rfl⟩
  | unfit found _ | ready found _ | repaired found => exact absurd found (h.absent _)
  | unrepaired found _ => exact absurd found (h.absent _)

end Pending

/-! ### A binary and its release -/

/-- A binary whose path is a clean one. -/
def engine : Binary := { name := "engine", path := "/bin/engine", platform := ⟨"linux", "x64"⟩ }

def releases : Provisioner := .make "https://example.test" "" (fun _ => .ok ⟨"1.2.3"⟩) true

/-- The lock file of a binary is a link to the binary. -/
def lockLink : FileSystem :=
  { entries := [(["bin"], .directory), (["bin", "engine.lock"], .link "engine")] }

/-- A binary whose path is not a clean one. -/
def slashed : Binary := { engine with path := "/bin/engine/" }

end LanguageClient.Provision
