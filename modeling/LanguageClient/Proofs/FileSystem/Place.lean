import LanguageClient.Proofs.FileSystem.Walk

/-! # Places.

A path that ends in a name leads to the directory before the name (`Reaches`)
and from there to the entry (`Names.locate`, `Names.reaches`). Making, changing
and removing a file touches one location (`Touches`), and what other paths lead
to stays as it was. -/

namespace LanguageClient.FileSystem

/-! ### Paths -/

def start (fs : FileSystem) (path : String) : Location :=
  if Path.rooted path then [] else fs.workingDirectory

/-- A path that is looked at. -/
structure IsLegal (path : String) : Prop where
  nonempty : path ≠ ""
  noNull : '\x00' ∉ path.toList

def linkLimit : Nat := 40

section Paths

variable {fs fs' : FileSystem} {follow : Bool} {k : Nat} {d l : Location} {e : Entry}
variable {path dir name : String}

theorem WellFormed.start_directory (hwf : fs.WellFormed) (path : String) :
    fs.entryAt? (fs.start path) = some .directory := by
  unfold start
  split
  · rfl
  · exact hwf.home

theorem start_eq (hs : fs'.workingDirectory = fs.workingDirectory) (path : String) :
    fs'.start path = fs.start path := by
  unfold start
  rw [hs]

theorem locate_eq (h : IsLegal path) :
    fs.locate follow path = fs.walk follow (linkLimit + 1) (fs.start path) (parts path) := by
  have hnull : ¬ path.toList.contains '\x00' = true := by simpa using h.noNull
  rw [locate, if_neg h.nonempty, if_neg hnull]
  rfl

/-- A path is located exactly if it may be looked at and a walk leads there. -/
theorem locate_eq_ok :
    fs.locate follow path = .ok l ↔
      IsLegal path ∧ Walks fs follow linkLimit (fs.start path) (parts path) l := by
  constructor
  · intro h
    have hlegal : IsLegal path := by
      unfold locate at h
      split at h
      · cases h
      · next hne =>
          split at h
          · cases h
          · next hnull => exact ⟨hne, by simpa using hnull⟩
    rw [locate_eq hlegal] at h
    exact ⟨hlegal, Walks.of_walk h⟩
  · rintro ⟨hlegal, h⟩
    rw [locate_eq hlegal]
    exact h.walk_eq

/-- An entry is found exactly where its path is located. -/
theorem find_eq_ok :
    fs.find follow path = .ok (l, e) ↔ fs.locate follow path = .ok l ∧ fs.entryAt? l = some e := by
  unfold find
  cases fs.locate follow path with
  | error r => simp
  | ok l' =>
      simp only [Except.ok.injEq]
      cases he : fs.entryAt? l' with
      | none =>
          simp only [reduceCtorEq, false_iff, not_and]
          rintro rfl
          simp [he]
      | some e' =>
          simp only [Except.ok.injEq, Prod.mk.injEq]
          constructor
          · rintro ⟨rfl, rfl⟩
            exact ⟨rfl, he⟩
          · rintro ⟨rfl, hl⟩
            rw [he] at hl
            exact ⟨rfl, Option.some.inj hl⟩

/-- Trees with the same entries find the same. -/
theorem find_congr (h : ∀ l, fs'.entryAt? l = fs.entryAt? l)
    (hhome : fs'.workingDirectory = fs.workingDirectory) : fs'.find = fs.find := by
  funext follow path
  simp only [find, locate, walk_congr h, hhome, h]

/-- The directory at a path is found at a location, from where `k` more links may
be followed. -/
def Reaches (fs : FileSystem) (dir : String) (k : Nat) (d : Location) : Prop :=
  Treks fs linkLimit (fs.start dir) (parts dir) k d

theorem Reaches.directory (h : fs.Reaches dir k d) (hwf : fs.WellFormed) :
    fs.entryAt? d = some .directory :=
  Treks.directory h hwf (hwf.start_directory dir)

/-- A directory is found at a path exactly if the path reaches it. -/
theorem find_directory (hwf : fs.WellFormed) :
    fs.find true dir = .ok (d, .directory) ↔ IsLegal dir ∧ ∃ k, fs.Reaches dir k d := by
  rw [find_eq_ok, locate_eq_ok]
  constructor
  · rintro ⟨⟨hlegal, hw⟩, hd⟩
    exact ⟨hlegal, Treks.of_walks_directory hw hd⟩
  · rintro ⟨hlegal, k, hr⟩
    refine ⟨⟨hlegal, Walks.of_walk ?_⟩, hr.directory hwf⟩
    exact hr.walk_eq

/-- A path names an entry of the directory at another path. -/
structure Names (dir path name : String) : Prop where
  rooted : Path.rooted path = Path.rooted dir
  notIdle : isIdle name = false
  notUp : name ≠ ".."
  parts : ∃ ps, parts path = ps ++ [name] ∧ moving ps = moving (FileSystem.parts dir)

theorem Names.start_eq (hn : Names dir path name) (fs : FileSystem) :
    fs.start path = fs.start dir := by
  unfold start
  rw [hn.rooted]

/-- A path leads through the directory before its last element. -/
theorem Names.locate (hn : Names dir path name) (hlegal : IsLegal path) (hr : fs.Reaches dir k d)
    (follow : Bool) : fs.locate follow path = fs.walk follow (k + 1) d [name] := by
  obtain ⟨ps, hparts, hmoving⟩ := hn.parts
  have ht : Treks fs linkLimit (fs.start dir) ps k d := by
    rw [← Treks.moving_iff, hmoving, Treks.moving_iff]
    exact hr
  rw [locate_eq hlegal, hn.start_eq, hparts, ht.walk_append (Or.inl (by simp))]

/-- A path with a name at its end is located by reaching the directory, and walking on with the name. -/
theorem Names.reaches (hn : Names dir path name) (h : fs.locate follow path = .ok l) :
    ∃ k d, fs.Reaches dir k d ∧ Walks fs follow k d [name] l := by
  obtain ⟨hlegal, hw⟩ := locate_eq_ok.mp h
  obtain ⟨ps, hparts, hmoving⟩ := hn.parts
  rw [hparts, hn.start_eq] at hw
  obtain ⟨k, d, ht⟩ := Treks.of_walks hw hn.notIdle hn.notUp
  have hr : fs.Reaches dir k d := by
    rw [← Treks.moving_iff, hmoving, Treks.moving_iff] at ht
    exact ht
  rw [hn.locate hlegal hr] at h
  exact ⟨k, d, hr, Walks.of_walk h⟩

/-- Without following it, a name leads to its own place. -/
theorem Names.locate_false (hn : Names dir path name) (h : fs.locate false path = .ok l) :
    ∃ k d, fs.Reaches dir k d ∧ l = d ++ [name] ∧ IsName name := by
  obtain ⟨k, d, hr, hw⟩ := hn.reaches h
  refine ⟨k, d, hr, ?_⟩
  cases hw with
  | idle h _ => rw [hn.notIdle] at h; cases h
  | up _ => exact absurd rfl hn.notUp
  | enter hname _ next => cases next; exact ⟨rfl, hname⟩
  | jump _ _ go _ => simp at go
  | free hname _ _ => exact ⟨rfl, hname⟩
  | file hname _ => exact ⟨rfl, hname⟩
  | link hname _ _ => exact ⟨rfl, hname⟩

end Paths

/-! ### Touching one file -/

/-- Neither a directory nor a link stands at a location. -/
def Vacant (fs : FileSystem) (l : Location) : Prop := ∀ e, fs.entryAt? l = some e → e.isFile = true

/-- Two states differ at most by the file at one location. -/
structure Touches (fs fs' : FileSystem) (l : Location) : Prop where
  others : ∀ m, m ≠ l → fs'.entryAt? m = fs.entryAt? m
  before : fs.Vacant l
  after : fs'.Vacant l
  home : fs'.workingDirectory = fs.workingDirectory

section Touches

variable {fs fs' : FileSystem} {follow : Bool} {l m : Location} {e e' : Entry} {path : String}

theorem vacant_of_none (h : fs.entryAt? l = none) : fs.Vacant l := by
  simp [Vacant, h]

theorem vacant_of_file {content : Bytes} {mode : Nat} (h : fs.entryAt? l = some (.file content mode)) :
    fs.Vacant l := by
  simp [Vacant, h, Entry.isFile]

theorem ne_nil_of_vacant (h : fs.Vacant l) : l ≠ [] := by
  rintro rfl
  cases h _ (entryAt?_nil fs)

/-- Touching a place where no directory and no link stands leaves those alone. -/
theorem Touches.sameTree (h : Touches fs fs' l) : SameTree fs fs' where
  keeps := by
    intro m e he hm
    have hne : m ≠ l := by
      rintro rfl
      rw [h.before e hm] at he
      cases he
    rw [h.others m hne, hm]
  kept := by
    intro m e he hm
    have hne : m ≠ l := by
      rintro rfl
      rw [h.after e hm] at he
      cases he
    rw [← h.others m hne, hm]
  home := h.home

theorem Touches.trans {fs'' : FileSystem} (h : Touches fs fs' l) (h' : Touches fs' fs'' l) :
    Touches fs fs'' l :=
  ⟨fun m hm => (h'.others m hm).trans (h.others m hm), h.before, h'.after, h'.home.trans h.home⟩

/-- A tree stays well formed when a place in one of its directories is touched. -/
theorem Touches.wellFormed (h : Touches fs fs' l) (hwf : fs.WellFormed)
    (hparent : fs.entryAt? (parent l) = some .directory) : fs'.WellFormed := by
  have hdirectory : ∀ m, fs.entryAt? m = some .directory → fs'.entryAt? m = some .directory :=
    fun m => h.sameTree.keeps m _ rfl
  refine ⟨?_, ?_⟩
  · intro m hm he
    by_cases hml : m = l
    · rw [hml]
      exact hdirectory _ hparent
    · rw [h.others m hml] at he
      exact hdirectory _ (hwf.parents m hm he)
  · rw [h.home]
    exact hdirectory _ hwf.home

theorem touches_put {content : Bytes} {mode : Nat} (h : fs.Vacant l) :
    Touches fs (fs.put l (.file content mode)) l where
  others := fun m hm => by rw [entryAt?_put (ne_nil_of_vacant h), if_neg hm]
  before := h
  after := by
    intro e he
    rw [entryAt?_put (ne_nil_of_vacant h), if_pos rfl] at he
    cases he
    rfl
  home := workingDirectory_put

/-- Nothing stands below a file, so only the file goes. -/
theorem touches_erase (hwf : fs.WellFormed) (h : fs.Vacant l) : Touches fs (fs.erase l) l where
  others := by
    intro m hm
    rw [entryAt?_erase]
    split
    · next hprefix =>
        obtain ⟨_, below, rfl⟩ := hprefix
        have hne : below ≠ [] := by
          rintro rfl
          exact hm (List.append_nil l)
        exact (hwf.below_all (fun hd => by cases h _ hd) hne).symm
    · rfl
  before := h
  after := by
    intro e he
    rw [entryAt?_erase, if_pos ⟨ne_nil_of_vacant h, List.prefix_refl l⟩] at he
    cases he
  home := rfl

/-- What a path leads to is found there as long as it is there. -/
theorem find_of_sameTree (h : fs.find follow path = .ok (m, e)) (hs : SameTree fs fs')
    (he : fs'.entryAt? m = some e') : fs'.find follow path = .ok (m, e') := by
  obtain ⟨hlocate, hm⟩ := find_eq_ok.mp h
  obtain ⟨hlegal, hw⟩ := locate_eq_ok.mp hlocate
  rcases hw.transfer hs.symm with hw' | ⟨_, hnone, _⟩
  · rw [← start_eq hs.home] at hw'
    exact find_eq_ok.mpr ⟨locate_eq_ok.mpr ⟨hlegal, hw'⟩, he⟩
  · rw [hm] at hnone
    cases hnone

/-- A file that is changed is found where it was. -/
theorem find_put {content : Bytes} {mode : Nat} (h : fs.find follow path = .ok (l, .file content mode))
    (content' : Bytes) (mode' : Nat) :
    (fs.put l (.file content' mode')).find follow path = .ok (l, .file content' mode') := by
  have hvacant := vacant_of_file (find_eq_ok.mp h).2
  refine find_of_sameTree h (touches_put hvacant).sameTree ?_
  rw [entryAt?_put (ne_nil_of_vacant hvacant), if_pos rfl]

/-- A free place is located in any tree with the same directories and links. -/
theorem locate_of_sameTree (h : fs'.locate follow path = .ok m) (hs : SameTree fs fs')
    (hm : fs.entryAt? m = none) : fs.locate follow path = .ok m := by
  obtain ⟨hlegal, hw⟩ := locate_eq_ok.mp h
  rw [start_eq hs.home] at hw
  rcases hw.transfer hs with hw' | ⟨_, _, content, mode, hfile⟩
  · exact locate_eq_ok.mpr ⟨hlegal, hw'⟩
  · rw [hm] at hfile
    cases hfile

/-- A path that leads to nothing leads to nothing when another file is touched. -/
theorem Touches.find_none (h : Touches fs fs' l) (hnone : ∀ x, fs.find true path ≠ .ok x)
    (hother : fs.entryAt? l = none → fs.locate true path ≠ .ok l) :
    ∀ x, fs'.find true path ≠ .ok x := by
  rintro ⟨m, e⟩ hfind
  by_cases hml : m = l
  · subst hml
    cases hm : fs.entryAt? m with
    | none =>
        have hlocate := (find_eq_ok.mp hfind).1
        exact hother hm (locate_of_sameTree hlocate h.sameTree hm)
    | some e' => exact hnone _ (find_of_sameTree hfind h.sameTree.symm hm)
  · have hm := (find_eq_ok.mp hfind).2
    rw [h.others m hml] at hm
    exact hnone _ (find_of_sameTree hfind h.sameTree.symm hm)

end Touches

/-! ### Operations on files -/

section Operations

variable {fs fs' : FileSystem} {l : Location} {path dir name : String} {content more : Bytes}
variable {mode mode' : Nat}

/-- A path names a file, which is no link to one. -/
def HoldsFile (fs : FileSystem) (path : String) (l : Location) (content : Bytes) (mode : Nat) : Prop :=
  fs.find false path = .ok (l, .file content mode)

theorem HoldsFile.entry (h : fs.HoldsFile path l content mode) :
    fs.entryAt? l = some (.file content mode) := (find_eq_ok.mp h).2

theorem HoldsFile.find_true (h : fs.HoldsFile path l content mode) :
    fs.find true path = .ok (l, .file content mode) := by
  obtain ⟨hlocate, he⟩ := find_eq_ok.mp h
  obtain ⟨hlegal, hw⟩ := locate_eq_ok.mp hlocate
  exact find_eq_ok.mpr ⟨locate_eq_ok.mpr ⟨hlegal, hw.followed (by simp [he])⟩, he⟩

theorem HoldsFile.put (h : fs.HoldsFile path l content mode) (more : Bytes) (mode' : Nat) :
    (fs.put l (.file more mode')).HoldsFile path l more mode' := find_put h more mode'

/-- Adding to a file changes its content and nothing else. -/
theorem HoldsFile.append_eq (h : fs.HoldsFile path l content mode) (more : Bytes) :
    fs.append path more = fs.put l (.file (content ++ more) mode) := by
  rw [append, h.find_true]

/-- Changing the permissions of a file changes nothing else, unless the system refuses. -/
theorem HoldsFile.changeMode_eq (h : fs.HoldsFile path l content mode) (mode' : Nat) :
    fs.changeMode path mode' none = .ok (fs.put l (.file content mode')) := by
  simp only [changeMode, h.find_true]

/-- A refused change names the file. -/
theorem changeMode_refused (path : String) (mode : Nat) (r : FileReason) (fs : FileSystem) :
    ∃ r', fs.changeMode path mode (some r) = .error (.file "chmod" path r') := by
  unfold changeMode
  cases fs.find true path <;> exact ⟨_, rfl⟩

theorem HoldsFile.remove_eq (h : fs.HoldsFile path l content mode) : fs.remove path = fs.erase l := by
  rw [remove, h]

/-- A new file is made where its path leads without following a link, and where nothing stood. -/
theorem createNew_eq_ok (h : fs.createNew path mode = .ok fs') :
    ∃ l, fs.locate false path = .ok l ∧ fs.entryAt? l = none ∧ fs' = fs.put l (.file [] mode) := by
  unfold createNew at h
  split at h
  · cases h
  · next l hl =>
      split at h
      · cases h
      · next hnone =>
          cases h
          exact ⟨l, hl, by simpa using hnone, rfl⟩

/-- What leads somewhere behind a new file led there before. -/
theorem locate_eq_of_touches (h : Touches fs fs' l) (hl : fs.locate true path = .ok l)
    {m : Location} (hm : fs'.locate true path = .ok m) : m = l := by
  obtain ⟨hlegal, hw⟩ := locate_eq_ok.mp hm
  rw [start_eq h.home] at hw
  rw [locate_eq hlegal] at hl
  rcases hw.transfer h.sameTree with hw' | ⟨hw', _⟩
  · rw [hw'.walk_eq] at hl
    exact Except.ok.inj hl
  · rw [hw'] at hl
    cases hl

/-- Opening a file changes nothing, or makes an empty one where its path leads. -/
theorem openOrCreate_eq_ok (h : fs.openOrCreate path mode = .ok fs') :
    fs' = fs ∨ ∃ l, fs.locate true path = .ok l ∧ fs.entryAt? l = none ∧
      fs.entryAt? (parent l) = some .directory ∧ Touches fs fs' l ∧
      fs'.find true path = .ok (l, .file [] mode) := by
  unfold openOrCreate at h
  split at h
  · cases h
  · next l hl =>
      split at h
      · cases h
      · cases h
        exact Or.inl rfl
      · next hnone =>
          have hvacant := vacant_of_none hnone
          split at h
          · next hparent =>
              simp only at h
              split at h
              · next m hm =>
                  cases h
                  -- The file is looked for again under its path, and is where it was put.
                  have hml : m = l := locate_eq_of_touches (touches_put hvacant) hl hm
                  subst hml
                  refine Or.inr ⟨m, hl, hnone, hparent, touches_put hvacant, ?_⟩
                  refine find_eq_ok.mpr ⟨hm, ?_⟩
                  rw [entryAt?_put (ne_nil_of_vacant hvacant), if_pos rfl]
              · cases h
          · cases h
          · cases h

theorem locate_of_openOrCreate (h : fs.openOrCreate path mode = .ok fs') :
    ∃ l, fs.locate true path = .ok l := by
  unfold openOrCreate at h
  split at h
  · cases h
  · next l hl => exact ⟨l, hl⟩

/-- A rename moves an entry to the place of another path, where no directory stands. -/
theorem rename_eq_ok {old new : String} (h : fs.rename old new = .ok fs') :
    ∃ source e target, fs.find false old = .ok (source, e) ∧ fs.locate false new = .ok target ∧
      fs.entryAt? target ≠ some .directory ∧ fs' = (fs.erase source).put target e := by
  unfold rename at h
  split at h
  · cases h
  · next source e hsource =>
      split at h
      · cases h
      · next target htarget =>
          split at h
          · cases h
          · next hdir =>
              cases h
              exact ⟨source, e, target, hsource, htarget, hdir, rfl⟩

/-- A new file stands in a directory. -/
theorem Names.parent_directory (hn : Names dir path name) (hwf : fs.WellFormed)
    (h : fs.locate false path = .ok l) : fs.entryAt? (parent l) = some .directory := by
  obtain ⟨k, d, hr, rfl, _⟩ := hn.locate_false h
  rw [parent, List.dropLast_concat]
  exact hr.directory hwf

/-- A path that reaches a directory still does so with more directories and links around. -/
theorem Reaches.mono {k : Nat} {d : Location} (h : fs.Reaches dir k d) (hk : KeepsTree fs fs')
    (hhome : fs'.workingDirectory = fs.workingDirectory) : fs'.Reaches dir k d := by
  unfold Reaches
  rw [start_eq hhome]
  exact Treks.mono h hk

/-- A file that was made is there. -/
theorem Names.holdsFile_of_put (hn : Names dir path name) (h : fs.locate false path = .ok l)
    (hl : fs.entryAt? l = none) (content : Bytes) (mode : Nat) :
    (fs.put l (.file content mode)).HoldsFile path l content mode := by
  have htouch : Touches fs (fs.put l (.file content mode)) l := touches_put (vacant_of_none hl)
  have hself : entryAt? (fs.put l (.file content mode)) l = some (.file content mode) := by
    rw [entryAt?_put (ne_nil_of_vacant (vacant_of_none hl)), if_pos rfl]
  have hlegal := (locate_eq_ok.mp h).1
  obtain ⟨k, d, hr, rfl, hname⟩ := hn.locate_false h
  have hreach := hr.mono htouch.sameTree.keeps htouch.home
  refine find_eq_ok.mpr ⟨?_, hself⟩
  rw [hn.locate hlegal hreach]
  exact (Walks.file hname hself).walk_eq

end Operations

/-! ### Different places -/

/-- Two paths lead to different places, whatever files there are. -/
def Apart (fs : FileSystem) (path : String) (follow : Bool) (other : String) : Prop :=
  ∀ fs', SameTree fs fs' → ∀ l, fs'.locate true path = .ok l → fs'.locate follow other ≠ .ok l

section Apart

variable {fs fs' : FileSystem} {follow : Bool} {l : Location} {path other dir name : String}

theorem Apart.of_sameTree (h : fs.Apart path follow other) (hs : SameTree fs fs') :
    fs'.Apart path follow other := fun fs'' hs' => h fs'' (hs.trans hs')

/-- Paths that lead to different places now always do, if there is nothing at the
first. -/
theorem apart_of_noEntry (hnone : fs.find true path = .error .noEntry)
    (h : ∀ l, fs.locate true path = .ok l → fs.locate follow other ≠ .ok l) :
    fs.Apart path follow other := by
  intro fs' hs l hpath hother
  obtain ⟨hlegal, hw⟩ := locate_eq_ok.mp hpath
  rw [start_eq hs.home] at hw
  rcases hw.transfer hs with hw' | ⟨hw', _⟩
  · have hpath' : fs.locate true path = .ok l := locate_eq_ok.mpr ⟨hlegal, hw'⟩
    cases hl : fs.entryAt? l with
    | none => exact h l hpath' (locate_of_sameTree hother hs hl)
    | some e =>
        rw [find_eq_ok.mpr ⟨hpath', hl⟩] at hnone
        cases hnone
  · rw [find, locate_eq hlegal, hw'] at hnone
    cases hnone

/-- A name leads to its own place if no directory or link stands there. -/
theorem Names.locate_vacant (hn : Names dir path name) (h : fs.locate follow path = .ok l)
    (hvacant : ∀ k d, fs.Reaches dir k d → fs.Vacant (d ++ [name])) :
    ∃ k d, fs.Reaches dir k d ∧ l = d ++ [name] := by
  obtain ⟨k, d, hr, hw⟩ := hn.reaches h
  refine ⟨k, d, hr, ?_⟩
  cases hw with
  | idle h _ => rw [hn.notIdle] at h; cases h
  | up _ => exact absurd rfl hn.notUp
  | enter _ entry _ => cases hvacant k d hr _ entry
  | jump _ entry _ _ => cases hvacant (_ + 1) d hr _ entry
  | free _ _ _ => rfl
  | file _ _ => rfl
  | link _ entry _ => cases hvacant k d hr _ entry

end Apart

/-! ### Moving a file into place -/

/-- A path leads to no directory, whatever number of links is allowed. -/
def NoDirectory (fs : FileSystem) (path : String) : Prop :=
  ∀ k k' d, ¬ Treks fs k (fs.start path) (parts path) k' d

section Install

variable {fs fs' : FileSystem} {source target : Location} {path dir name : String}
variable {content : Bytes} {mode : Nat}

theorem NoDirectory.of_sameTree (h : fs.NoDirectory path) (hs : SameTree fs fs') :
    fs'.NoDirectory path := by
  intro k k' d ht
  rw [start_eq hs.home] at ht
  exact h k k' d (ht.mono hs.kept)

theorem Names.nonempty (hn : Names dir path name) : path ≠ "" := by
  rintro rfl
  obtain ⟨ps, hparts, _⟩ := hn.parts
  have hlast : name = "" := by
    have hgot := congrArg List.getLast? hparts
    rw [List.getLast?_concat] at hgot
    exact (Option.some.inj hgot).symm
  exact absurd hn.notIdle (by rw [hlast]; decide)

theorem Names.isLegal (hn : Names dir path name) (h : fs.find true path = .error .noEntry) :
    IsLegal path := by
  refine ⟨hn.nonempty, fun hnull => ?_⟩
  have hcontains : path.toList.contains '\x00' = true := by simpa using hnull
  rw [find, FileSystem.locate, if_neg hn.nonempty, if_pos hcontains] at h
  cases h

/-- What is missing is no directory. -/
theorem Names.noDirectory (hn : Names dir path name) (hwf : fs.WellFormed)
    (h : fs.find true path = .error .noEntry) : fs.NoDirectory path := by
  intro k k' d ht
  have hlegal := hn.isLegal h
  have hd := ht.directory hwf (hwf.start_directory path)
  rcases ht.walk_ok_or_loop (linkLimit + 1) with hw | hw
  · have hfind : fs.find true path = .ok (d, .directory) := by
      rw [find_eq_ok, locate_eq hlegal]
      exact ⟨hw, hd⟩
    rw [hfind] at h
    cases h
  · rw [find, locate_eq hlegal, hw] at h
    cases h

/-- The state in which a file has been moved over another name. -/
theorem entryAt?_moved (hwf : fs.WellFormed) (hsource : fs.Vacant source) (htarget : target ≠ [])
    (e : Entry) (l : Location) :
    entryAt? ((fs.erase source).put target e) l =
      if l = target then some e else if l = source then none else fs.entryAt? l := by
  have ht := touches_erase hwf hsource
  rw [entryAt?_put htarget]
  split
  · rfl
  · split
    · next he =>
        subst he
        rw [entryAt?_erase, if_pos ⟨ne_nil_of_vacant hsource, List.prefix_refl l⟩]
    · next hne => exact ht.others l hne

/-- A file may take the place of what is no directory. -/
theorem wellFormed_moved (hwf : fs.WellFormed) (hsource : fs.Vacant source) (htarget : target ≠ [])
    (hparent : fs.entryAt? (parent target) = some .directory)
    (hdir : fs.entryAt? target ≠ some .directory) (e : Entry) :
    ((fs.erase source).put target e).WellFormed := by
  have hentry := entryAt?_moved hwf hsource htarget e
  -- No directory is lost: neither place is one.
  have hkeep : ∀ l, fs.entryAt? l = some .directory →
      entryAt? ((fs.erase source).put target e) l = some .directory := by
    intro l hl
    have hlt : l ≠ target := by
      rintro rfl
      exact hdir hl
    have hls : l ≠ source := by
      rintro rfl
      cases hsource _ hl
    rw [hentry, if_neg hlt, if_neg hls, hl]
  refine ⟨fun l hl he => ?_, ?_⟩
  -- The directory around the target was there, and those around all others are kept.
  · rw [hentry] at he
    split at he
    · next hlt =>
        rw [hlt]
        exact hkeep _ hparent
    · split at he
      · exact absurd rfl he
      · exact hkeep _ (hwf.parents l hl he)
  · rw [workingDirectory_put]
    exact hkeep _ hwf.home

/-- **A file that is moved over a name is found there**, if the name led to no
directory. -/
theorem Names.find_moved (hn : Names dir path name) (hwf : fs.WellFormed)
    (hsource : fs.Vacant source) (htarget : fs.locate false path = .ok target)
    (hdir : fs.entryAt? target ≠ some .directory) (hno : fs.NoDirectory path) :
    ((fs.erase source).put target (.file content mode)).find true path =
      .ok (target, .file content mode) := by
  obtain ⟨k, d, hr, rfl, hname⟩ := hn.locate_false htarget
  have hlegal := (locate_eq_ok.mp htarget).1
  have hne : d ++ [name] ≠ [] := by simp
  have hentry := entryAt?_moved hwf hsource hne (.file content mode)
  generalize hfs' : (fs.erase source).put (d ++ [name]) (.file content mode) = fs' at hentry
  have hhome : fs'.workingDirectory = fs.workingDirectory := by
    rw [← hfs', workingDirectory_put]
    rfl
  have hkeep : ∀ l e, l ≠ d ++ [name] → e.isFile = false → fs.entryAt? l = some e →
      fs'.entryAt? l = some e := by
    intro l e hl he hle
    have hs : l ≠ source := by
      rintro rfl
      rw [hsource e hle] at he
      cases he
    rw [hentry, if_neg hl, if_neg hs, hle]
  -- The way to the parent is as before, unless it leads through the link that is replaced.
  rcases Treks.avoid hr hkeep hdir with hr' | ⟨at', name', link, j, j', d', hx, hlink, ht⟩
  · have hreach : fs'.Reaches dir k d := by
      unfold Reaches
      rw [FileSystem.start_eq hhome]
      exact hr'
    have hself : fs'.entryAt? (d ++ [name]) = some (.file content mode) := by
      rw [hentry, if_pos rfl]
    rw [find_eq_ok, hn.locate hlegal hreach]
    exact ⟨(Walks.file hname hself).walk_eq, hself⟩
  · -- The name itself leads to a directory through the link.
    obtain ⟨rfl, hlast⟩ := List.append_inj' hx rfl
    cases List.singleton_inj.mp hlast
    obtain ⟨ps, hparts, hmoving⟩ := hn.parts
    have hway : Treks fs (linkLimit + (j + 1)) (fs.start path) ps (k + (j + 1)) d := by
      rw [hn.start_eq, ← Treks.moving_iff, hmoving, Treks.moving_iff]
      exact hr.add (j + 1)
    have hlast : Treks fs (k + (j + 1)) d [name] (k + j') d' := by
      refine .jump (k := k + j) hname hlink ?_
      rw [List.append_nil, Nat.add_comm k j, Nat.add_comm k j']
      exact ht.add k
    exact absurd (hparts ▸ hway.append hlast) (hno _ _ _)

end Install

end LanguageClient.FileSystem
