import LanguageClient.Proofs.FileSystem.Place
import LanguageClient.Proofs.Path

/-! # Making directories.

For a cleaned path, making a directory with those above it makes nothing but
directories on the way to it. If it succeeds, the directory was there and
nothing was made, or it is new and empty; if it fails, there is no such
directory (`makeAll_made`). -/

namespace LanguageClient.FileSystem

open LanguageClient.Path (Stacked spell)

/-! ### Cleaned paths -/

def spelled (rooted : Bool) (es : List (List Char)) : String := String.ofList (spell rooted es)

section Spelled

variable {rooted : Bool} {es : List (List Char)} {n : List Char}

theorem isIdle_ofList (e : List Char) : isIdle (String.ofList e) = (e.isEmpty || Path.isDot e) := by
  have hnil : String.ofList e = "" ↔ e = [] := by
    rw [← String.ofList_nil, String.ofList_inj]
  have hdot : String.ofList e = "." ↔ e = ['.'] := by
    rw [show ("." : String) = String.ofList ['.'] from rfl, String.ofList_inj]
  rw [Bool.eq_iff_iff]
  simp only [isIdle, Bool.or_eq_true, decide_eq_true_eq, hnil, hdot, List.isEmpty_iff,
    Path.isDot_iff]

theorem parts_spelled (rooted : Bool) (es : List (List Char)) :
    parts (spelled rooted es) = (Path.elements (spell rooted es)).map String.ofList := by
  rw [parts, spelled, String.toList_ofList]

theorem moving_map (es : List (List Char)) :
    moving (es.map String.ofList) =
      (es.filter fun e => !(e.isEmpty || Path.isDot e)).map String.ofList := by
  rw [moving, List.filter_map]
  congr 2
  funext e
  rw [Function.comp_apply, isIdle_ofList]

theorem moving_parts_spelled (hs : Stacked rooted es.reverse) :
    moving (parts (spelled rooted es)) = es.map String.ofList := by
  rw [parts_spelled, moving_map, Path.filter_elements_spell hs]

theorem rooted_spelled (hs : Stacked rooted es.reverse) : Path.rooted (spelled rooted es) = rooted := by
  rw [Path.rooted, spelled, String.toList_ofList, Path.isRooted_spell hs]

/-- A path with one more name in it names an entry of the directory. -/
theorem names_spelled (hs : Stacked rooted es.reverse) (hn : Path.IsName n) :
    Names (spelled rooted es) (spelled rooted (es ++ [n])) (String.ofList n) where
  rooted := by
    have hs' : Stacked rooted (es ++ [n]).reverse := by
      rw [List.reverse_append]
      exact .name hn hs
    rw [rooted_spelled hs', rooted_spelled hs]
  notIdle := by
    have hempty : n.isEmpty = false := by simpa using hn.nonempty
    rw [isIdle_ofList, hempty, hn.notDot]
    rfl
  notUp := by
    intro h
    have hup : n = ['.', '.'] := by
      rw [show (".." : String) = String.ofList ['.', '.'] from rfl, String.ofList_inj] at h
      exact h
    exact absurd hn.notDotDot (by rw [hup]; decide)
  -- The elements of the directory, and then the name.
  parts := by
    refine ⟨(Path.lead rooted ++ es).map String.ofList, ?_, ?_⟩
    · rw [parts_spelled, Path.elements_spell_concat hs hn.plain, List.map_append]
      rfl
    · rw [moving_parts_spelled hs, moving_map, List.filter_append]
      have hlead : (Path.lead rooted).filter (fun e => !(e.isEmpty || Path.isDot e)) = [] := by
        cases rooted <;> rfl
      rw [hlead, List.nil_append, Path.filter_of_stacked hs]

/-- The parent of a path that ends in a name. -/
theorem parentPath_spelled (hs : Stacked rooted es.reverse) (hn : Path.IsName n) :
    parentPath (spelled rooted (es ++ [n])) = if es = [] then "" else spelled rooted es := by
  rw [parentPath, spelled, String.toList_ofList, Path.dropWhile_slash_spell hn.nonempty hn.plain,
    Path.dropWhile_reverse_spell hn.plain]
  split
  · next he =>
      subst he
      cases rooted <;> rfl
  · next he =>
      obtain ⟨init, last, rfl⟩ := (List.eq_nil_or_concat es).resolve_left he
      rw [List.concat_eq_append] at hs ⊢
      have hlast := hs.plain last (by simp)
      rw [Path.before, ← List.append_assoc, Path.joinElements_concat_nil (by simp),
        ← Path.spell_concat, List.reverse_append, List.reverse_singleton, List.singleton_append,
        List.dropWhile_cons_of_pos rfl, Path.dropWhile_slash_spell hlast.1 hlast.2.1,
        List.reverse_reverse]
      rfl

/-- Elements without an octet that no path may have. -/
def Legal (es : List (List Char)) : Prop := ∀ e ∈ es, '\x00' ∉ e

/-- A clean path of legal elements may be looked at. -/
theorem isLegal_spelled (hs : Stacked rooted es.reverse) (hl : Legal es) :
    IsLegal (spelled rooted es) where
  nonempty := by
    intro h
    rw [spelled, ← String.ofList_nil, String.ofList_inj] at h
    exact Path.spell_ne_nil hs h
  noNull := by
    rw [spelled, String.toList_ofList]
    have hjoin : '\x00' ∉ Path.joinElements es := by
      intro h
      rcases Path.mem_joinElements h with h | ⟨e, he, hc⟩
      · cases h
      · exact hl e he hc
    unfold spell
    split
    · simpa using hjoin
    · split
      · decide
      · exact hjoin

/-- The elements of a path that may be looked at are legal. -/
theorem legal_of_isLegal (hl : IsLegal (spelled rooted es)) : Legal es := by
  intro e he hc
  have hnull := hl.noNull
  rw [spelled, String.toList_ofList] at hnull
  have hjoin := Path.mem_joinElements_of_mem he hc
  unfold spell at hnull
  split at hnull
  · exact hnull (List.mem_cons_of_mem _ hjoin)
  · split at hnull
    · next hempty =>
        rw [List.isEmpty_iff.mp hempty] at he
        cases he
    · exact hnull hjoin

/-- What leads only upwards leads to a directory. -/
theorem treks_upwards (fs : FileSystem) (k : Nat) {ps : List String}
    (h : ∀ p ∈ ps, isIdle p = true ∨ p = "..") (dir : Location) : ∃ d, Treks fs k dir ps k d := by
  induction ps generalizing dir with
  | nil => exact ⟨dir, .done⟩
  | cons p ps ih =>
      have hps := ih fun q hq => h q (List.mem_cons_of_mem p hq)
      rcases h p List.mem_cons_self with hidle | rfl
      · obtain ⟨d, hd⟩ := hps dir
        exact ⟨d, .idle hidle hd⟩
      · obtain ⟨d, hd⟩ := hps (parent dir)
        exact ⟨d, .up hd⟩

end Spelled

/-! ### Making directories -/

def HasDirectory (fs : FileSystem) (path : String) : Prop := ∃ d, fs.find true path = .ok (d, .directory)

/-- A state has grown by directories on the way to a path. -/
structure Grown (fs fs' : FileSystem) (rooted : Bool) (es : List (List Char)) : Prop where
  home : fs'.workingDirectory = fs.workingDirectory
  wellFormed : fs'.WellFormed
  entries : ∀ l, fs'.entryAt? l = fs.entryAt? l ∨ fs.entryAt? l = none ∧
    ∃ i, fs'.find true (spelled rooted (es.take i)) = .ok (l, .directory)

/-- What making a directory gives: it was there, or it is new and empty, or
there is none. -/
structure Made (fs : FileSystem) (rooted : Bool) (es : List (List Char))
    (r : FileSystem × Option Error) : Prop where
  grown : Grown fs r.1 rooted es
  success : r.2 = none → r.1 = fs ∧ fs.HasDirectory (spelled rooted es) ∨
    ¬ fs.HasDirectory (spelled rooted es) ∧
      ∃ d, r.1.find true (spelled rooted es) = .ok (d, .directory) ∧
        ∀ name, entryAt? r.1 (d ++ [name]) = none
  failure : r.2 ≠ none → ¬ r.1.HasDirectory (spelled rooted es)

section Making

variable {fs fs' : FileSystem} {rooted : Bool} {es : List (List Char)} {n : List Char}

theorem Grown.refl (hwf : fs.WellFormed) (rooted : Bool) (es : List (List Char)) :
    Grown fs fs rooted es := ⟨rfl, hwf, fun _ => Or.inl rfl⟩

theorem Made.refl (hwf : fs.WellFormed) (h : fs.HasDirectory (spelled rooted es)) :
    Made fs rooted es (fs, none) :=
  ⟨.refl hwf rooted es, fun _ => Or.inl ⟨rfl, h⟩, fun hne => absurd rfl hne⟩

theorem Made.hasDirectory {r : FileSystem × Option Error} (h : Made fs rooted es r)
    (hok : r.2 = none) : r.1.HasDirectory (spelled rooted es) := by
  rcases h.success hok with ⟨he, hd⟩ | ⟨_, d, hd, _⟩
  · rw [he]
    exact hd
  · exact ⟨d, hd⟩

/-- A path without names leads to a directory. -/
theorem hasDirectory_upwards (hwf : fs.WellFormed) (hs : Stacked rooted es.reverse)
    (h : ∀ e ∈ es, e = ['.', '.']) : fs.HasDirectory (spelled rooted es) := by
  have hlegal : IsLegal (spelled rooted es) := isLegal_spelled hs fun e he => by rw [h e he]; decide
  have hup : ∀ p ∈ moving (parts (spelled rooted es)), isIdle p = true ∨ p = ".." := by
    rw [moving_parts_spelled hs]
    intro p hp
    obtain ⟨e, he, rfl⟩ := List.mem_map.mp hp
    rw [h e he]
    exact Or.inr rfl
  obtain ⟨d, hd⟩ := treks_upwards fs linkLimit hup (fs.start (spelled rooted es))
  exact ⟨d, (find_directory hwf).mpr ⟨hlegal, _, Treks.moving_iff.mp hd⟩⟩

/-- A directory stands in a directory. -/
theorem hasDirectory_of_concat (hwf : fs.WellFormed) (hs : Stacked rooted es.reverse)
    (hn : Path.IsName n) (h : fs.HasDirectory (spelled rooted (es ++ [n]))) :
    fs.HasDirectory (spelled rooted es) := by
  obtain ⟨d, hd⟩ := h
  have hlocate := (find_eq_ok.mp hd).1
  have hlegal := legal_of_isLegal (locate_eq_ok.mp hlocate).1
  obtain ⟨k, d', hr, _⟩ := (names_spelled hs hn).reaches hlocate
  have hparent : Legal es := fun e he => hlegal e (List.mem_append_left _ he)
  exact ⟨d', (find_directory hwf).mpr ⟨isLegal_spelled hs hparent, k, hr⟩⟩

theorem Grown.concat (h : Grown fs fs' rooted es) (n : List Char) :
    Grown fs fs' rooted (es ++ [n]) := by
  refine ⟨h.home, h.wellFormed, fun l => (h.entries l).imp_right ?_⟩
  rintro ⟨hnone, i, hfind⟩
  refine ⟨hnone, min i es.length, ?_⟩
  rw [List.take_append_of_le_length (Nat.min_le_right i es.length), ← List.take_eq_take_min]
  exact hfind

/-- A directory is put where nothing was. -/
theorem wellFormed_putDirectory {l : Location} (hwf : fs.WellFormed) (hl : l ≠ [])
    (hparent : fs.entryAt? (parent l) = some .directory) : (fs.put l .directory).WellFormed := by
  have hkeep : ∀ m, fs.entryAt? m = some .directory →
      entryAt? (fs.put l .directory) m = some .directory := by
    intro m hm
    rw [entryAt?_put hl]
    split
    · rfl
    · exact hm
  refine ⟨?_, ?_⟩
  · intro m hm he
    rw [entryAt?_put hl] at he
    split at he
    · next hml =>
        rw [hml]
        exact hkeep _ hparent
    · exact hkeep _ (hwf.parents m hm he)
  · rw [workingDirectory_put]
    exact hkeep _ hwf.home

/-- A new directory is found, and it is empty. -/
theorem putDirectory_made {mid : FileSystem} {d : Location} {k : Nat}
    (hs : Stacked rooted es.reverse) (hn : Path.IsName n) (hlegal : Legal (es ++ [n]))
    (hmid : Made fs rooted es (mid, none)) (hno : ¬ fs.HasDirectory (spelled rooted (es ++ [n])))
    (hr : mid.Reaches (spelled rooted es) k d) (hname : IsName (String.ofList n))
    (he : mid.entryAt? (d ++ [String.ofList n]) = none) :
    Made fs rooted (es ++ [n]) (mid.put (d ++ [String.ofList n]) .directory, none) := by
  have hnames := names_spelled hs hn
  have hs' : Stacked rooted (es ++ [n]).reverse := by
    rw [List.reverse_append]
    exact .name hn hs
  have hwf : mid.WellFormed := hmid.grown.wellFormed
  have hput : ∀ l, entryAt? (mid.put (d ++ [String.ofList n]) .directory) l =
      if l = d ++ [String.ofList n] then some .directory else mid.entryAt? l :=
    fun l => entryAt?_put (by simp)
  have hparent : mid.entryAt? (parent (d ++ [String.ofList n])) = some .directory := by
    rw [parent, List.dropLast_concat]
    exact hr.directory hwf
  have hwf' := wellFormed_putDirectory hwf (by simp) hparent
  have hkeeps : KeepsTree mid (mid.put (d ++ [String.ofList n]) .directory) := by
    intro l e _ hle
    rw [hput, if_neg (by rintro rfl; rw [he] at hle; cases hle), hle]
  have hfind : (mid.put (d ++ [String.ofList n]) .directory).find true (spelled rooted (es ++ [n])) =
      .ok (d ++ [String.ofList n], .directory) := by
    have hself : entryAt? (mid.put (d ++ [String.ofList n]) .directory) (d ++ [String.ofList n]) =
        some .directory := by rw [hput, if_pos rfl]
    refine find_eq_ok.mpr ⟨?_, hself⟩
    rw [hnames.locate (isLegal_spelled hs' hlegal) (hr.mono hkeeps workingDirectory_put)]
    exact (Walks.enter hname hself .done).walk_eq
  have hbefore := hmid.grown.concat n
  refine ⟨⟨?_, hwf', ?_⟩, ?_, by simp⟩
  · exact workingDirectory_put.trans hbefore.home
  · -- What is new is the last directory, or was made on the way to it.
    intro l
    rw [hput]
    split
    · next hl =>
        subst hl
        refine Or.inr ⟨?_, (es ++ [n]).length, by rw [List.take_length]; exact hfind⟩
        rcases hbefore.entries (d ++ [String.ofList n]) with h | ⟨h, _⟩
        · exact h ▸ he
        · exact h
    · rcases hbefore.entries l with hsame | ⟨hnone, i, hi⟩
      · exact Or.inl hsame
      · obtain ⟨hl, k', hr'⟩ := (find_directory hwf).mp hi
        exact Or.inr ⟨hnone, i, (find_directory hwf').mpr ⟨hl, k', hr'.mono hkeeps workingDirectory_put⟩⟩
  · intro _
    refine Or.inr ⟨hno, _, hfind, fun name => ?_⟩
    rw [hput, if_neg (by simp)]
    exact hwf.below (by rw [he]; simp) name

/-- Making one directory in another that is there. -/
theorem makeOne_made {mid : FileSystem} (hs : Stacked rooted es.reverse) (hn : Path.IsName n)
    (hlegal : Legal (es ++ [n])) (hmid : Made fs rooted es (mid, none))
    (hno : ¬ fs.HasDirectory (spelled rooted (es ++ [n]))) :
    Made fs rooted (es ++ [n]) (mid.makeOne (spelled rooted (es ++ [n]))) := by
  have hnames := names_spelled hs hn
  have hs' : Stacked rooted (es ++ [n]).reverse := by
    rw [List.reverse_append]
    exact .name hn hs
  have hlegal' := isLegal_spelled hs' hlegal
  have hwf : mid.WellFormed := hmid.grown.wellFormed
  obtain ⟨d, hd⟩ := hmid.hasDirectory rfl
  obtain ⟨_, k, hr⟩ := (find_directory hwf).mp hd
  -- Either nothing has changed, or there is nothing in the directory.
  have hempty : ∀ e, mid.entryAt? (d ++ [String.ofList n]) = some e → mid = fs := by
    intro e he
    rcases hmid.success rfl with ⟨heq, _⟩ | ⟨_, d', hd', hbelow⟩
    · exact heq
    · cases hd.symm.trans hd'
      rw [hbelow] at he
      cases he
  have hnot : ∀ e, mid.entryAt? (d ++ [String.ofList n]) = some e →
      ¬ mid.HasDirectory (spelled rooted (es ++ [n])) := by
    intro e he
    rw [hempty e he]
    exact hno
  by_cases hname : IsName (String.ofList n)
  · have hlocate : mid.locate false (spelled rooted (es ++ [n])) = .ok (d ++ [String.ofList n]) := by
      rw [hnames.locate hlegal' hr, walk_false_name hname]
    unfold makeOne
    rw [hlocate]
    simp only
    split
    · next he =>
        have hhas : mid.HasDirectory (spelled rooted (es ++ [n])) := by
          refine ⟨_, find_eq_ok.mpr ⟨?_, he⟩⟩
          rw [hnames.locate hlegal' hr]
          exact (Walks.enter hname he .done).walk_eq
        exact absurd hhas (hnot _ he)
    · next e _ he => exact ⟨hmid.grown.concat n, by simp, fun _ => hnot _ he⟩
    · next he => exact putDirectory_made hs hn hlegal hmid hno hr hname he
  · have hlong : ∀ follow, mid.locate follow (spelled rooted (es ++ [n])) = .error .nameTooLong := by
      intro follow
      rw [hnames.locate hlegal' hr]
      rcases name_cases (String.ofList n) with h | h | h | ⟨hidle, hup, hlong⟩
      · rw [hnames.notIdle] at h
        cases h
      · exact absurd h hnames.notUp
      · exact absurd h hname
      · exact walk_long hidle hup hlong
    rw [makeOne, hlong]
    refine ⟨hmid.grown.concat n, by simp, ?_⟩
    rintro - ⟨d', hd'⟩
    rw [find, hlong] at hd'
    cases hd'

/-- **Making a directory with those above it.** -/
theorem makeAll_made {depth : Nat} (hwf : fs.WellFormed) (hs : Stacked rooted es.reverse)
    (hlegal : Legal es) (hdepth : es.length < depth) :
    Made fs rooted es (makeAll (spelled rooted es) depth fs) := by
  induction depth generalizing es with
  | zero => omega
  | succ depth ih =>
      unfold makeAll
      split
      · next d hd => exact .refl hwf ⟨d, hd⟩
      · next hne hfind =>
          refine ⟨.refl hwf rooted es, by simp, ?_⟩
          rintro - ⟨d, hd⟩
          cases hfind.symm.trans hd
          exact hne d rfl
      · next r hfind =>
          have hno : ¬ fs.HasDirectory (spelled rooted es) := by
            rintro ⟨d, hd⟩
            rw [hfind] at hd
            cases hd
          -- What leads only upwards is there, so the last element is a name.
          rcases Path.stacked_cases hs with hup | ⟨init, n, rfl, hn, hinit⟩
          · exact absurd (hasDirectory_upwards hwf hs hup) hno
          · have hinitLegal : Legal init := fun e he => hlegal e (List.mem_append_left _ he)
            have hparent : Made fs rooted init
                (if parentPath (spelled rooted (init ++ [n])) = "" then (fs, none)
                  else makeAll (parentPath (spelled rooted (init ++ [n]))) depth fs) := by
              rw [parentPath_spelled hinit hn]
              by_cases hnil : init = []
              · subst hnil
                rw [if_pos (if_pos rfl)]
                exact .refl hwf (hasDirectory_upwards hwf hinit (by simp))
              · rw [if_neg hnil, if_neg (isLegal_spelled hinit hinitLegal).nonempty]
                refine ih hinit hinitLegal ?_
                rw [List.length_append, List.length_singleton] at hdepth
                omega
            split
            · next mid e hmid =>
                rw [hmid] at hparent
                refine ⟨hparent.grown.concat n, by simp, fun _ hhas => ?_⟩
                exact hparent.failure (by simp)
                  (hasDirectory_of_concat hparent.grown.wellFormed hinit hn hhas)
            · next mid hmid =>
                rw [hmid] at hparent
                exact makeOne_made hinit hn hlegal hparent hno

/-- Making a directory makes it and all that were missing above it, or stops on the way with an error. -/
theorem makeDirectory_made (hwf : fs.WellFormed) (hs : Stacked rooted es.reverse) (hlegal : Legal es) :
    Made fs rooted es (fs.makeDirectory (spelled rooted es)) := by
  refine makeAll_made hwf hs hlegal ?_
  have hlen := Path.length_le_length_spell hs
  rw [spelled, String.length_ofList]
  omega

/-- A directory that is there is not made. -/
theorem makeDirectory_of_directory {path : String} (h : fs.HasDirectory path) :
    fs.makeDirectory path = (fs, none) := by
  obtain ⟨d, hd⟩ := h
  rw [makeDirectory, makeAll, hd]

end Making

/-! ### What is in a new directory -/

section Contents

variable {fs : FileSystem} {rooted : Bool} {es : List (List Char)} {r : FileSystem × Option Error}
variable {path other name name' : String}

/-- Nothing has changed, or there is nothing in the directory. -/
theorem Made.unchanged_or_empty (h : Made fs rooted es r) (hs : Stacked rooted es.reverse)
    (hlegal : Legal es) :
    r.1 = fs ∨ ∀ k d, r.1.Reaches (spelled rooted es) k d → ∀ name, entryAt? r.1 (d ++ [name]) = none := by
  have hfind : ∀ k d, r.1.Reaches (spelled rooted es) k d →
      r.1.find true (spelled rooted es) = .ok (d, .directory) := fun k d hr =>
    (find_directory h.grown.wellFormed).mpr ⟨isLegal_spelled hs hlegal, k, hr⟩
  cases he : r.2 with
  | some e =>
      refine Or.inr fun k d hr => ?_
      exact absurd ⟨d, hfind k d hr⟩ (h.failure (by rw [he]; simp))
  | none =>
      rcases h.success he with ⟨hsame, _⟩ | ⟨_, d, hd, hempty⟩
      · exact Or.inl hsame
      · refine Or.inr fun k d' hr => ?_
        cases hd.symm.trans (hfind k d' hr)
        exact hempty

/-- What was not there is not there when the directory around it has been made. -/
theorem Made.absent (h : Made fs rooted es r) (hs : Stacked rooted es.reverse) (hlegal : Legal es)
    (hn : Names (spelled rooted es) path name) (hnone : ∀ x, fs.find true path ≠ .ok x) :
    ∀ x, r.1.find true path ≠ .ok x := by
  rcases h.unchanged_or_empty hs hlegal with hsame | hempty
  · rwa [hsame]
  · rintro ⟨l, e⟩ hfind
    obtain ⟨hlocate, he⟩ := find_eq_ok.mp hfind
    obtain ⟨k, d, hr, rfl⟩ :=
      hn.locate_vacant hlocate fun k d hr => vacant_of_none (hempty k d hr name)
    rw [hempty k d hr] at he
    cases he

/-- Two names in a new directory lead to different places. -/
theorem Made.apart {follow : Bool} (h : Made fs rooted es r) (hs : Stacked rooted es.reverse)
    (hlegal : Legal es) (hn : Names (spelled rooted es) path name)
    (hn' : Names (spelled rooted es) other name') (hne : name ≠ name')
    (hapart : fs.Apart path follow other) : r.1.Apart path follow other := by
  rcases h.unchanged_or_empty hs hlegal with hsame | hempty
  · rwa [hsame]
  · intro fs' htree l hpath hother
    have hback : ∀ k d, fs'.Reaches (spelled rooted es) k d → r.1.Reaches (spelled rooted es) k d :=
      fun k d hr => hr.mono htree.kept htree.home.symm
    have hvacant : ∀ name k d, fs'.Reaches (spelled rooted es) k d → fs'.Vacant (d ++ [name]) := by
      intro name k d hr e he
      cases hfile : e.isFile with
      | true => rfl
      | false =>
          have hkept := htree.kept _ _ hfile he
          rw [hempty k d (hback k d hr)] at hkept
          cases hkept
    obtain ⟨k, d, hr, rfl⟩ := hn.locate_vacant hpath (hvacant name)
    obtain ⟨k', d', _, hl⟩ := hn'.locate_vacant hother (hvacant name')
    exact hne (List.singleton_inj.mp (List.append_inj' hl rfl).2)

end Contents

end LanguageClient.FileSystem
