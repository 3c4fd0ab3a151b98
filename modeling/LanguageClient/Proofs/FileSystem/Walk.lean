import LanguageClient.FileSystem

/-! # Walks.

`Walks` says what a walk that arrives somewhere did, one constructor for each
kind of element, and agrees with `walk` (`walk_eq_ok`). `Treks` is a walk through
directories and links alone, as the one to the directory around an entry is. It
does not see files, and neither kind of walk notices when they come and go
(`Walks.transfer`). A trek does not need a link that leads to no directory
(`Treks.avoid`). -/

namespace LanguageClient.FileSystem

/-! ### Entries -/

section Entries

variable {fs : FileSystem} {loc l : Location} {e : Entry}

@[simp] theorem entryAt?_nil (fs : FileSystem) : fs.entryAt? [] = some .directory := rfl

theorem entryAt?_of_ne_nil (h : l ≠ []) : fs.entryAt? l = fs.entries.lookup l := by
  unfold entryAt?
  rw [if_neg (by simpa using h)]

@[simp] theorem workingDirectory_put : (fs.put loc e).workingDirectory = fs.workingDirectory := by
  unfold put
  split <;> rfl

theorem lookup_map_replace (entries : List (Location × Entry)) (loc l : Location) (e : Entry) :
    (entries.map fun (k, old) => if k == loc then (k, e) else (k, old)).lookup l =
      if l = loc then (entries.lookup l).map fun _ => e else entries.lookup l := by
  induction entries with
  | nil => simp
  | cons p entries ih =>
      obtain ⟨k, old⟩ := p
      simp only [List.map_cons]
      by_cases hk : k = loc
      · subst hk
        by_cases hl : l = k
        · subst hl
          simp
        · simp only [beq_self_eq_true, if_true, List.lookup_cons, beq_eq_false_iff_ne.mpr hl, ih,
            if_neg hl]
      · simp only [beq_eq_false_iff_ne.mpr hk, Bool.false_eq_true, if_false, List.lookup_cons, ih]
        by_cases hl : l = k
        · subst hl
          simp [hk]
        · simp [beq_eq_false_iff_ne.mpr hl]

/-- What stands at a location after something has been put at one. -/
theorem entryAt?_put (h : loc ≠ []) :
    entryAt? (fs.put loc e) l = if l = loc then some e else fs.entryAt? l := by
  by_cases hl : l = []
  · subst hl
    rw [if_neg (Ne.symm h), entryAt?_nil, entryAt?_nil]
  · rw [entryAt?_of_ne_nil hl, entryAt?_of_ne_nil hl]
    unfold put
    split
    -- There is an entry, which is replaced.
    · next hany =>
        simp only [lookup_map_replace]
        split
        · next he =>
            subst he
            obtain ⟨⟨k, v⟩, hmem, hk⟩ := List.any_eq_true.mp hany
            cases hlook : fs.entries.lookup l with
            | some v => rfl
            | none =>
                have hne := List.lookup_eq_none_iff.mp hlook _ hmem
                exact absurd (beq_iff_eq.mp hk).symm (by simpa using hne)
        · rfl
    · next hany =>
        -- There is none, so one is added at the end.
        simp only [List.lookup_append]
        split
        · next he =>
            subst he
            have hnone : fs.entries.lookup l = none := by
              rw [List.lookup_eq_none_iff]
              intro p hp
              rw [bne_iff_ne]
              rintro rfl
              exact hany (List.any_eq_true.mpr ⟨p, hp, by simp⟩)
            simp [hnone]
        · next he => simp [List.lookup_cons, beq_eq_false_iff_ne.mpr he]

/-- What stands at a location after one has been erased with everything below it. -/
theorem entryAt?_erase (fs : FileSystem) (loc l : Location) :
    entryAt? (fs.erase loc) l = if l ≠ [] ∧ loc <+: l then none else fs.entryAt? l := by
  by_cases hl : l = []
  · subst hl
    simp
  · rw [entryAt?_of_ne_nil hl, entryAt?_of_ne_nil hl]
    simp only [erase, hl, ne_eq, not_false_eq_true, true_and]
    induction fs.entries with
    | nil => simp
    | cons p entries ih =>
        obtain ⟨k, v⟩ := p
        simp only [List.filter_cons]
        -- Entries below the location are dropped, all others are found as before.
        by_cases hk : l = k
        · subst hk
          by_cases hp : loc <+: l
          · simp only [List.isPrefixOf_iff_prefix.mpr hp, Bool.not_true, Bool.false_eq_true,
              if_false, hp, if_true] at ih ⊢
            exact ih
          · have hp' : loc.isPrefixOf l = false := by
              rwa [Bool.eq_false_iff, ne_eq, List.isPrefixOf_iff_prefix]
            simp [hp', hp]
        · split
          · simp only [List.lookup_cons, beq_eq_false_iff_ne.mpr hk, ih]
          · rw [ih]
            simp only [List.lookup_cons, beq_eq_false_iff_ne.mpr hk]

end Entries

/-! ### Walking -/

/-- A name that an entry of a directory may have. -/
structure IsName (name : String) : Prop where
  nonempty : name ≠ ""
  notDot : name ≠ "."
  notDotDot : name ≠ ".."
  short : (utf8 name).length ≤ maxNameLength

/-- An element that leads nowhere. -/
def isIdle (name : String) : Bool := name = "" || name = "."

/-- Where a walk goes on behind a link in a directory. -/
def linkStart (dir : Location) (target : String) : Location := if Path.rooted target then [] else dir

/-- A walk that arrives at a location, through at most `k` links. -/
inductive Walks (fs : FileSystem) (follow : Bool) : Nat → Location → List String → Location → Prop where
  | done {k : Nat} {dir : Location} : Walks fs follow k dir [] dir
  | idle {k : Nat} {dir l : Location} {name : String} {rest : List String} (h : isIdle name = true)
      (next : Walks fs follow k dir rest l) : Walks fs follow k dir (name :: rest) l
  | up {k : Nat} {dir l : Location} {rest : List String}
      (next : Walks fs follow k (parent dir) rest l) : Walks fs follow k dir (".." :: rest) l
  | enter {k : Nat} {dir l : Location} {name : String} {rest : List String} (h : IsName name)
      (entry : fs.entryAt? (dir ++ [name]) = some .directory)
      (next : Walks fs follow k (dir ++ [name]) rest l) : Walks fs follow k dir (name :: rest) l
  | jump {k : Nat} {dir l : Location} {name target : String} {rest : List String} (h : IsName name)
      (entry : fs.entryAt? (dir ++ [name]) = some (.link target)) (go : rest ≠ [] ∨ follow = true)
      (next : Walks fs follow k (linkStart dir target) (parts target ++ rest) l) :
      Walks fs follow (k + 1) dir (name :: rest) l
  /-- There is nothing yet. -/
  | free {k : Nat} {dir : Location} {name : String} {rest : List String} (h : IsName name)
      (entry : fs.entryAt? (dir ++ [name]) = none) (last : rest.all (· = "") = true) :
      Walks fs follow k dir (name :: rest) (dir ++ [name])
  | file {k : Nat} {dir : Location} {name : String} {content : Bytes} {mode : Nat} (h : IsName name)
      (entry : fs.entryAt? (dir ++ [name]) = some (.file content mode)) :
      Walks fs follow k dir [name] (dir ++ [name])
  /-- A link in the last place is not followed. -/
  | link {k : Nat} {dir : Location} {name target : String} (h : IsName name)
      (entry : fs.entryAt? (dir ++ [name]) = some (.link target)) (stay : follow = false) :
      Walks fs follow k dir [name] (dir ++ [name])

section Walk

variable {fs : FileSystem} {follow : Bool} {k : Nat} {dir l : Location} {name : String}
variable {rest ps : List String}

theorem walk_nil : fs.walk follow (k + 1) dir [] = .ok dir := by
  simp only [walk, walkFrom]

theorem walk_idle (h : isIdle name = true) :
    fs.walk follow (k + 1) dir (name :: rest) = fs.walk follow (k + 1) dir rest := by
  unfold isIdle at h
  simp only [walk, walkFrom, h, if_true]

theorem walk_up :
    fs.walk follow (k + 1) dir (".." :: rest) = fs.walk follow (k + 1) (parent dir) rest := by
  rw [walk, walkFrom, if_neg (by decide), if_pos rfl]

theorem walk_name (h : IsName name) :
    fs.walk follow (k + 1) dir (name :: rest) =
      match fs.entryAt? (dir ++ [name]) with
      | none => if rest.all (· = "") then .ok (dir ++ [name]) else .error .noEntry
      | some .directory => fs.walk follow (k + 1) (dir ++ [name]) rest
      | some (.file _ _) => if rest.isEmpty then .ok (dir ++ [name]) else .error .notDirectory
      | some (.link target) =>
        if rest.isEmpty && !follow then .ok (dir ++ [name])
        else fs.walk follow k (linkStart dir target) (parts target ++ rest) := by
  have hidle : ¬ (decide (name = "") || decide (name = ".")) = true := by
    simp [h.nonempty, h.notDot]
  have hshort : ¬ maxNameLength < (utf8 name).length := Nat.not_lt.mpr h.short
  rw [walk, walkFrom, if_neg hidle, if_neg h.notDotDot, if_neg hshort]
  rfl

/-- An element leads nowhere, or up, or is a name, or is too long for one. -/
theorem name_cases (name : String) :
    isIdle name = true ∨ name = ".." ∨ IsName name ∨
      isIdle name = false ∧ name ≠ ".." ∧ maxNameLength < (utf8 name).length := by
  by_cases hidle : isIdle name = true
  · exact Or.inl hidle
  · by_cases hup : name = ".."
    · exact Or.inr (Or.inl hup)
    · by_cases hlong : maxNameLength < (utf8 name).length
      · exact Or.inr (Or.inr (Or.inr ⟨by simpa using hidle, hup, hlong⟩))
      · have hne : name ≠ "" ∧ name ≠ "." := by simpa [isIdle] using hidle
        exact Or.inr (Or.inr (Or.inl ⟨hne.1, hne.2, hup, Nat.not_lt.mp hlong⟩))

/-- A name that is too long ends the walk. -/
theorem walk_long (h : isIdle name = false) (hup : name ≠ "..")
    (hlong : maxNameLength < (utf8 name).length) :
    fs.walk follow (k + 1) dir (name :: rest) = .error .nameTooLong := by
  have hidle : ¬ (decide (name = "") || decide (name = ".")) = true := by simpa [isIdle] using h
  rw [walk, walkFrom, if_neg hidle, if_neg hup, if_pos hlong]

/-- A name in the last place is found where it stands, if links are not followed. -/
theorem walk_false_name (h : IsName name) : fs.walk false (k + 1) dir [name] = .ok (dir ++ [name]) := by
  rw [walk_name h]
  cases fs.entryAt? (dir ++ [name]) with
  | none => rfl
  | some e =>
      cases e with
      | directory => exact walk_nil
      | file content mode => rfl
      | link target => rfl

/-- The walk goes where the relation says. -/
theorem Walks.walk_eq (h : Walks fs follow k dir ps l) : fs.walk follow (k + 1) dir ps = .ok l := by
  induction h with
  | done => exact walk_nil
  | idle h _ ih => rw [walk_idle h, ih]
  | up _ ih => rw [walk_up, ih]
  | enter h entry _ ih => rw [walk_name h, entry]; exact ih
  | @jump _ _ _ _ _ rest h entry go _ ih =>
      have hgo : ¬ (rest.isEmpty && !follow) = true := by
        rcases go with hne | hf
        · simp [hne]
        · simp [hf]
      rw [walk_name h, entry]
      simp only
      rw [if_neg hgo]
      exact ih
  | free h entry last => rw [walk_name h, entry]; simp only; rw [if_pos last]
  | file h entry => rw [walk_name h, entry]; rfl
  | link h entry stay => rw [walk_name h, entry, stay]; rfl

/-- A walk, given those behind its links. -/
theorem Walks.of_walk_of_jump
    (hjump : ∀ {dir ps}, fs.walk follow k dir ps = .ok l → ∃ j, k = j + 1 ∧ Walks fs follow j dir ps l)
    (h : fs.walk follow (k + 1) dir ps = .ok l) : Walks fs follow k dir ps l := by
  induction ps generalizing dir with
  | nil =>
      rw [walk_nil] at h
      cases h
      exact .done
  | cons name rest ih =>
      rcases name_cases name with hidle | rfl | hname | ⟨hidle, hup, hlong⟩
      · rw [walk_idle hidle] at h
        exact .idle hidle (ih h)
      · rw [walk_up] at h
        exact .up (ih h)
      · rw [walk_name hname] at h
        split at h
        · next hentry =>
            split at h
            · next hlast =>
                cases h
                exact .free hname hentry hlast
            · cases h
        · next hentry => exact .enter hname hentry (ih h)
        · next hentry =>
            split at h
            · next hlast =>
                cases h
                rw [List.isEmpty_iff.mp hlast]
                exact .file hname hentry
            · cases h
        · next target hentry =>
            split at h
            · next hstay =>
                cases h
                rw [Bool.and_eq_true, List.isEmpty_iff, Bool.not_eq_true'] at hstay
                rw [hstay.1]
                exact .link hname hentry hstay.2
            · next hgo =>
                -- A link is left by the walk behind it, which is allowed one link less.
                obtain ⟨j, rfl, hnext⟩ := hjump h
                refine .jump hname hentry ?_ hnext
                rw [Bool.and_eq_true, List.isEmpty_iff, Bool.not_eq_true',
                  Classical.not_and_iff_not_or_not, Bool.not_eq_false] at hgo
                exact hgo
      · rw [walk_long hidle hup hlong] at h
        cases h

/-- Where the walk goes, the relation says so. -/
theorem Walks.of_walk (h : fs.walk follow (k + 1) dir ps = .ok l) : Walks fs follow k dir ps l := by
  induction k generalizing dir ps with
  | zero => exact of_walk_of_jump (fun h => by cases h) h
  | succ k ih => exact of_walk_of_jump (fun h => ⟨k, rfl, ih h⟩) h

/-- **A walk arrives exactly where `Walks` says.** -/
theorem walk_eq_ok : fs.walk follow (k + 1) dir ps = .ok l ↔ Walks fs follow k dir ps l :=
  ⟨Walks.of_walk, Walks.walk_eq⟩

end Walk

/-! ### Treks -/

/-- A walk through directories and links alone. It may lead through `k` links
and has `k'` of them left at its end. -/
inductive Treks (fs : FileSystem) : Nat → Location → List String → Nat → Location → Prop where
  | done {k : Nat} {dir : Location} : Treks fs k dir [] k dir
  | idle {k k' : Nat} {dir d : Location} {name : String} {rest : List String}
      (h : isIdle name = true) (next : Treks fs k dir rest k' d) : Treks fs k dir (name :: rest) k' d
  | up {k k' : Nat} {dir d : Location} {rest : List String}
      (next : Treks fs k (parent dir) rest k' d) : Treks fs k dir (".." :: rest) k' d
  | enter {k k' : Nat} {dir d : Location} {name : String} {rest : List String} (h : IsName name)
      (entry : fs.entryAt? (dir ++ [name]) = some .directory)
      (next : Treks fs k (dir ++ [name]) rest k' d) : Treks fs k dir (name :: rest) k' d
  | jump {k k' : Nat} {dir d : Location} {name target : String} {rest : List String}
      (h : IsName name) (entry : fs.entryAt? (dir ++ [name]) = some (.link target))
      (next : Treks fs k (linkStart dir target) (parts target ++ rest) k' d) :
      Treks fs (k + 1) dir (name :: rest) k' d

/-- The elements of a path that lead somewhere. -/
def moving (ps : List String) : List String := ps.filter fun name => !isIdle name

namespace Treks

variable {fs fs' : FileSystem} {follow : Bool} {k k' k'' : Nat} {dir d d' l : Location}
variable {name : String} {ps qs rest : List String}

/-- Treks one behind the other make up one trek. -/
theorem append (h : Treks fs k dir ps k' d) (h' : Treks fs k' d qs k'' d') :
    Treks fs k dir (ps ++ qs) k'' d' := by
  induction h with
  | done => exact h'
  | idle h _ ih => exact .idle h (ih h')
  | up _ ih => exact .up (ih h')
  | enter h entry _ ih => exact .enter h entry (ih h')
  | @jump _ _ _ _ _ target rest h entry _ ih =>
      refine .jump h entry ?_
      have hnext := ih h'
      rwa [List.append_assoc] at hnext

/-- A trek through some elements goes through the first of them. -/
theorem split (h : Treks fs k dir (ps ++ qs) k' d) :
    ∃ j m, Treks fs k dir ps j m ∧ Treks fs j m qs k' d := by
  generalize he : ps ++ qs = all at h
  induction h generalizing ps with
  | done =>
      obtain ⟨rfl, rfl⟩ := List.append_eq_nil_iff.mp he
      exact ⟨_, _, .done, .done⟩
  | idle h next ih =>
      cases ps with
      | nil =>
          cases he
          exact ⟨_, _, .done, .idle h next⟩
      | cons name' ps =>
          obtain ⟨rfl, hrest⟩ := List.cons.inj he
          obtain ⟨j, m, h1, h2⟩ := ih hrest
          exact ⟨j, m, .idle h h1, h2⟩
  | up next ih =>
      cases ps with
      | nil =>
          cases he
          exact ⟨_, _, .done, .up next⟩
      | cons name' ps =>
          obtain ⟨rfl, hrest⟩ := List.cons.inj he
          obtain ⟨j, m, h1, h2⟩ := ih hrest
          exact ⟨j, m, .up h1, h2⟩
  | enter h entry next ih =>
      cases ps with
      | nil =>
          cases he
          exact ⟨_, _, .done, .enter h entry next⟩
      | cons name' ps =>
          obtain ⟨rfl, hrest⟩ := List.cons.inj he
          obtain ⟨j, m, h1, h2⟩ := ih hrest
          exact ⟨j, m, .enter h entry h1, h2⟩
  | @jump _ _ _ _ _ target _ h entry next ih =>
      -- The elements behind the link are those of its target and the rest, so the cut
      -- moves to the right by the target.
      cases ps with
      | nil =>
          cases he
          exact ⟨_, _, .done, .jump h entry next⟩
      | cons name' ps =>
          obtain ⟨rfl, rfl⟩ := List.cons.inj he
          obtain ⟨j, m, h1, h2⟩ := ih (List.append_assoc (parts target) ps qs)
          exact ⟨j, m, .jump h entry h1, h2⟩

theorem split_head (h : Treks fs k dir (name :: rest) k' d) :
    ∃ j m, Treks fs k dir [name] j m ∧ Treks fs j m rest k' d := by
  rw [← List.singleton_append] at h
  exact h.split

/-- More links may be left over. -/
theorem add (h : Treks fs k dir ps k' d) (n : Nat) : Treks fs (k + n) dir ps (k' + n) d := by
  induction h with
  | done => exact .done
  | idle h _ ih => exact .idle h ih
  | up _ ih => exact .up ih
  | enter h entry _ ih => exact .enter h entry ih
  | @jump k _ _ _ _ _ _ h entry _ ih =>
      rw [Nat.add_right_comm]
      exact .jump h entry ih

theorem idle_iff (h : isIdle name = true) :
    Treks fs k dir (name :: ps) k' d ↔ Treks fs k dir ps k' d := by
  refine ⟨fun ht => ?_, .idle h⟩
  have hnot : ¬ IsName name := by
    intro hname
    simp [isIdle, hname.nonempty, hname.notDot] at h
  cases ht with
  | idle _ next => exact next
  | up _ => exact absurd h (by decide)
  | enter hname _ _ => exact absurd hname hnot
  | jump hname _ _ => exact absurd hname hnot

/-- What leads nowhere does not matter. -/
theorem moving_iff : Treks fs k dir (moving ps) k' d ↔ Treks fs k dir ps k' d := by
  induction ps generalizing k dir with
  | nil => exact Iff.rfl
  | cons name ps ih =>
      unfold moving
      cases hidle : isIdle name with
      | true =>
          rw [List.filter_cons_of_neg (by simp [hidle]), idle_iff hidle]
          exact ih
      | false =>
          rw [List.filter_cons_of_pos (by simp [hidle])]
          constructor
          · intro h
            obtain ⟨j, m, h1, h2⟩ := h.split_head
            exact h1.append (ih.mp h2)
          · intro h
            obtain ⟨j, m, h1, h2⟩ := h.split_head
            exact h1.append (ih.mpr h2)

/-- A walk is a trek and what comes behind it. -/
theorem walk_append (h : Treks fs k dir ps k' d) (hgo : qs ≠ [] ∨ follow = true) :
    fs.walk follow (k + 1) dir (ps ++ qs) = fs.walk follow (k' + 1) d qs := by
  induction h with
  | done => rfl
  | idle h _ ih => rw [List.cons_append, walk_idle h, ih]
  | up _ ih => rw [List.cons_append, walk_up, ih]
  | enter h entry _ ih => rw [List.cons_append, walk_name h, entry]; exact ih
  | @jump _ _ _ _ _ _ rest h entry _ ih =>
      have hgo' : ¬ ((rest ++ qs).isEmpty && !follow) = true := by
        rcases hgo with hne | hf
        · simp [hne]
        · simp [hf]
      rw [List.cons_append, walk_name h, entry]
      simp only
      rw [if_neg hgo', ← List.append_assoc]
      exact ih

theorem walk_eq (h : Treks fs k dir ps k' d) : fs.walk true (k + 1) dir ps = .ok d := by
  have hwalk := h.walk_append (Or.inr rfl : [] ≠ [] ∨ true = true)
  rwa [List.append_nil, walk_nil] at hwalk

/-- The way to an entry is a trek. -/
theorem of_walks (h : Walks fs follow k dir (ps ++ [name]) l) (hidle : isIdle name = false)
    (hup : name ≠ "..") : ∃ k' d, Treks fs k dir ps k' d := by
  generalize he : ps ++ [name] = all at h
  induction h generalizing ps with
  | done => simp at he
  | idle h next ih =>
      cases ps with
      | nil =>
          cases he
          rw [h] at hidle
          cases hidle
      | cons name' ps =>
          obtain ⟨rfl, hrest⟩ := List.cons.inj he
          obtain ⟨k', d, ht⟩ := ih hrest
          exact ⟨k', d, .idle h ht⟩
  | up next ih =>
      cases ps with
      | nil =>
          cases he
          exact absurd rfl hup
      | cons name' ps =>
          obtain ⟨rfl, hrest⟩ := List.cons.inj he
          obtain ⟨k', d, ht⟩ := ih hrest
          exact ⟨k', d, .up ht⟩
  | enter h entry next ih =>
      cases ps with
      | nil => exact ⟨_, _, .done⟩
      | cons name' ps =>
          obtain ⟨rfl, hrest⟩ := List.cons.inj he
          obtain ⟨k', d, ht⟩ := ih hrest
          exact ⟨k', d, .enter h entry ht⟩
  | @jump _ _ _ _ target _ h entry _ next ih =>
      cases ps with
      | nil => exact ⟨_, _, .done⟩
      | cons name' ps =>
          obtain ⟨rfl, rfl⟩ := List.cons.inj he
          obtain ⟨k', d, ht⟩ := ih (List.append_assoc (parts target) ps [name])
          exact ⟨k', d, .jump h entry ht⟩
  | free h entry last =>
      -- A walk may end at a name that nothing has only if no other name comes after it.
      cases ps with
      | nil => exact ⟨_, _, .done⟩
      | cons name' ps =>
          obtain ⟨rfl, rfl⟩ := List.cons.inj he
          have hne : name ≠ "" := by
            rintro rfl
            cases hidle
          simp [hne] at last
  | file h entry =>
      cases ps with
      | nil => exact ⟨_, _, .done⟩
      | cons name' ps => simp at he
  | link h entry stay =>
      cases ps with
      | nil => exact ⟨_, _, .done⟩
      | cons name' ps => simp at he

/-- A walk to a directory is a trek. -/
theorem of_walks_directory (h : Walks fs follow k dir ps l) (hl : fs.entryAt? l = some .directory) :
    ∃ k', Treks fs k dir ps k' l := by
  induction h with
  | done => exact ⟨_, .done⟩
  | idle h _ ih => exact (ih hl).imp fun _ => .idle h
  | up _ ih => exact (ih hl).imp fun _ => .up
  | enter h entry _ ih => exact (ih hl).imp fun _ => .enter h entry
  | jump h entry _ _ ih => exact (ih hl).imp fun _ => .jump h entry
  | free h entry last => rw [entry] at hl; cases hl
  | file h entry => rw [entry] at hl; cases hl
  | link h entry stay => rw [entry] at hl; cases hl

/-- What treks somewhere is not missing, whatever number of links is allowed. -/
theorem walk_ok_or_loop (h : Treks fs k dir ps k' d) (n : Nat) :
    fs.walk true n dir ps = .ok d ∨ fs.walk true n dir ps = .error .linkLoop := by
  induction h generalizing n with
  | done =>
      cases n with
      | zero => exact Or.inr rfl
      | succ n => exact Or.inl walk_nil
  | idle h _ ih =>
      cases n with
      | zero => exact Or.inr rfl
      | succ n => rw [walk_idle h]; exact ih (n + 1)
  | up _ ih =>
      cases n with
      | zero => exact Or.inr rfl
      | succ n => rw [walk_up]; exact ih (n + 1)
  | enter h entry _ ih =>
      cases n with
      | zero => exact Or.inr rfl
      | succ n => rw [walk_name h, entry]; exact ih (n + 1)
  | jump h entry _ ih =>
      -- Only links use up the allowance, so only here is it smaller for the rest.
      cases n with
      | zero => exact Or.inr rfl
      | succ n =>
          rw [walk_name h, entry]
          simp only [Bool.not_true, Bool.and_false, Bool.false_eq_true, if_false]
          exact ih n

end Treks

/-! ### Well-formed trees -/

/-- Every entry stands in a directory, and relative paths start in one. -/
structure WellFormed (fs : FileSystem) : Prop where
  parents : ∀ l, l ≠ [] → fs.entryAt? l ≠ none → fs.entryAt? (parent l) = some .directory
  home : fs.entryAt? fs.workingDirectory = some .directory

section WellFormed

variable {fs : FileSystem} {follow : Bool} {k k' : Nat} {dir d l : Location} {ps : List String}

/-- It is enough to look at the entries that are listed. -/
theorem wellFormed_of_entries
    (h : ∀ x ∈ fs.entries, fs.entryAt? (parent x.1) = some .directory)
    (hhome : fs.entryAt? fs.workingDirectory = some .directory) : fs.WellFormed := by
  refine ⟨fun l hl he => ?_, hhome⟩
  rw [entryAt?_of_ne_nil hl] at he
  obtain ⟨e, hlookup⟩ := Option.ne_none_iff_exists'.mp he
  obtain ⟨before, after, hsplit, _⟩ := List.lookup_eq_some_iff.mp hlookup
  exact h (l, e) (by rw [hsplit]; simp)

/-- Above a directory stands a directory. -/
theorem WellFormed.parent_directory (hwf : fs.WellFormed) (h : fs.entryAt? dir = some .directory) :
    fs.entryAt? (parent dir) = some .directory := by
  by_cases hdir : dir = []
  · subst hdir
    exact h
  · exact hwf.parents dir hdir (by rw [h]; simp)

/-- Nothing stands below what is no directory. -/
theorem WellFormed.below (hwf : fs.WellFormed) (h : fs.entryAt? l ≠ some .directory) (name : String) :
    fs.entryAt? (l ++ [name]) = none := by
  cases he : fs.entryAt? (l ++ [name]) with
  | none => rfl
  | some e =>
      have hparent := hwf.parents (l ++ [name]) (by simp) (by rw [he]; simp)
      rw [parent, List.dropLast_concat] at hparent
      exact absurd hparent h

/-- Nothing stands below what is no directory. -/
theorem WellFormed.below_all (hwf : fs.WellFormed) (h : fs.entryAt? l ≠ some .directory)
    {below : Location} (hne : below ≠ []) : fs.entryAt? (l ++ below) = none := by
  induction hn : below.length generalizing below with
  | zero => exact absurd (List.length_eq_zero_iff.mp hn) hne
  | succ n ih =>
      obtain ⟨init, name, rfl⟩ := (List.eq_nil_or_concat below).resolve_left hne
      rw [List.concat_eq_append] at hn ⊢
      rw [← List.append_assoc]
      apply hwf.below
      by_cases hinit : init = []
      · rwa [hinit, List.append_nil]
      · rw [ih hinit (by simpa using hn)]
        simp

/-- A trek ends in a directory. -/
theorem Treks.directory (h : Treks fs k dir ps k' d) (hwf : fs.WellFormed)
    (hdir : fs.entryAt? dir = some .directory) : fs.entryAt? d = some .directory := by
  induction h with
  | done => exact hdir
  | idle _ _ ih => exact ih hdir
  | up _ ih => exact ih (hwf.parent_directory hdir)
  | enter _ entry _ ih => exact ih entry
  | jump _ _ _ ih =>
      apply ih
      unfold linkStart
      split
      · rfl
      · exact hdir

end WellFormed

/-! ### Changes -/

def Entry.isFile : Entry → Bool
  | .file _ _ => true
  | _ => false

/-- The directories and links of one tree are in another. -/
def KeepsTree (fs fs' : FileSystem) : Prop :=
  ∀ l e, e.isFile = false → fs.entryAt? l = some e → fs'.entryAt? l = some e

/-- Two trees have the same directories and links. -/
structure SameTree (fs fs' : FileSystem) : Prop where
  keeps : KeepsTree fs fs'
  kept : KeepsTree fs' fs
  home : fs'.workingDirectory = fs.workingDirectory

theorem SameTree.refl (fs : FileSystem) : SameTree fs fs := ⟨fun _ _ _ h => h, fun _ _ _ h => h, rfl⟩

theorem SameTree.symm {fs fs' : FileSystem} (h : SameTree fs fs') : SameTree fs' fs :=
  ⟨h.kept, h.keeps, h.home.symm⟩

theorem SameTree.trans {a b c : FileSystem} (h : SameTree a b) (h' : SameTree b c) : SameTree a c where
  keeps := fun l e he hl => h'.keeps l e he (h.keeps l e he hl)
  kept := fun l e he hl => h.kept l e he (h'.kept l e he hl)
  home := h'.home.trans h.home

section Changes

variable {fs fs' : FileSystem} {follow : Bool} {k k' : Nat} {dir d l : Location} {ps : List String}

/-- A trek needs only the directories and links on its way. -/
theorem Treks.mono (h : Treks fs k dir ps k' d) (hk : KeepsTree fs fs') : Treks fs' k dir ps k' d := by
  induction h with
  | done => exact .done
  | idle h _ ih => exact .idle h ih
  | up _ ih => exact .up ih
  | enter h entry _ ih => exact .enter h (hk _ _ rfl entry) ih
  | jump h entry _ ih => exact .jump h (hk _ _ rfl entry) ih

/-- A trek does not need the link at a location, or that link leads to a
directory. -/
theorem Treks.avoid {x : Location} (h : Treks fs k dir ps k' d)
    (hk : ∀ l e, l ≠ x → e.isFile = false → fs.entryAt? l = some e → fs'.entryAt? l = some e)
    (hx : fs.entryAt? x ≠ some .directory) :
    Treks fs' k dir ps k' d ∨
      ∃ at' name target j j' d', x = at' ++ [name] ∧ fs.entryAt? x = some (.link target) ∧
        Treks fs j (linkStart at' target) (parts target) j' d' := by
  induction h with
  | done => exact Or.inl .done
  | idle h _ ih => exact ih.imp_left (.idle h)
  | up _ ih => exact ih.imp_left .up
  | @enter _ _ dir _ name _ h entry _ ih =>
      have hne : dir ++ [name] ≠ x := fun he => hx (he ▸ entry)
      exact ih.imp_left (.enter h (hk _ _ hne rfl entry))
  | @jump _ _ dir _ name target _ h entry next ih =>
      by_cases hne : dir ++ [name] = x
      · obtain ⟨j, m, hlink, _⟩ := next.split
        exact Or.inr ⟨dir, name, target, _, j, m, hne.symm, hne ▸ entry, hlink⟩
      · exact ih.imp_left (.jump h (hk _ _ hne rfl entry))

/-- What is no directory or link in one tree is none in the other. -/
theorem entryAt?_of_sameTree (h : SameTree fs fs')
    (hl : ∀ e, fs'.entryAt? l = some e → e.isFile = true) :
    fs.entryAt? l = none ∨ ∃ content mode, fs.entryAt? l = some (.file content mode) := by
  cases he : fs.entryAt? l with
  | none => exact Or.inl rfl
  | some e =>
      cases e with
      | file content mode => exact Or.inr ⟨content, mode, rfl⟩
      | directory => cases hl _ (h.keeps l _ rfl he)
      | link target => cases hl _ (h.keeps l _ rfl he)

/-- **Walks do not see files**, except that nothing can stand behind one. -/
theorem Walks.transfer (h : Walks fs' follow k dir ps l) (hs : SameTree fs fs') :
    Walks fs follow k dir ps l ∨
      (fs.walk follow (k + 1) dir ps = .error .notDirectory ∧ fs'.entryAt? l = none ∧
        ∃ content mode, fs.entryAt? l = some (.file content mode)) := by
  induction h with
  | done => exact Or.inl .done
  | idle h _ ih => exact ih.imp (.idle h) fun ⟨hw, hl⟩ => ⟨by rw [walk_idle h, hw], hl⟩
  | up _ ih => exact ih.imp .up fun ⟨hw, hl⟩ => ⟨by rw [walk_up, hw], hl⟩
  | enter h entry _ ih =>
      have hentry := hs.kept _ _ rfl entry
      exact ih.imp (.enter h hentry) fun ⟨hw, hl⟩ => ⟨by rw [walk_name h, hentry]; exact hw, hl⟩
  | @jump _ _ _ _ _ rest h entry go _ ih =>
      have hentry := hs.kept _ _ rfl entry
      refine ih.imp (.jump h hentry go) fun ⟨hw, hl⟩ => ⟨?_, hl⟩
      have hgo : ¬ (rest.isEmpty && !follow) = true := by
        rcases go with hne | hf
        · simp [hne]
        · simp [hf]
      rw [walk_name h, hentry]
      simp only
      rw [if_neg hgo]
      exact hw
  | @free _ dir name rest h entry last =>
      rcases entryAt?_of_sameTree (l := dir ++ [name]) hs (by simp [entry]) with
        hnone | ⟨content, mode, hfile⟩
      · exact Or.inl (.free h hnone last)
      · cases rest with
        -- A slash may stand behind a name that nothing has, but not behind a file.
        | nil => exact Or.inl (.file h hfile)
        | cons name rest =>
            refine Or.inr ⟨?_, entry, content, mode, hfile⟩
            rw [walk_name h, hfile]
            rfl
  | @file _ dir name _ _ h entry =>
      rcases entryAt?_of_sameTree (l := dir ++ [name]) hs (by simp [entry, Entry.isFile]) with
        hnone | ⟨content, mode, hfile⟩
      · exact Or.inl (.free h hnone rfl)
      · exact Or.inl (.file h hfile)
  | link h entry stay => exact Or.inl (.link h (hs.kept _ _ rfl entry) stay)

/-- A walk looks at nothing but entries. -/
theorem walk_congr (h : ∀ l, fs'.entryAt? l = fs.entryAt? l) (follow : Bool) (n : Nat) :
    fs'.walk follow n = fs.walk follow n := by
  induction n with
  | zero => rfl
  | succ n ih =>
      funext dir ps
      rw [walk, walk, ih]
      induction ps generalizing dir with
      | nil => simp only [walkFrom]
      | cons name rest ih => simp only [walkFrom, h, ih]

/-- A walk that stops at a link only differs there from one that follows it. -/
theorem Walks.followed (h : Walks fs false k dir ps l)
    (hl : ∀ target, fs.entryAt? l ≠ some (.link target)) : Walks fs true k dir ps l := by
  induction h with
  | done => exact .done
  | idle h _ ih => exact .idle h (ih hl)
  | up _ ih => exact .up (ih hl)
  | enter h entry _ ih => exact .enter h entry (ih hl)
  | jump h entry _ _ ih => exact .jump h entry (Or.inr rfl) (ih hl)
  | free h entry last => exact .free h entry last
  | file h entry => exact .file h entry
  | link h entry stay => exact absurd entry (hl _)

end Changes

end LanguageClient.FileSystem
