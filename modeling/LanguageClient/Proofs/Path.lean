import LanguageClient.Path
import LanguageClient.Proofs.Text.Separator
import LanguageClient.Proofs.Text.Utf8

/-! # What a cleaned path looks like.

A cleaned path is its elements with separators between them (`spell`). It leads
only upwards, or its last element is a name (`clean_cases`); in the second case
the directory around it and its last element are spelled by the same elements
(`dir_spell`, `base_spell`). -/

namespace LanguageClient.Path

/-! ### Elements -/

theorem splitAt_ne_nil (p : List Char) : splitAt '/' p ≠ [] := by
  induction p with
  | nil => simp [splitAt]
  | cons c cs ih =>
      unfold splitAt
      split
      · simp
      · split <;> simp

/-- The elements of two paths with a separator between them. -/
theorem elements_append_slash (a b : List Char) :
    elements (a ++ '/' :: b) = elements a ++ elements b := by
  induction a with
  | nil =>
      obtain ⟨e, es, h⟩ := List.exists_cons_of_ne_nil (splitAt_ne_nil b)
      simp [elements, splitAt, PathLetter.slash, h]
  | cons c a ih =>
      obtain ⟨e, es, h⟩ := List.exists_cons_of_ne_nil (splitAt_ne_nil a)
      simp only [elements, PathLetter.slash, List.cons_append] at ih ⊢
      simp only [splitAt, ih, h, List.cons_append]
      split <;> rfl

theorem elements_plain {e : List Char} (h : '/' ∉ e) : elements e = [e] := by
  induction e with
  | nil => rfl
  | cons c e ih =>
      have hc : c ≠ '/' := fun hc => h (hc ▸ List.mem_cons_self)
      have he := ih fun he => h (List.mem_cons_of_mem c he)
      simp only [elements, PathLetter.slash] at he ⊢
      simp [splitAt, he, hc]

theorem slash_not_mem_of_mem_elements {p e : List Char} (h : e ∈ elements p) : '/' ∉ e := by
  induction p generalizing e with
  | nil => simp_all [elements, splitAt]
  | cons c p ih =>
      obtain ⟨d, ds, hd⟩ := List.exists_cons_of_ne_nil (splitAt_ne_nil p)
      simp only [elements, PathLetter.slash, splitAt, hd] at h ih
      split at h <;> grind

/-- Elements that were joined are read back one by one. -/
theorem elements_join (es : List (List Char)) (h : ∀ e ∈ es, '/' ∉ e) (hne : es ≠ []) :
    elements (joinElements es) = es := by
  induction es using joinElements.induct with
  | case1 => exact absurd rfl hne
  | case2 e => exact elements_plain (h e List.mem_cons_self)
  | case3 e es hes ih =>
      have hrest := ih (fun e he => h e (List.mem_cons_of_mem _ he)) (by simpa using hes)
      rw [joinElements.eq_3 _ _ hes]
      have hsplit := elements_append_slash e (joinElements es)
      rw [hrest, elements_plain (h e List.mem_cons_self), List.singleton_append] at hsplit
      exact hsplit

theorem joinElements_concat (es : List (List Char)) (n : List Char) :
    joinElements (es ++ [n]) = joinElements (es ++ [[]]) ++ n := by
  induction es with
  | nil => simp [joinElements]
  | cons e es ih =>
      rw [List.cons_append, List.cons_append, joinElements.eq_3 _ _ (by simp),
        joinElements.eq_3 _ _ (by simp), ih]
      simp

theorem joinElements_concat_nil {es : List (List Char)} (h : es ≠ []) :
    joinElements (es ++ [[]]) = joinElements es ++ ['/'] := by
  induction es with
  | nil => exact absurd rfl h
  | cons e es ih =>
      cases es with
      | nil => simp [joinElements, PathLetter.slash]
      | cons d es =>
          rw [List.cons_append, joinElements.eq_3 _ _ (by simp), joinElements.eq_3 _ _ (by simp),
            ih (by simp)]
          simp

/-! ### Cleaning -/

/-- A name: an element that leads to an entry of the directory before it. -/
structure IsName (e : List Char) : Prop where
  nonempty : e ≠ []
  plain : '/' ∉ e
  notDot : isDot e = false
  notDotDot : isDotDot e = false

/-- Elements as cleaning leaves them, last one first: names, behind elements that
lead upwards, of which there are none at the root. -/
inductive Stacked (rooted : Bool) : List (List Char) → Prop where
  | nil : Stacked rooted []
  | up {e : List Char} {es : List (List Char)} (relative : rooted = false)
      (all : ∀ d ∈ e :: es, isDotDot d = true) : Stacked rooted (e :: es)
  | name {e : List Char} {es : List (List Char)} (name : IsName e) (below : Stacked rooted es) :
      Stacked rooted (e :: es)

theorem isDotDot_iff {e : List Char} : isDotDot e = true ↔ e = ['.', '.'] := by
  unfold isDotDot
  split
  · simp [PathLetter.dot]
  · simp_all

theorem isDot_iff {e : List Char} : isDot e = true ↔ e = ['.'] := by
  unfold isDot
  split
  · simp [PathLetter.dot]
  · simp_all

/-- An element that is longer than the special ones is a name. -/
theorem isName_of_length {e : List Char} (hlen : 2 < e.length) (hplain : '/' ∉ e) : IsName e where
  nonempty := by
    rintro rfl
    simp at hlen
  plain := hplain
  notDot := by
    rw [Bool.eq_false_iff]
    intro h
    rw [isDot_iff.mp h] at hlen
    simp at hlen
  notDotDot := by
    rw [Bool.eq_false_iff]
    intro h
    rw [isDotDot_iff.mp h] at hlen
    simp at hlen

/-- Pushing one more element keeps a stack clean. -/
theorem push_stacked {rooted : Bool} {done : List (List Char)} {e : List Char}
    (h : Stacked rooted done) (he : '/' ∉ e) : Stacked rooted (push rooted done e) := by
  unfold push
  split
  · exact h
  · next hblank =>
      rw [Bool.or_eq_true, not_or, Bool.not_eq_true, Bool.not_eq_true] at hblank
      split
      · next hup =>
          cases h with
          | nil =>
              cases rooted with
              | true => exact .nil
              | false => exact .up rfl (by simpa using hup)
          -- Another step up goes on top of steps up, which a rooted path has none of.
          | up hrel hall =>
              simp only [hall _ List.mem_cons_self, if_true]
              exact .up hrel fun d hd => (List.mem_cons.mp hd).elim (fun h => h ▸ hup) (hall d)
          -- A step up takes away the name below it.
          | name hname hbelow =>
              simp only [hname.notDotDot, Bool.false_eq_true, if_false]
              exact hbelow
      · next hup =>
          rw [Bool.not_eq_true] at hup
          exact .name ⟨by simpa using hblank.1, he, hblank.2, hup⟩ h

/-- Cleaning gives a clean stack, whatever the elements are. -/
theorem cleanElements_stacked (rooted : Bool) {es : List (List Char)} (h : ∀ e ∈ es, '/' ∉ e) :
    Stacked rooted (cleanElements rooted es).reverse := by
  have hfold : ∀ done, Stacked rooted done → Stacked rooted (es.foldl (push rooted) done) := by
    induction es with
    | nil => exact fun _ hd => hd
    | cons e es ih =>
        intro done hd
        exact ih (fun e he => h e (List.mem_cons_of_mem _ he)) _
          (push_stacked hd (h e List.mem_cons_self))
  rw [cleanElements, List.reverse_reverse]
  exact hfold [] .nil

theorem stacked_clean (p : List Char) :
    Stacked (isRooted p) (cleanElements (isRooted p) (elements p)).reverse :=
  cleanElements_stacked _ fun _ he => slash_not_mem_of_mem_elements he

/-- What was cleaned stays as it is. -/
theorem foldl_push_stacked {rooted : Bool} {es : List (List Char)} (h : Stacked rooted es) :
    es.reverse.foldl (push rooted) [] = es := by
  induction es with
  | nil => rfl
  | cons e es ih =>
      rw [List.reverse_cons, List.foldl_append]
      cases h with
      -- All elements are steps up, so each of them stays where it is pushed.
      | up hrel hall =>
          have hup := hall e List.mem_cons_self
          have hbelow : Stacked rooted es := by
            cases es with
            | nil => exact .nil
            | cons d ds => exact .up hrel fun x hx => hall x (List.mem_cons_of_mem _ hx)
          rw [ih hbelow]
          subst hrel
          rw [isDotDot_iff] at hup
          subst hup
          cases es with
          | nil => rfl
          | cons d ds =>
              have hd := hall d (List.mem_cons_of_mem _ List.mem_cons_self)
              rw [isDotDot_iff] at hd
              subst hd
              rfl
      | name hname hbelow =>
          have hne : e.isEmpty = false := by simpa using hname.nonempty
          rw [ih hbelow]
          simp [push, hne, hname.notDot, hname.notDotDot]

/-- Clean elements stay as they are. -/
theorem cleanElements_of_stacked {rooted : Bool} {es : List (List Char)}
    (h : Stacked rooted es.reverse) : cleanElements rooted es = es := by
  have hfold := foldl_push_stacked h
  rw [List.reverse_reverse] at hfold
  rw [cleanElements, hfold, List.reverse_reverse]

theorem Stacked.of_append {rooted : Bool} {rest es : List (List Char)}
    (h : Stacked rooted (rest ++ es)) : Stacked rooted es := by
  induction rest with
  | nil => exact h
  | cons e rest ih =>
      rw [List.cons_append] at h
      cases h with
      | name _ below => exact ih below
      | up relative all =>
          cases es with
          | nil => exact .nil
          | cons d es =>
              refine .up relative fun c hc => all c ?_
              exact List.mem_cons_of_mem e (List.mem_append_right rest hc)

theorem Stacked.plain {rooted : Bool} {es : List (List Char)} (h : Stacked rooted es) :
    ∀ e ∈ es, e ≠ [] ∧ '/' ∉ e ∧ isDot e = false := by
  induction h with
  | nil => simp
  | up _ hall =>
      intro e he
      rw [isDotDot_iff.mp (hall e he)]
      decide
  | name hname _ ih =>
      intro e he
      rcases List.mem_cons.mp he with rfl | he
      · exact ⟨hname.nonempty, hname.plain, hname.notDot⟩
      · exact ih e he

/-! ### Spelling -/

def spell (rooted : Bool) (es : List (List Char)) : List Char :=
  if rooted then '/' :: joinElements es
  else if es.isEmpty then ['.']
  else joinElements es

/-- What stands before the first element of a path. -/
def lead (rooted : Bool) : List (List Char) := if rooted then [[]] else []

theorem spell_concat (rooted : Bool) (es : List (List Char)) (n : List Char) :
    spell rooted (es ++ [n]) = joinElements (lead rooted ++ es ++ [n]) := by
  cases rooted with
  | true =>
      simp only [spell, lead, if_true, List.cons_append]
      rw [joinElements.eq_3 _ _ (by simp)]
      rfl
  | false => simp [spell, lead]

theorem isRooted_spell {rooted : Bool} {es : List (List Char)} (h : Stacked rooted es.reverse) :
    isRooted (spell rooted es) = rooted := by
  cases rooted with
  | true => rfl
  | false =>
      cases es with
      | nil => rfl
      | cons e es =>
          have he := h.plain e (by simp)
          cases e with
          | nil => exact absurd rfl he.1
          | cons c e =>
              have hc : c ≠ '/' := fun hc => he.2.1 (hc ▸ List.mem_cons_self)
              cases es with
              | nil => simp [spell, joinElements, isRooted, PathLetter.slash, hc]
              | cons d es =>
                  simp [spell, joinElements, isRooted, PathLetter.slash, hc]

/-- A cleaned path is the spelling of its cleaned elements. -/
theorem cleanList_eq_spell (p : List Char) :
    cleanList p = spell (isRooted p) (cleanElements (isRooted p) (elements p)) := by
  have hstack := stacked_clean p
  have hempty : (joinElements (cleanElements (isRooted p) (elements p))).isEmpty =
      (cleanElements (isRooted p) (elements p)).isEmpty := by
    generalize cleanElements (isRooted p) (elements p) = es at hstack
    cases es with
    | nil => rfl
    | cons e es =>
        have he := (hstack.plain e (by simp)).1
        cases es <;> simp [joinElements, he]
  simp only [cleanList, spell, hempty]
  rfl

/-- What cleaning leaves leads only upwards, or its last element is a name. -/
theorem stacked_cases {rooted : Bool} {es : List (List Char)} (h : Stacked rooted es.reverse) :
    (∀ e ∈ es, e = ['.', '.']) ∨
      ∃ init n, es = init ++ [n] ∧ IsName n ∧ Stacked rooted init.reverse := by
  have hes : es = es.reverse.reverse := (List.reverse_reverse es).symm
  cases hr : es.reverse with
  | nil =>
      rw [hes, hr]
      exact Or.inl (by simp)
  | cons n rest =>
      rw [hr] at h
      cases h with
      | up _ hall =>
          exact Or.inl fun e he => isDotDot_iff.mp (hall e (hr ▸ List.mem_reverse.mpr he))
      | name hname hbelow =>
          refine Or.inr ⟨rest.reverse, n, ?_, hname, by rwa [List.reverse_reverse]⟩
          rw [hes, hr, List.reverse_cons]

/-- A cleaned path leads only upwards, or its last element is a name. -/
theorem clean_cases {p : String} (h : clean p = p) :
    (∃ rooted es, p = String.ofList (spell rooted es) ∧ Stacked rooted es.reverse ∧
        ∀ e ∈ es, e = ['.', '.']) ∨
      ∃ rooted es n, p = String.ofList (spell rooted (es ++ [n])) ∧ IsName n ∧
        Stacked rooted es.reverse := by
  have hp : p = String.ofList (spell (isRooted p.toList) (cleanElements (isRooted p.toList)
      (elements p.toList))) := by
    rw [← cleanList_eq_spell]
    exact h.symm
  have hstack := stacked_clean p.toList
  generalize cleanElements (isRooted p.toList) (elements p.toList) = es at hp hstack
  generalize isRooted p.toList = rooted at hp hstack
  rcases stacked_cases hstack with hup | ⟨init, n, rfl, hname, hbelow⟩
  · exact Or.inl ⟨rooted, es, hp, hstack, hup⟩
  · exact Or.inr ⟨rooted, init, n, hp, hname, hbelow⟩

/-! ### Around the last element -/

section LastElement

variable {rooted : Bool} {es : List (List Char)} {n : List Char}

/-- What stands before the last element of a path. -/
def before (rooted : Bool) (es : List (List Char)) : List Char :=
  joinElements (lead rooted ++ es ++ [[]])

theorem spell_eq_before_append (n : List Char) :
    spell rooted (es ++ [n]) = before rooted es ++ n := by
  rw [spell_concat, joinElements_concat]
  rfl

/-- What is appended to a path is appended to its last element. -/
theorem spell_append (n more : List Char) :
    spell rooted (es ++ [n]) ++ more = spell rooted (es ++ [n ++ more]) := by
  rw [spell_eq_before_append, spell_eq_before_append, List.append_assoc]

/-- The last element has a separator before it, if anything. -/
theorem before_cases (rooted : Bool) (es : List (List Char)) :
    before rooted es = [] ∨ before rooted es = joinElements (lead rooted ++ es) ++ ['/'] := by
  unfold before
  by_cases h : lead rooted ++ es = []
  · rw [h]
    exact Or.inl rfl
  · exact Or.inr (joinElements_concat_nil h)

theorem plain_of_mem_lead {e : List Char} (h : e ∈ lead rooted) : '/' ∉ e := by
  unfold lead at h
  split at h
  · rw [List.mem_singleton.mp h]
    exact List.not_mem_nil
  · cases h

/-- The elements of a spelled path are those it was spelled from, the root in front. -/
theorem elements_spell_concat (hs : Stacked rooted es.reverse) (hn : '/' ∉ n) :
    elements (spell rooted (es ++ [n])) = lead rooted ++ es ++ [n] := by
  rw [spell_concat]
  refine elements_join _ ?_ (by simp)
  intro e he
  rcases List.mem_append.mp he with he | he
  · rcases List.mem_append.mp he with he | he
    · exact plain_of_mem_lead he
    · exact (hs.plain e (List.mem_reverse.mpr he)).2.1
  · rw [List.mem_singleton.mp he]
    exact hn

/-- The last element goes when everything up to a separator goes from the end. -/
theorem dropWhile_reverse_spell (hn : '/' ∉ n) :
    (spell rooted (es ++ [n])).reverse.dropWhile (· != '/') = (before rooted es).reverse := by
  have hstop : (before rooted es).reverse.dropWhile (· != '/') = (before rooted es).reverse := by
    rcases before_cases rooted es with h | h <;> rw [h]
    · rfl
    · rw [List.reverse_append]
      rfl
  rw [spell_eq_before_append, List.reverse_append, List.dropWhile_append_of_pos, hstop]
  intro c hc
  rw [bne_iff_ne]
  rintro rfl
  exact hn (List.mem_reverse.mp hc)

/-- A path does not end in a separator if its last element is not empty. -/
theorem dropWhile_slash_spell (hn : n ≠ []) (hplain : '/' ∉ n) :
    (spell rooted (es ++ [n])).reverse.dropWhile (· == '/') = (spell rooted (es ++ [n])).reverse := by
  rw [spell_eq_before_append, List.reverse_append]
  obtain ⟨c, rest, hc⟩ := List.exists_cons_of_ne_nil (mt List.reverse_eq_nil_iff.mp hn)
  have hne : c ≠ '/' := by
    rintro rfl
    exact hplain (List.mem_reverse.mp (hc ▸ List.mem_cons_self))
  rw [hc, List.cons_append, List.dropWhile_cons_of_neg (by simpa using hne)]

theorem isRooted_before (hs : Stacked rooted es.reverse) : isRooted (before rooted es) = rooted := by
  cases rooted with
  | true => cases es <;> rfl
  | false =>
      cases es with
      | nil => rfl
      | cons e es =>
          have hr := isRooted_spell hs
          have hne : e ≠ [] := (hs.plain e (by simp)).1
          obtain ⟨c, e, rfl⟩ := List.exists_cons_of_ne_nil hne
          cases es <;> simpa [spell, before, lead, joinElements, isRooted] using hr

/-- The directory around a path that ends in a name. -/
theorem dir_spell (hs : Stacked rooted es.reverse) (hn : '/' ∉ n) :
    dir (String.ofList (spell rooted (es ++ [n]))) = String.ofList (spell rooted es) := by
  have helements : elements (before rooted es) = lead rooted ++ es ++ [[]] := by
    refine elements_join _ ?_ (by simp)
    intro e he
    rcases List.mem_append.mp he with he | he
    · rcases List.mem_append.mp he with he | he
      · exact plain_of_mem_lead he
      · exact (hs.plain e (List.mem_reverse.mpr he)).2.1
    · rw [List.mem_singleton.mp he]
      exact List.not_mem_nil
  have hclean : cleanElements rooted (lead rooted ++ es ++ [[]]) = es := by
    have hes : cleanElements rooted es = es := cleanElements_of_stacked hs
    rw [cleanElements] at hes ⊢
    rw [List.foldl_append, List.foldl_append]
    cases rooted <;> exact hes
  rw [dir, clean, String.toList_ofList, String.toList_ofList, dropWhile_reverse_spell hn,
    List.reverse_reverse, cleanList_eq_spell, isRooted_before hs, helements, hclean]

/-- The last element of a path that ends in a name. -/
theorem base_spell (hn : IsName n) :
    base (String.ofList (spell rooted (es ++ [n]))) = String.ofList n := by
  have hne : String.ofList (spell rooted (es ++ [n])) ≠ "" := by
    intro h
    have hl := congrArg String.toList h
    rw [String.toList_ofList, spell_eq_before_append] at hl
    exact hn.nonempty (List.append_eq_nil_iff.mp hl).2
  have htake : (spell rooted (es ++ [n])).reverse.takeWhile (· != '/') = n.reverse := by
    have hall : ∀ c ∈ n.reverse, (c != '/') = true := by
      intro c hc
      rw [bne_iff_ne]
      rintro rfl
      exact hn.plain (List.mem_reverse.mp hc)
    rw [spell_eq_before_append, List.reverse_append, List.takeWhile_append_of_pos hall]
    rcases before_cases rooted es with h | h <;> rw [h] <;> simp
  have hempty : n.isEmpty = false := by simpa using hn.nonempty
  unfold base
  rw [if_neg hne]
  simp only [String.toList_ofList, dropWhile_slash_spell hn.nonempty hn.plain, htake,
    List.reverse_reverse, hempty, Bool.false_eq_true, if_false]

/-- Every element that cleaning leaves leads somewhere. -/
theorem filter_of_stacked (hs : Stacked rooted es.reverse) :
    es.filter (fun e => !(e.isEmpty || isDot e)) = es := by
  rw [List.filter_eq_self]
  intro e he
  obtain ⟨hne, _, hdot⟩ := hs.plain e (List.mem_reverse.mpr he)
  simp [hne, hdot]

/-- The elements of a path that lead somewhere. -/
theorem filter_elements_spell (hs : Stacked rooted es.reverse) :
    (elements (spell rooted es)).filter (fun e => !(e.isEmpty || isDot e)) = es := by
  have hkeep := filter_of_stacked hs
  have hplain : ∀ e ∈ es, '/' ∉ e := fun e he => (hs.plain e (List.mem_reverse.mpr he)).2.1
  cases rooted with
  -- The root is an empty element in front, which is left out.
  | true =>
      have hslash := elements_append_slash [] (joinElements es)
      simp only [spell, if_true]
      rw [List.nil_append] at hslash
      rw [hslash]
      cases es with
      | nil => rfl
      | cons e es =>
          rw [elements_join _ hplain (by simp), List.filter_append, hkeep]
          rfl
  | false =>
      cases es with
      | nil => rfl
      | cons e es =>
          have hspell : spell false (e :: es) = joinElements (e :: es) := rfl
          rw [hspell, elements_join _ hplain (by simp), hkeep]

theorem mem_joinElements {c : Char} (h : c ∈ joinElements es) : c = '/' ∨ ∃ e ∈ es, c ∈ e := by
  induction es using joinElements.induct with
  | case1 => cases h
  | case2 e => exact Or.inr ⟨e, List.mem_cons_self, h⟩
  | case3 e es hes ih =>
      rw [joinElements.eq_3 _ _ hes] at h
      rcases List.mem_append.mp h with h | h
      · exact Or.inr ⟨e, List.mem_cons_self, h⟩
      · rcases List.mem_cons.mp h with rfl | h
        · exact Or.inl rfl
        · exact (ih h).imp_right fun ⟨d, hd, hc⟩ => ⟨d, List.mem_cons_of_mem e hd, hc⟩

theorem mem_joinElements_of_mem {c : Char} {e : List Char} (he : e ∈ es) (hc : c ∈ e) :
    c ∈ joinElements es := by
  induction es using joinElements.induct with
  | case1 => cases he
  | case2 d => rwa [List.mem_singleton.mp he] at hc
  | case3 d es hes ih =>
      rw [joinElements.eq_3 _ _ hes]
      rcases List.mem_cons.mp he with rfl | he
      · exact List.mem_append_left _ hc
      · exact List.mem_append_right _ (List.mem_cons_of_mem _ (ih he))

/-- A path is at least as long as it has elements. -/
theorem length_le_length_spell (hs : Stacked rooted es.reverse) :
    es.length ≤ (spell rooted es).length := by
  -- No element is empty, so that joining them loses none.
  have hjoin : ∀ l : List (List Char), (∀ e ∈ l, e ≠ []) → l.length ≤ (joinElements l).length := by
    intro l
    induction l using joinElements.induct with
    | case1 => simp
    | case2 e =>
        intro h
        have hpos := List.length_pos_iff.mpr (h e List.mem_cons_self)
        exact hpos
    | case3 e l hl ih =>
        intro h
        have hrest := ih fun e he => h e (List.mem_cons_of_mem _ he)
        rw [joinElements.eq_3 _ _ hl]
        simp only [List.length_cons, List.length_append]
        omega
  have hes := hjoin es fun e he => (hs.plain e (List.mem_reverse.mpr he)).1
  cases rooted with
  | true =>
      simp only [spell, if_true, List.length_cons]
      omega
  | false =>
      cases es with
      | nil => simp
      | cons e es => exact hes

theorem spell_ne_nil (hs : Stacked rooted es.reverse) : spell rooted es ≠ [] := by
  intro h
  have hlen := length_le_length_spell hs
  rw [h] at hlen
  cases es with
  | nil => cases rooted <;> cases h
  | cons e es => simp at hlen

/-! ### Cleaning twice -/

/-- Cleaning passes over what leads nowhere. -/
theorem cleanElements_filter (rooted : Bool) (es : List (List Char)) :
    cleanElements rooted (es.filter fun e => !(e.isEmpty || isDot e)) = cleanElements rooted es := by
  have hfold : ∀ done, (es.filter fun e => !(e.isEmpty || isDot e)).foldl (push rooted) done =
      es.foldl (push rooted) done := by
    induction es with
    | nil => exact fun _ => rfl
    | cons e es ih =>
        intro done
        cases hidle : e.isEmpty || isDot e with
        | true =>
            rw [List.filter_cons_of_neg (by simp [hidle]), List.foldl_cons, ih]
            simp [push, hidle]
        | false =>
            rw [List.filter_cons_of_pos (by simp [hidle]), List.foldl_cons, List.foldl_cons, ih]
  rw [cleanElements, cleanElements, hfold]

/-- **Cleaning twice is cleaning once.** -/
theorem cleanList_cleanList (p : List Char) : cleanList (cleanList p) = cleanList p := by
  have hs := stacked_clean p
  rw [cleanList_eq_spell p]
  generalize cleanElements (isRooted p) (elements p) = es at hs
  generalize isRooted p = rooted at hs
  rw [cleanList_eq_spell, isRooted_spell hs, ← cleanElements_filter, filter_elements_spell hs,
    cleanElements_of_stacked hs]

/-- A joined path is clean already. -/
theorem clean_join {parts : List String} {part : String} (h : part ∈ parts) (hne : part ≠ "") :
    clean (join parts) = join parts := by
  have hmem : part ∈ parts.filter (· ≠ "") := List.mem_filter.mpr ⟨h, by simpa using hne⟩
  unfold join
  cases hf : parts.filter (· ≠ "") with
  | nil => rw [hf] at hmem; cases hmem
  | cons q qs => simp only [clean, String.toList_ofList, cleanList_cleanList]

end LastElement

/-! ### The extension -/

section Extension

open PathLetter (slash dot)

/-- A list is cut at the last place where something occurs. -/
theorem exists_last {α : Type} {a : α} {l : List α} (h : a ∈ l) :
    ∃ front back, l = front ++ a :: back ∧ a ∉ back := by
  obtain ⟨back, front, hl, hback⟩ := List.eq_append_cons_of_mem (List.mem_reverse.mpr h)
  refine ⟨front.reverse, back.reverse, ?_, by rwa [List.mem_reverse]⟩
  simpa using congrArg List.reverse hl

variable {α : Type} [PathLetter α] {p dir name ext : List α}

/-- What the last element of a path, `name`, has from its last dot on; nothing if it
has no dot. -/
inductive IsExtensionOf (name : List α) : List α → Prop
  | none (h : dot ∉ name) : IsExtensionOf name []
  | some {stem rest : List α} (h : name = stem ++ dot :: rest) (hrest : dot ∉ rest) :
      IsExtensionOf name (dot :: rest)

/-- What stands in front of the last element of a path: nothing, or up to a separator. -/
def IsFront (dir : List α) : Prop := dir = [] ∨ ∃ d, dir = d ++ [slash]

/-- A path ends in an extension. -/
def HasExtension (p ext : List α) : Prop :=
  ∃ dir name, p = dir ++ name ∧ IsFront dir ∧ slash ∉ name ∧ IsExtensionOf name ext

/-- Every name has an extension, which can be empty. -/
theorem exists_isExtensionOf (name : List α) : ∃ ext, IsExtensionOf name ext := by
  by_cases h : dot ∈ name
  · obtain ⟨stem, rest, hname, hrest⟩ := exists_last h
    exact ⟨_, .some hname hrest⟩
  · exact ⟨_, .none h⟩

theorem exists_hasExtension (p : List α) : ∃ ext, HasExtension p ext := by
  by_cases h : slash ∈ p
  · obtain ⟨d, name, hp, hname⟩ := exists_last h
    obtain ⟨ext, hext⟩ := exists_isExtensionOf name
    exact ⟨ext, d ++ [slash], name, by simpa using hp, .inr ⟨d, rfl⟩, hname, hext⟩
  · obtain ⟨ext, hext⟩ := exists_isExtensionOf p
    exact ⟨ext, [], p, rfl, .inl rfl, h, hext⟩

variable [BEq α] [LawfulBEq α]

theorem takeWhile_reverse (hdir : IsFront dir) (hname : slash ∉ name) :
    (dir ++ name).reverse.takeWhile (· != slash) = name.reverse := by
  have hname' : slash ∉ name.reverse := by rwa [List.mem_reverse]
  rw [List.reverse_append]
  obtain rfl | ⟨d, rfl⟩ := hdir
  · simpa using Text.takeWhile_notMem hname'
  · rw [List.reverse_concat]
    exact Text.takeWhile_sep hname' _

/-- **The extension of a path** is the one it has. -/
theorem extensionList_eq_iff : extensionList p = ext ↔ HasExtension p ext := by
  have hunique {ext : List α} : HasExtension p ext → extensionList p = ext := by
    rintro ⟨dir, name, rfl, hdir, hname, hext⟩
    simp only [extensionList, takeWhile_reverse hdir hname]
    cases hext with
    | none h => simp [h]
    | @some stem rest h hrest =>
      have hrest' : dot ∉ rest.reverse := by rwa [List.mem_reverse]
      have hreverse : name.reverse = rest.reverse ++ dot :: stem.reverse := by simp [h]
      have hmem : (rest.reverse ++ dot :: stem.reverse).contains dot = true := by simp
      rw [hreverse, if_pos hmem, Text.takeWhile_sep hrest', List.reverse_reverse]
  refine ⟨?_, hunique⟩
  rintro rfl
  obtain ⟨ext, hext⟩ := exists_hasExtension p
  rwa [hunique hext]

/-- The octets of a path end in those of its extension. -/
theorem extensionList_utf8 (p : String) : textOf (extensionList (utf8 p)) = extension p := by
  unfold extension
  -- Separators and dots are ASCII: their octets stand for nothing else in UTF-8.
  have hslash {cs : List Char} (h : '/' ∉ cs) : (0x2F : UInt8) ∉ Utf8.encode cs :=
    fun hm => h (Utf8.mem_of_ascii_mem_encode (by decide) hm)
  have hdot {cs : List Char} (h : '.' ∉ cs) : (0x2E : UInt8) ∉ Utf8.encode cs :=
    fun hm => h (Utf8.mem_of_ascii_mem_encode (by decide) hm)
  generalize he : extensionList p.toList = ext
  -- The parts of the text, encoded, are the parts of its octets.
  obtain ⟨dir, name, hp, hdir, hname, hext⟩ := extensionList_eq_iff.mp he
  have hdir' : IsFront (Utf8.encode dir) := by
    obtain rfl | ⟨d, rfl⟩ := hdir
    · exact .inl rfl
    · exact .inr ⟨Utf8.encode d, Utf8.encode_append d ['/']⟩
  have hext' : IsExtensionOf (Utf8.encode name) (Utf8.encode ext) := by
    cases hext with
    | none h => exact .none (hdot h)
    | @some stem rest h hrest =>
      have hencode (cs : List Char) : Utf8.encode ('.' :: cs) = 0x2E :: Utf8.encode cs :=
        Utf8.encode_append ['.'] cs
      have hname : Utf8.encode name = Utf8.encode stem ++ 0x2E :: Utf8.encode rest := by
        rw [h, Utf8.encode_append]
        exact congrArg _ (hencode rest)
      exact (hencode rest).symm ▸ .some hname (hdot hrest)
  have hhas : HasExtension (utf8 p) (Utf8.encode ext) :=
    ⟨Utf8.encode dir, Utf8.encode name, by rw [utf8, hp, Utf8.encode_append], hdir', hslash hname, hext'⟩
  rw [extensionList_eq_iff.mpr hhas, textOf, Utf8.decode_encode]

end Extension

end LanguageClient.Path
