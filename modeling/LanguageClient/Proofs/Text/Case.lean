import LanguageClient.Text.Case

/-! # Names up to letter case.

Two characters beyond ASCII fold to letters of it. In a name that holds neither these
letters nor these characters the folding of names is that of ASCII capitals and nothing
else. -/

namespace LanguageClient.Text

/-- The two characters beyond ASCII that fold to a letter of it, and these letters. -/
def exceptions : List Char := ['\u017F', '\u212A', 's', 'k']

/-- A name in which nothing but capitals makes a difference. -/
def Plain (name : List Char) : Prop := ∀ c ∈ name, c.toLower ∉ exceptions

-- given by name, since trying all characters, which are finitely many, would decide it as well
instance (name : List Char) : Decidable (Plain name) :=
  List.decidableBAll (fun c : Char => c.toLower ∉ exceptions) name

/-- A character that folds to something else than its small letter folds to one of the exceptions. -/
theorem foldChar_cases (c : Char) :
    foldChar c = c.toLower ∨ foldChar c ∈ exceptions ∧ c.toLower ∈ exceptions := by
  unfold foldChar
  split
  · next h => exact Or.inr ⟨by decide, by rw [h]; decide⟩
  · split
    · next h => exact Or.inr ⟨by decide, by rw [h]; decide⟩
    · exact Or.inl rfl

/-- **A plain name is the same name as another one if they differ in capitals only.** -/
theorem sameName_iff {name : List Char} (h : Plain name) (cs : List Char) :
    sameName cs name = true ↔ cs.map Char.toLower = name.map Char.toLower := by
  have hname : name.map foldChar = name.map Char.toLower := by
    apply List.map_congr_left
    intro c hc
    exact (foldChar_cases c).resolve_right fun hex => h c hc hex.2
  have hplain : ∀ d ∈ name.map Char.toLower, d ∉ exceptions := by
    intro d hd
    obtain ⟨c, hc, rfl⟩ := List.mem_map.mp hd
    exact h c hc
  -- whichever folding gives the name, no character that was folded is an exception
  have hsame : ∀ {f : Char → Char}, (∀ c, foldChar c = c.toLower ∨ f c ∈ exceptions) →
      cs.map f = name.map Char.toLower → cs.map foldChar = cs.map Char.toLower := by
    intro f hf hcs
    apply List.map_congr_left
    intro c hc
    exact (hf c).resolve_right (hplain _ (hcs ▸ List.mem_map_of_mem hc))
  rw [sameName, beq_iff_eq, hname]
  constructor
  · intro hcs
    rw [← hsame (fun c => (foldChar_cases c).imp_right And.left) hcs, hcs]
  · intro hcs
    rw [hsame (fun c => (foldChar_cases c).imp_right And.right) hcs, hcs]

end LanguageClient.Text
