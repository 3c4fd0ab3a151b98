import LanguageClient.Config.Source

/-! # Which entries win.

Entries are offered to a snapshot one after the other, in whatever order the
sources and their entries come in. A snapshot always holds, for every key that was
offered, one entry with the least priority number (`Holds`); so it holds exactly
the winning entries if no two entries for a key are of the same priority
(`Holds.mem_iff`). There is one way to list these by key (`eq_of_ordered`), so the order
in which they came does not show. -/

namespace LanguageClient.Config

namespace Snapshot

variable {s t : Snapshot} {e o : Entry} {P Q : Entry → Prop}

/-- No two entries have the same key. -/
def Distinct (s : Snapshot) : Prop := s.Pairwise fun a b => a.key ≠ b.key

/-- A snapshot has one entry for a key. -/
theorem Distinct.eq_of_key (h : s.Distinct) {a b : Entry} (ha : a ∈ s) (hb : b ∈ s)
    (hk : a.key = b.key) : a = b := by
  induction s with
  | nil => cases ha
  | cons x s ih =>
      obtain ⟨hx, hs⟩ := List.pairwise_cons.mp h
      rcases List.mem_cons.mp ha with rfl | ha' <;> rcases List.mem_cons.mp hb with rfl | hb'
      · rfl
      · exact absurd hk (hx b hb')
      · exact absurd hk.symm (hx a ha')
      · exact ih hs ha' hb'

theorem Distinct.nodup (h : s.Distinct) : s.Nodup := by
  refine List.Pairwise.imp ?_ h
  intro a b hk he
  exact hk (congrArg Entry.key he)

theorem find?_eq_some (h : s.find? o.key = some e) : e ∈ s ∧ e.key = o.key :=
  ⟨List.mem_of_find?_eq_some h, by simpa using List.find?_some h⟩

theorem find?_eq_none {key : String} (h : s.find? key = none) (e : Entry) (he : e ∈ s) :
    e.key ≠ key := by
  simpa using List.find?_eq_none.mp h e he

/-! ### Offers -/

theorem mem_set : o ∈ s.set e ↔ o ∈ s ∧ o.key ≠ e.key ∨ o = e := by
  simp [set]

/-- Setting an entry keeps the keys distinct. -/
theorem Distinct.set (h : s.Distinct) (e : Entry) : (s.set e).Distinct := by
  refine List.pairwise_append.mpr ⟨h.filter _, List.pairwise_singleton _ _, ?_⟩
  intro a ha b hb
  rw [List.mem_singleton.mp hb]
  simpa using (List.mem_filter.mp ha).2

/-- Of what was offered, nothing for the key of this entry has a lower priority number. -/
def Least (P : Entry → Prop) (e : Entry) : Prop :=
  P e ∧ ∀ o, P o → o.key = e.key → e.priority ≤ o.priority

/-- A snapshot holds one of the least entries for every key that was offered. -/
structure Holds (s : Snapshot) (P : Entry → Prop) : Prop where
  distinct : s.Distinct
  least : ∀ e ∈ s, Least P e
  covers : ∀ o, P o → ∃ e ∈ s, e.key = o.key

theorem holds_nil : Holds [] fun _ => False := ⟨List.Pairwise.nil, by simp, by simp⟩

theorem Holds.congr (h : Holds s P) (hPQ : ∀ e, P e ↔ Q e) : Holds s Q := by
  have : P = Q := funext fun e => propext (hPQ e)
  exact this ▸ h

/-- The entry takes its place: nothing that was there for its key is as good. -/
theorem Holds.set (h : Holds s P) (hlow : ∀ o ∈ s, o.key = e.key → e.priority < o.priority) :
    Holds (s.set e) fun o => P o ∨ o = e where
  distinct := h.distinct.set e
  least := by
    intro x hx
    rcases mem_set.mp hx with ⟨hx, hne⟩ | rfl
    · obtain ⟨hP, hmin⟩ := h.least x hx
      refine ⟨Or.inl hP, ?_⟩
      rintro o (ho | rfl) hk
      · exact hmin o ho hk
      · exact absurd hk.symm hne
    -- The new entry is the least for its key, as it is lower than what was there.
    · refine ⟨Or.inr rfl, ?_⟩
      rintro o (ho | rfl) hk
      · obtain ⟨y, hy, hyk⟩ := h.covers o ho
        have hyx := hlow y hy (hyk.trans hk)
        have hyo := (h.least y hy).2 o ho hyk.symm
        omega
      · exact Nat.le_refl _
  covers := by
    rintro o (ho | rfl)
    · by_cases hk : o.key = e.key
      · exact ⟨e, mem_set.mpr (Or.inr rfl), hk.symm⟩
      · obtain ⟨x, hx, hxk⟩ := h.covers o ho
        exact ⟨x, mem_set.mpr (Or.inl ⟨hx, hxk ▸ hk⟩), hxk⟩
    · exact ⟨o, mem_set.mpr (Or.inr rfl), rfl⟩

/-- The entry is dropped: what is there for its key is as good. -/
theorem Holds.keep (h : Holds s P) (hc : o ∈ s) (hk : o.key = e.key) (hle : o.priority ≤ e.priority) :
    Holds s fun o => P o ∨ o = e where
  distinct := h.distinct
  least := by
    intro x hx
    obtain ⟨hP, hmin⟩ := h.least x hx
    refine ⟨Or.inl hP, ?_⟩
    rintro y (hy | rfl) hyk
    · exact hmin y hy hyk
    · have hxo := h.distinct.eq_of_key hx hc (hyk.symm.trans hk.symm)
      exact hxo ▸ hle
  covers := by
    rintro y (hy | rfl)
    · exact h.covers y hy
    · exact ⟨o, hc, hk⟩

/-- **One offer keeps the best entry of every key.** -/
theorem Holds.offer (h : Holds s P) (e : Entry) : Holds (s.offer e) fun o => P o ∨ o = e := by
  unfold Snapshot.offer
  split
  · next current hfind =>
      obtain ⟨hc, hk⟩ := find?_eq_some hfind
      split
      · next hle => exact h.keep hc hk hle
      · next hgt =>
          apply h.set
          intro o ho hok
          rw [h.distinct.eq_of_key ho hc (hok.trans hk.symm)]
          omega
  · next hfind =>
      apply h.set
      intro o ho hok
      exact absurd hok (find?_eq_none hfind o ho)

/-- **So do many.** -/
theorem Holds.merge (h : Holds s P) (t : Snapshot) : Holds (s.merge t) fun o => P o ∨ o ∈ t := by
  unfold Snapshot.merge
  induction t generalizing s P with
  | nil => exact h.congr (by simp)
  | cons e t ih =>
      rw [List.foldl_cons]
      exact (ih (h.offer e)).congr (by simp [or_assoc])

/-- If no two entries for a key are of the same priority, the snapshot holds
exactly the least ones. -/
theorem Holds.mem_iff (h : Holds s P)
    (hone : ∀ a b, P a → P b → a.key = b.key → a.priority = b.priority → a = b) :
    e ∈ s ↔ Least P e := by
  constructor
  · exact h.least e
  · rintro ⟨hP, hmin⟩
    obtain ⟨x, hx, hk⟩ := h.covers e hP
    obtain ⟨hPx, hminx⟩ := h.least x hx
    have hle := hmin x hPx hk
    have hge := hminx e hP hk.symm
    exact hone x e hPx hP hk (by omega) ▸ hx

/-! ### Sorting -/

theorem mem_sorted : e ∈ s.sorted ↔ e ∈ s := (List.mergeSort_perm _ _).mem_iff

/-- Sorting puts the entries in the order of their keys. -/
theorem pairwise_sorted (s : Snapshot) : s.sorted.Pairwise fun a b => a.key ≤ b.key := by
  have htrans : ∀ a b c : Entry, decide (a.key ≤ b.key) = true → decide (b.key ≤ c.key) = true →
      decide (a.key ≤ c.key) = true := by
    intro a b c hab hbc
    rw [decide_eq_true_eq] at hab hbc ⊢
    exact String.le_trans hab hbc
  have htotal : ∀ a b : Entry, (decide (a.key ≤ b.key) || decide (b.key ≤ a.key)) = true := by
    intro a b
    rw [Bool.or_eq_true, decide_eq_true_eq, decide_eq_true_eq]
    exact String.le_total a.key b.key
  exact (List.pairwise_mergeSort htrans htotal s).imp fun h => of_decide_eq_true h

theorem Distinct.sorted (h : s.Distinct) : s.sorted.Distinct :=
  List.Perm.pairwise (R := fun a b : Entry => a.key ≠ b.key)
    (List.mergeSort_perm s fun a b => a.key ≤ b.key).symm h fun hab => hab.symm

/-- There is one way to list entries for different keys in the order of their keys. -/
theorem eq_of_ordered (hs : s.Distinct) (ht : t.Distinct) (hsorted : s.Pairwise fun a b => a.key ≤ b.key)
    (htsorted : t.Pairwise fun a b => a.key ≤ b.key) (hmem : ∀ e, e ∈ s ↔ e ∈ t) : s = t := by
  have hperm : s.Perm t := (List.perm_ext_iff_of_nodup hs.nodup ht.nodup).mpr hmem
  apply List.Perm.eq_of_pairwise _ hsorted htsorted hperm
  intro a b ha hb hab hba
  exact ht.eq_of_key (hperm.mem_iff.mp ha) hb (String.le_antisymm hab hba)

end Snapshot

end LanguageClient.Config
