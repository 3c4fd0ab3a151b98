import LanguageClient.Log.Time
import LanguageClient.Proofs.Number.Decimal

/-! # What a point in time is written with.

Digits, and a few marks between them; in particular no line end. -/

namespace LanguageClient.Log.Time

open Number

variable {t : Time} {c : Char}

theorem isDigit_of_mem_padded {width n : Nat} (h : c ∈ padded width n) : c.isDigit = true := by
  rcases List.mem_append.mp h with h | h
  · rw [List.eq_of_mem_replicate h]
    rfl
  · exact isDigit_of_mem_natText h

theorem mem_clock (h : c ∈ t.clock.toList) : c.isDigit = true ∨ c = ':' := by
  simp only [clock, two, String.toList_append, String.toList_ofList, List.mem_append] at h
  grind [isDigit_of_mem_padded]

theorem mem_preciseClock (h : c ∈ t.preciseClock.toList) :
    c.isDigit = true ∨ c = ':' ∨ c = '.' := by
  simp only [preciseClock, String.toList_append, String.toList_ofList, List.mem_append] at h
  grind [isDigit_of_mem_padded, mem_clock]

theorem mem_yearText {y : Int} (h : c ∈ (yearText y).toList) : c.isDigit = true ∨ c = '-' := by
  simp only [yearText, String.toList_append, String.toList_ofList, List.mem_append] at h
  rcases h with h | h
  · right
    split at h
    · exact List.mem_singleton.mp h
    · cases h
  · left
    exact isDigit_of_mem_padded h

theorem mem_stamp (h : c ∈ t.stamp.toList) :
    c.isDigit = true ∨ c = ':' ∨ c = '-' ∨ c = ' ' := by
  simp only [stamp, two, String.toList_append, String.toList_ofList, List.mem_append] at h
  grind [isDigit_of_mem_padded, mem_yearText, mem_clock]

/-- No line end stands in a time of day. -/
theorem lineEnd_notMem_preciseClock : '\n' ∉ t.preciseClock.toList := by
  intro h
  have := mem_preciseClock h
  revert this
  decide

theorem lineEnd_notMem_stamp : '\n' ∉ t.stamp.toList := by
  intro h
  have := mem_stamp h
  revert this
  decide

end LanguageClient.Log.Time
