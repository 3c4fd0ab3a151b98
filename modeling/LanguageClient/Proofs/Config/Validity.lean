import LanguageClient.Config.Basic

/-! # Configurations that are accepted.

A configuration is accepted exactly if each of its values passes its own check
(`validate_eq_ok`). -/

namespace LanguageClient.Config

variable {c : Config}

/-- Every value passes its check. -/
structure Accepted (c : Config) : Prop where
  installRoot : isBlank c.installRoot = false
  baseName : isBlank c.baseName = false
  /-- The base name is no path. -/
  undivided : ∀ l ∈ c.baseName.toList, l ≠ '/' ∧ l ≠ '\\'
  languageId : isBlank c.languageId = false
  releaseBaseUrl : validateReleaseUrl c.releaseBaseUrl = .ok ()
  downloadTimeout : 0 < c.downloadTimeout.nanoseconds
  startTimeout : 0 < c.startTimeout.nanoseconds
  stopTimeout : 0 < c.stopTimeout.nanoseconds

/-- A time limit passes its check exactly if it is positive. -/
theorem validateTimeout_eq_ok {what : String} {d : Duration} :
    validateTimeout what d = .ok () ↔ 0 < d.nanoseconds := by
  unfold validateTimeout
  split
  · next h => exact ⟨nofun, fun hpos => absurd h (Int.not_le.mpr hpos)⟩
  · next h => exact ⟨fun _ => Int.not_le.mp h, fun _ => rfl⟩

/-- A check in front of others. -/
theorem guard_eq_ok {b : Bool} {e : Error} {rest : Except Error Unit} :
    (if b = true then (throw e : Except Error PUnit) >>= fun _ => rest else rest) = .ok () ↔
      b = false ∧ rest = .ok () := by
  cases b with
  | true => exact ⟨nofun, nofun⟩
  | false => exact ⟨fun h => ⟨rfl, h⟩, And.right⟩

/-- Two checks in a row pass exactly if both do. -/
theorem bind_unit_eq_ok {first rest : Except Error Unit} :
    (first >>= fun _ => rest) = .ok () ↔ first = .ok () ∧ rest = .ok () := by
  cases first with
  | error e => exact ⟨nofun, nofun⟩
  | ok u => exact ⟨fun h => ⟨rfl, h⟩, And.right⟩

theorem undivided_iff {s : String} :
    (s.toList.any fun l => l = '/' || l = '\\') = false ↔ ∀ l ∈ s.toList, l ≠ '/' ∧ l ≠ '\\' := by
  simp only [List.any_eq_false, Bool.or_eq_true, decide_eq_true_eq, not_or, ne_eq]

/-- **What is accepted** passes each check, and nothing else is asked of it. -/
theorem validate_eq_ok : c.validate = .ok () ↔ c.Accepted := by
  unfold validate
  dsimp only
  rw [guard_eq_ok, guard_eq_ok, guard_eq_ok, guard_eq_ok, bind_unit_eq_ok, bind_unit_eq_ok,
    bind_unit_eq_ok, validateTimeout_eq_ok, validateTimeout_eq_ok, validateTimeout_eq_ok, undivided_iff]
  constructor
  · rintro ⟨hroot, hbase, hundivided, hlanguage, hurl, hdownload, hstart, hstop⟩
    exact ⟨hroot, hbase, hundivided, hlanguage, hurl, hdownload, hstart, hstop⟩
  · rintro ⟨hroot, hbase, hundivided, hlanguage, hurl, hdownload, hstart, hstop⟩
    exact ⟨hroot, hbase, hundivided, hlanguage, hurl, hdownload, hstart, hstop⟩

/-- A result that is there is the result. -/
theorem eq_ok_of_toOption {ε α : Type} {x : Except ε α} {a : α} (h : x.toOption = some a) : x = .ok a := by
  cases x with
  | error e => cases h
  | ok b => exact congrArg Except.ok (Option.some.inj h)

/-- A text that is not blank is not empty. -/
theorem ne_empty_of_not_blank {s : String} (h : isBlank s = false) : s ≠ "" := by
  rintro rfl
  exact absurd h (by decide)

end LanguageClient.Config
