import LanguageClient.Proofs.Run.Attendance

/-! # What lasts while a run waits.

While a run waits anything may happen to its server. `Course.await_kept` and
`Course.call_kept` reduce what is so after a wait or a call to what no single incident
puts an end to. With them the invariants of single calls make a `ledger` of a course: to
what was sent a run adds nothing but what it sends, and all along its server is tended. -/

namespace LanguageClient.Run

open Supervisor

/-! ### Waiting -/

section Waiting

/-- No incident puts an end to it. -/
def Persists (shielded : Bool) (Q : Supervision → Prop) : Prop :=
  ∀ (w : Circumstances) (v : Supervision) (e : Event), w.shielded = shielded →
    w.admits v e = true → Q v → Q (v.happen e)

theorem persists_true (shielded : Bool) : Persists shielded fun _ => True := by
  intro _ _ _ _ _ _
  trivial

/-- While one thread moves alone, what its steps keep persists. -/
theorem persists_alone {i : Nat} {X : Supervision → Prop}
    (hX : ∀ (u : Supervision) (e : Event) (w : Circumstances), X u → Alone i u →
      w.admits u e = true → X (u.happen e)) (shielded : Bool) :
    Persists shielded fun u => Alone i u ∧ X u := by
  intro w u e _ hadm hu
  exact ⟨(hu.1.happen hadm).1, hX u e w hu.2 hu.1 hadm⟩

variable {α : Type} {Q : Supervision → Prop}

/-- What holds as long as a run waits. -/
structure Kept (Q : Supervision → Prop) (w₀ w : Circumstances) : Prop where
  sent : w.sent = w₀.sent
  shielded : w.shielded = w₀.shielded
  present : w.server.isSome = w₀.server.isSome
  server : ∀ v, w.server = some v → Q v

/-- What persists holds after each incident. -/
theorem Kept.undergo {w₀ w : Circumstances} (hQ : Persists w₀.shielded Q) (h : Kept Q w₀ w)
    (i : Incident) : Kept Q w₀ (w.undergo i) := by
  cases i with
  | event e =>
      simp only [Circumstances.undergo]
      split
      · exact h
      · next v hv =>
          split
          · next hadm =>
              refine ⟨h.sent, h.shielded, ?_, ?_⟩
              · rw [← h.present, hv]
                rfl
              · intro v' hv'
                obtain rfl := Option.some.inj hv'
                exact hQ w v e h.shielded hadm (h.server v hv)
          · exact h
  | _ => exact ⟨h.sent, h.shielded, h.present, h.server⟩

/-- What persists holds after a wait, which ends when what is waited for has come. -/
theorem Kept.await {w₀ w : Circumstances} (hQ : Persists w₀.shielded Q)
    (ready : Circumstances → Incident → Option α) (ahead : List Incident) (h : Kept Q w₀ w) :
    Kept Q w₀ (Run.await ready ahead w).1 ∧ ∀ a, (Run.await ready ahead w).2.2 = some a →
      ∃ i, ready (Run.await ready ahead w).1 i = some a := by
  -- on what is ahead: an incident ends the wait, or it happens and keeps what holds
  induction ahead generalizing w with
  | nil => exact ⟨h, by simp [Run.await]⟩
  | cons i ahead ih =>
      simp only [Run.await]
      cases hr : ready w i with
      | some a =>
          refine ⟨h, ?_⟩
          rintro a' ha
          exact ⟨i, hr.trans ha⟩
      | none => exact ih (h.undergo hQ i)

/-- While a run waits, incidents happen, and unless the run waits forever something
lets it go on. -/
theorem Course.await_kept (p : Course) (ready : Circumstances → Incident → Option α)
    (hQ : Persists p.now.shielded Q)
    (h : ∀ v, p.now.server = some v → Q v) :
    Kept Q p.now (p.await ready).1.now ∧ ((p.await ready).1.lost = false → p.lost = false ∧
      ∃ a i, (p.await ready).2 = some a ∧ ready (p.await ready).1.now i = some a) := by
  have hnow : Kept Q p.now p.now := ⟨rfl, rfl, rfl, h⟩
  obtain ⟨hkept, hgoes⟩ := hnow.await hQ ready p.ahead
  simp only [Course.await]
  cases hr : Run.await ready p.ahead p.now with
  | mk now rest =>
      obtain ⟨ahead, result⟩ := rest
      rw [hr] at hkept hgoes
      cases result with
      | some a =>
          obtain ⟨i, hi⟩ := hgoes a rfl
          exact ⟨hkept, fun hl => ⟨hl, a, i, rfl, hi⟩⟩
      | none => exact ⟨hkept, by simp⟩

/-- **A call of the supervisor**, from when it begins to when it has returned. -/
theorem Course.call_kept {p : Course} {v : Supervision} (hv : p.now.server = some v) (t : Thread)
    (hQ : Persists p.now.shielded Q)
    (h : Q (v.fork t)) :
    ∃ v', (p.call t).1.now.server = some v' ∧ Q v' ∧ (p.call t).1.now.sent = p.now.sent ∧
      (p.call t).1.now.shielded = p.now.shielded ∧
      ((p.call t).1.lost = false →
        p.lost = false ∧ v'.result? v.system.threads.length = some (p.call t).2) := by
  obtain ⟨hkept, hgoes⟩ := Course.await_kept { p with now.server := some (v.fork t) }
    (Circumstances.result? v.system.threads.length) hQ fun v' hv' => Option.some.inj hv' ▸ h
  simp only [Course.call, hv]
  generalize Course.await _ _ = r at hkept hgoes
  obtain ⟨v', hv'⟩ := Option.isSome_iff_exists.mp hkept.present
  refine ⟨v', hv', hkept.server v' hv', hkept.sent, hkept.shielded, ?_⟩
  intro hl
  obtain ⟨hl, a, i, ha, hi⟩ := hgoes hl
  refine ⟨hl, ?_⟩
  cases i <;> simp only [Circumstances.result?, hv', Option.bind_some, reduceCtorEq] at hi
  rw [hi, ha]
  rfl

end Waiting

theorem steady_happen {v : Supervision} {e : Event} (h : (v.happen e).steady = true) :
    v.steady = true := by
  unfold Supervision.happen at h
  split at h
  · exact h
  · exact (Bool.and_eq_true _ _ ▸ h).1

/-! ### The ledger of a course -/

/-- Unless the run waits forever, its server is tended. -/
def Holds (p : Course) : Prop :=
  p.lost = false → ∃ v, p.now.server = some v ∧ Tended p.now.sent v

def record : Record Course where
  sent p := p.now.sent
  shielded p := p.now.shielded
  holds := Holds

/-- Waiting adds nothing to the record. -/
theorem await_adds {α : Type} (ready : Circumstances → Incident → Option α) (p : Course) :
    record.Adds [] p (p.await ready).1 := by
  have hany := Course.await_kept (Q := fun _ => True) p ready (persists_true _)
    fun _ _ => trivial
  refine ⟨by simpa [record] using hany.1.sent, ?_⟩
  intro hp hl
  obtain ⟨v, hv, htended⟩ := hp (hany.2 hl).1
  have hkept := (Course.await_kept (Q := Tended p.now.sent) p ready
    (fun _ _ _ _ hadm h => h.happen hadm) fun v' hv' => Option.some.inj (hv.symm.trans hv') ▸ htended).1
  have hpresent := hkept.present
  rw [hv, Option.isSome_some] at hpresent
  obtain ⟨v', hv'⟩ := Option.isSome_iff_exists.mp hpresent
  exact ⟨v', hv', hkept.sent ▸ hkept.server v' hv'⟩

/-- A run that waits forever goes on doing so. -/
theorem call_lost {t : Thread} {p : Course} (hl : (p.call t).1.lost = false) : p.lost = false := by
  cases hv : p.now.server with
  | none => simpa [Course.call, hv] using hl
  | some v =>
      obtain ⟨_, _, _, _, _, hgoes⟩ :=
        Course.call_kept (Q := fun _ => True) hv t (persists_true _) trivial
      exact (hgoes hl).1

/-- A call leaves the record alone. -/
theorem call_sent (t : Thread) (p : Course) :
    (p.call t).1.now.sent = p.now.sent ∧ (p.call t).1.now.shielded = p.now.shielded := by
  cases hv : p.now.server with
  | none => simp [Course.call, hv]
  | some v =>
      obtain ⟨_, _, _, hsent, hshielded, _⟩ :=
        Course.call_kept (Q := fun _ => True) hv t (persists_true _) trivial
      exact ⟨hsent, hshielded⟩

/-- **Sending a notification** adds it to the record. -/
theorem notify_adds (method : String) (params : Bytes) (p : Course) :
    record.Adds [⟨method, params, p.now.shielded, (p.notify method params).2⟩] p
      (p.notify method params).1 := by
  refine ⟨congrArg (· ++ _) (call_sent _ p).1, ?_⟩
  intro hp hl
  let t : Thread :=
    { task := .notify method (.json params) .check
      cancelled := p.now.interrupted && !p.now.shielded }
  have hl : (p.call t).1.lost = false := hl
  obtain ⟨v, hv, htended⟩ := hp (call_lost hl)
  obtain ⟨v', hv', ⟨halone, hnotifying, hsteady⟩, hsent, -, hgoes⟩ := Course.call_kept
    (Q := fun u => Alone v.system.threads.length u ∧
      Notifying v.system.threads.length method params (spoken v.lines)
        (!(accepted p.now.sent).isEmpty) p.now.shielded u ∧
      (u.steady = true → v.steady = true)) hv t
    (fun w u e hw hadm h => ⟨(h.1.happen hadm).1, h.2.1.happen h.1 hadm fun hs => by simp [hw.trans hs],
      fun hs => h.2.2 (steady_happen hs)⟩)
    ⟨(htended.idle.fork _ rfl _ false).1, htended.notifying method params fun hs => by simp [hs], id⟩
  refine ⟨v', hv', ?_⟩
  have hsays := hnotifying.tended htended halone (hgoes hl).2 hsteady
  rwa [← hsent] at hsays

theorem notify_shielded (method : String) (params : Bytes) (p : Course) :
    (p.notify method params).1.now.shielded = p.now.shielded := (call_sent _ p).2

def ledger (k : Conditions) (c : Client) : Ledger (means k c) Course.notify where
  toRecord := record
  send_adds := notify_adds
  send_shielded := notify_shielded
  say_adds _ p := .refl _ p
  debug_adds _ p := .refl _ p
  next_adds once p := await_adds (Circumstances.happening? once) p
  late_adds p := await_adds Circumstances.late? p
  shield_adds _ := ⟨(List.append_nil _).symm, id⟩
  shield_shielded _ := rfl

end LanguageClient.Run
