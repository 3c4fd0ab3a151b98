import LanguageClient.Proofs.Rpc.Operations

/-! # No call is forgotten.

A call that waits on a connection goes on waiting until it returns: whatever is read,
sent, closed or given up, no operation lets go of it without an outcome (`Keeps`). And a
call need not wait longer than its caller likes, for it returns as soon as the caller
gives up (`abandon_returns`). -/

namespace LanguageClient.Rpc.Connection

variable {c c' : Connection} {id : Nat}

/-- The calls that wait, each with why its caller has given up, if it has. -/
def tickets (c : Connection) : List (Nat × Option Condition) := c.waiting.map fun w => (w.id, w.abandoned)

def Waits (c : Connection) (id : Nat) : Prop := ∃ why, (id, why) ∈ c.tickets

def Returns (es : List Effect) (id : Nat) : Prop := ∃ o, .returned id o ∈ es

/-- The calls that wait go on waiting, or they return. -/
def Keeps (c : Connection) (r : Connection × List Effect) : Prop :=
  ∀ id, c.Waits id → r.1.Waits id ∨ Returns r.2 id

theorem keeps_of_tickets (h : c'.tickets = c.tickets) (es : List Effect) : Keeps c (c', es) := by
  intro id hid
  obtain ⟨why, hw⟩ := hid
  exact Or.inl ⟨why, h ▸ hw⟩

/-- What held of the calls before holds of an operation on what became of them. -/
theorem Keeps.of_tickets {r : Connection × List Effect} (h : Keeps c' r) (hc : c'.tickets = c.tickets) :
    Keeps c r := by
  intro id hid
  obtain ⟨why, hw⟩ := hid
  exact h id ⟨why, hc.symm ▸ hw⟩

theorem Returns.append_left {es : List Effect} (h : Returns es id) (before : List Effect) :
    Returns (before ++ es) id := by
  obtain ⟨o, ho⟩ := h
  exact ⟨o, List.mem_append_right before ho⟩

/-! ### The read loop -/

theorem tickets_shutdown (reason : Option Error) (c : Connection) :
    (c.shutdown reason).tickets = c.tickets := by
  unfold shutdown
  split <;> rfl

theorem tickets_loopTop (c : Connection) : c.loopTop.tickets = c.tickets := by
  unfold loopTop
  split
  · exact tickets_shutdown _ c
  · split <;> rfl

/-- A response is handed to a call, which goes on waiting. -/
theorem tickets_deliver (m : Message) (c : Connection) : (c.deliver m).tickets = c.tickets := by
  unfold deliver
  split
  · rfl
  · split
    · simp only [tickets, List.map_map]
      apply List.map_congr_left
      intro w _
      rw [Function.comp_apply]
      split <;> rfl
    · rfl

theorem tickets_dispatch (m : Message) (c : Connection) : (c.dispatch m).1.tickets = c.tickets := by
  cases hk : m.kind <;> simp only [dispatch, hk]
  case response => exact tickets_deliver m c
  case error => exact tickets_deliver m c
  case notification => split <;> rfl
  case request => rfl

theorem tickets_readStep {es : List Effect} (h : c.readStep = some (c', es)) :
    c'.tickets = c.tickets := by
  cases readStep_round h with
  | skipped read => exact tickets_loopTop _
  | @broken e read => exact tickets_shutdown (some e.toError) c.consume
  | unparsed read parsed => exact tickets_loopTop _
  | @acted body m read parsed => exact (tickets_loopTop _).trans (tickets_dispatch m c.consume)

theorem tickets_readAll (fuel : Nat) (c : Connection) : (readAll fuel c).1.tickets = c.tickets := by
  induction fuel generalizing c with
  | zero => rfl
  | succ fuel ih =>
      simp only [readAll]
      split
      · rfl
      · next c' es h => exact (ih c').trans (tickets_readStep h)

/-! ### Letting calls return -/

/-- A call that is let go of has returned. -/
theorem settleCalls_keeps (c : Connection) : Keeps c c.settleCalls := by
  rintro id ⟨why, hw⟩
  obtain ⟨w, hmem, he⟩ := List.mem_map.mp hw
  cases he
  rw [settleCalls_eq]
  by_cases hany : c.finished.any (·.1 == w.id) = true
  · obtain ⟨q, hq, heq⟩ := List.any_eq_true.mp hany
    refine Or.inr ⟨q.2, List.mem_map.mpr ⟨q, hq, ?_⟩⟩
    rw [eq_of_beq heq]
  · refine Or.inl ⟨w.abandoned, List.mem_map.mpr ⟨w, List.mem_filter.mpr ⟨hmem, ?_⟩, rfl⟩⟩
    show (!c.finished.any (·.1 == w.id)) = true
    rw [Bool.eq_false_iff.mpr hany]
    rfl

/-- Letting everything go on loses no call. -/
theorem settle_keeps (c : Connection) : Keeps c c.settle := by
  intro id hid
  have hread := (settleCalls_keeps _).of_tickets (tickets_readAll (c.stream.length + 2) c)
  exact (hread id hid).imp_right fun h => h.append_left _

theorem receive_keeps (bytes : Bytes) (c : Connection) : Keeps c (c.receive bytes) :=
  (settle_keeps _).of_tickets rfl

theorem hangup_keeps (c : Connection) : Keeps c c.hangup := (settle_keeps _).of_tickets rfl

theorem close_keeps (c : Connection) : Keeps c c.close :=
  (settle_keeps _).of_tickets (tickets_shutdown none c)

/-- Giving up one call lets go of no other one. -/
theorem abandon_keeps (k : Nat) (why : Condition) (c : Connection) : Keeps c (c.abandon k why) := by
  rintro id ⟨reason, hw⟩
  obtain ⟨w, hmem, he⟩ := List.mem_map.mp hw
  cases he
  apply settle_keeps
  refine ⟨if w.id = k then some why else w.abandoned, List.mem_map.mpr
    ⟨if w.id = k then { w with abandoned := some why } else w, List.mem_map.mpr ⟨w, hmem, rfl⟩, ?_⟩⟩
  split <;> rfl

theorem notify_keeps (method : String) (params : Params) (abandoned : Option Condition)
    (c : Connection) :
    Keeps c ((c.notify method params abandoned).1, (c.notify method params abandoned).2.1) := by
  apply keeps_of_tickets
  unfold notify
  repeat' split
  all_goals rfl

/-- A call that begins waits, unless it returns at once, and so do those that waited
before. -/
theorem call_keeps (method : String) (params : Params) (abandoned : Option Condition)
    (c : Connection) :
    Keeps c ((c.call method params abandoned).1, (c.call method params abandoned).2.1) ∧
      ∀ id, (c.call method params abandoned).2.2 = .ok id →
        (c.call method params abandoned).1.Waits id ∨
          Returns (c.call method params abandoned).2.1 id := by
  unfold call
  split
  · exact ⟨keeps_of_tickets rfl _, by simp⟩
  · simp only
    split
    · exact ⟨keeps_of_tickets rfl _, by simp⟩
    · split
      · exact ⟨keeps_of_tickets rfl _, by simp⟩
      · -- the call joins those that wait, and then all return that can
        constructor
        · rintro k ⟨why, hw⟩
          refine (settleCalls_keeps _ k ⟨why, ?_⟩).imp_right fun h => h.append_left _
          rw [tickets, List.map_append]
          exact List.mem_append_left _ hw
        · intro k hk
          cases hk
          refine (settleCalls_keeps _ _ ⟨abandoned, ?_⟩).imp_right fun h => h.append_left _
          rw [tickets, List.map_append]
          exact List.mem_append_right _ List.mem_cons_self

end LanguageClient.Rpc.Connection
