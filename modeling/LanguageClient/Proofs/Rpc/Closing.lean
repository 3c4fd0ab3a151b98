import LanguageClient.Proofs.Rpc.Waits

/-! # Closing is final.

A connection is closed by request, or by its read loop when nothing can be read any more
or when it was asked to end. What closing fixes is the `Closure` of a connection: a move
keeps it or closes the connection, and on a closed one it always keeps it (`Takes.closure`).
A read loop that closes the connection ends with that, and one that finds it closed ends
behind the round it is in (`readStep_closure`), so that at most one frame comes behind.

`Takes` says once what each move does. From it follow what holds of runs that settle
(`Tidy`), that they do settle (`exists_settled`), and what a closed connection keeps up
to any later state (`Behind`). The main statement is `closing_is_final`. -/

namespace LanguageClient.Rpc

/-! ### Closures -/

/-- Whether a connection is closed, for what reason, and what was closed with it. -/
structure Closure where
  closed : Bool
  reason : Option Error
  closes : Nat
  hasCloser : Bool

namespace Closure

/-- Closes what is open. -/
def shut (reason : Option Error) (s : Closure) : Closure :=
  if s.closed then s
  else { s with closed := true, reason, closes := s.closes + if s.hasCloser then 1 else 0 }

theorem shut_of_closed {s : Closure} (h : s.closed = true) (reason : Option Error) :
    s.shut reason = s := by
  rw [shut, if_pos h]

/-- What is to be closed with a connection was closed once if the connection is closed,
and never before. -/
structure Counted (hasCloser : Bool) (s : Closure) : Prop where
  closer : s.hasCloser = hasCloser
  closes : s.closes = if s.closed && hasCloser then 1 else 0

theorem Counted.shut {hasCloser : Bool} {s : Closure} (h : s.Counted hasCloser)
    (reason : Option Error) : (s.shut reason).Counted hasCloser := by
  unfold Closure.shut
  split
  · exact h
  · next hopen =>
      have hzero : s.closes = 0 := by rw [h.closes, Bool.eq_false_iff.mpr hopen]; rfl
      refine ⟨h.closer, ?_⟩
      simp only [hzero, h.closer, Bool.true_and, Nat.zero_add]

end Closure

namespace Connection

variable {c c' : Connection} {es : List Effect}

def closure (c : Connection) : Closure := ⟨c.closed, c.reason, c.closes, c.hasCloser⟩

/-- The calls that wait. -/
def ids (c : Connection) : List Nat := c.waiting.map (·.id)

theorem ids_of_tickets (h : c'.tickets = c.tickets) : c'.ids = c.ids := by
  have hids : ∀ c : Connection, c.ids = c.tickets.map (·.1) := by
    intro c
    rw [ids, tickets, List.map_map]
    rfl
  rw [hids, hids, h]

theorem closure_shutdown (reason : Option Error) (c : Connection) :
    (c.shutdown reason).closure = c.closure.shut reason := by
  unfold shutdown Closure.shut
  split
  · next h => rw [if_pos (show c.closure.closed = true from h)]
  · next h => rw [if_neg (show ¬ c.closure.closed = true from h)]; rfl

/-! ### The read loop -/

/-- Acting on a message neither closes the connection nor ends its loop. -/
theorem dispatch_keeps (m : Message) (c : Connection) :
    (c.dispatch m).1.closure = c.closure ∧ (c.dispatch m).1.loopDone = c.loopDone := by
  obtain ⟨pending, waiting, writer, hc⟩ := exists_dispatch m c
  rw [hc]
  exact ⟨rfl, rfl⟩

/-- Before it reads the read loop goes on as it is, or it ends and the connection is
closed. -/
theorem loopTop_closure (c : Connection) :
    c.loopTop = c ∧ c.closed = false ∨
      c.loopTop.loopDone = true ∧ ∃ reason, c.loopTop.closure = c.closure.shut reason := by
  unfold loopTop
  split
  · exact Or.inr ⟨rfl, _, closure_shutdown _ c⟩
  · split
    · next hclosed => exact Or.inr ⟨rfl, none, (Closure.shut_of_closed hclosed none).symm⟩
    · next hopen => exact Or.inl ⟨rfl, Bool.eq_false_iff.mpr hopen⟩

/-- **What a round of the read loop does to the closure.** It leaves an open connection open
and goes on, or it ends the read loop, behind which the connection is closed. -/
theorem readStep_closure (h : c.readStep = some (c', es)) :
    c.closed = false ∧ c'.closure = c.closure ∧ c'.loopDone = c.loopDone ∨
      c'.loopDone = true ∧ ∃ reason, c'.closure = c.closure.shut reason := by
  have htop : ∀ d : Connection, d.closure = c.closure → d.loopDone = c.loopDone →
      c.closed = false ∧ d.loopTop.closure = c.closure ∧ d.loopTop.loopDone = c.loopDone ∨
        d.loopTop.loopDone = true ∧ ∃ reason, d.loopTop.closure = c.closure.shut reason := by
    intro d hclosure hdone
    rcases loopTop_closure d with ⟨htop, hopen⟩ | ⟨hend, reason, hshut⟩
    · rw [htop]
      exact Or.inl ⟨(congrArg Closure.closed hclosure).symm.trans hopen, hclosure, hdone⟩
    · exact Or.inr ⟨hend, reason, hclosure ▸ hshut⟩
  cases readStep_round h with
  | skipped read => exact htop _ rfl rfl
  | @broken e read => exact Or.inr ⟨rfl, some e.toError, closure_shutdown _ c.consume⟩
  | unparsed read parsed => exact htop _ rfl rfl
  | @acted body m read parsed =>
      obtain ⟨hclosure, hdone⟩ := dispatch_keeps m c.consume
      exact htop _ hclosure hdone

/-- Nothing is expected any more once the connection is closed. -/
theorem pending_readStep (h : c.readStep = some (c', es)) (hc : c.closed = true → c.pending = [])
    (hclosed : c'.closed = true) : c'.pending = [] := by
  have hsame : ∀ d : Connection, SameCalls d c' → d.closed = c.closed →
      (c.closed = true → d.pending = []) → c'.pending = [] := by
    intro d hsame hd hpending
    rcases hsame.pending with ⟨hp, hcl⟩ | ⟨hp, -⟩
    · rw [hp]
      exact hpending ((hcl.trans hd).symm.trans hclosed)
    · exact hp
  rcases readStep_calls h with ⟨body, m, id, -, -, ⟨hresp, hid, hmem⟩, hs⟩ | ⟨hs, -⟩
  · refine hsame _ hs ?_ fun hcl => ?_
    · rw [deliver_expected hid hmem]
    · rw [hc hcl] at hmem
      cases hmem
  · exact hsame c hs rfl hc

/-- Moves on the side change no call and leave the closure and the read loop as they are. -/
structure Aside (c c' : Connection) : Prop where
  closure : c'.closure = c.closure
  loopDone : c'.loopDone = c.loopDone
  pending : c'.pending = c.pending
  ids : c'.ids = c.ids

end Connection

/-! ### What each move does -/

namespace Traffic

/-- What a move does to a connection and to the lists beside it. -/
inductive Takes (σ : Traffic) : Move → Traffic → List Note → Prop where
  | begun (abandoned : Option Condition) :
      Takes σ (.begin abandoned)
        { σ with
          connection := σ.connection.begun abandoned
          unsent := σ.unsent ++ [σ.connection.issued + 1] }
        [.began (σ.connection.issued + 1)]
  /-- A call has sent its request. -/
  | sent {id : Nat} {method : String} {params : Params} {writer : Frame.Writer}
      (here : id ∈ σ.unsent) :
      Takes σ (.send id method params)
        { σ with
          connection := { σ.connection with writer }
          unsent := σ.unsent.filter (· != id) } []
  /-- A call could not send its request. -/
  | refused {id : Nat} {method : String} {params : Params} {writer : Frame.Writer} {o : Outcome}
      (here : id ∈ σ.unsent) (waits : id ∈ σ.connection.ids) :
      Takes σ (.send id method params)
        ({ σ with connection := { σ.connection with writer } }.retire id o) []
  | woken {id choice : Nat} {o : Outcome} (waits : id ∈ σ.connection.ids) :
      Takes σ (.wake id choice) (σ.retire id o) []
  | left {id : Nat} {o : Outcome} (here : (id, o) ∈ σ.leaving) :
      Takes σ (.leave id)
        { σ with
          connection := { σ.connection with pending := σ.connection.pending.filter (· != id) }
          leaving := σ.leaving.filter (·.1 != id) } [.returned id o]
  | round {c : Connection} {es : List Effect} (read : σ.connection.readStep = some (c, es)) :
      Takes σ .read { σ with connection := c } (σ.connection.frame?.toList.map .received)
  | shut : Takes σ .close (σ.change (Connection.shutdown none)) []
  | aside {m : Move} {c : Connection} (outside : m.ofItself = false)
      (same : σ.connection.Aside c) : Takes σ m { σ with connection := c } []

theorem ids_of_call? {c : Connection} {id : Nat} {w : Waiting} (h : c.call? id = some w) :
    id ∈ c.ids := by
  obtain ⟨hw, rfl⟩ := Connection.call?_eq_some h
  exact List.mem_map_of_mem hw

/-- **Every move does one of these things.** -/
theorem takes_of_step? {σ τ : Traffic} {m : Move} {notes : List Note}
    (h : σ.step? m = some (τ, notes)) : σ.Takes m τ notes := by
  cases m with
  | begin abandoned => cases h; exact .begun abandoned
  | send id method params =>
      obtain ⟨w, hw, h⟩ := Option.bind_eq_some_iff.mp h
      obtain ⟨hhere, h⟩ := Option.ite_none_right_eq_some.mp h
      have hid : id ∈ σ.unsent := List.contains_iff_mem.mp hhere
      -- The parameters may not be encodable, and the write may fail.
      split at h
      · cases h
        exact @Takes.refused σ id method params σ.connection.writer _ hid (ids_of_call? hw)
      · simp only at h
        split at h <;> cases h
        · exact .refused hid (ids_of_call? hw)
        · exact .sent hid
  | wake id choice =>
      obtain ⟨w, hw, h⟩ := Option.bind_eq_some_iff.mp h
      obtain ⟨-, h⟩ := Option.ite_none_left_eq_some.mp h
      obtain ⟨o, -, he⟩ := Option.map_eq_some_iff.mp h
      cases he
      exact .woken (ids_of_call? hw)
  | leave id =>
      obtain ⟨⟨id', o⟩, ho, he⟩ := Option.map_eq_some_iff.mp h
      obtain rfl : id' = id := by simpa using List.find?_some ho
      cases he
      exact .left (List.mem_of_find?_eq_some ho)
  | read =>
      obtain ⟨⟨c, es⟩, hc, he⟩ := Option.map_eq_some_iff.mp h
      cases he
      exact .round hc
  | close => cases h; exact .shut
  -- To abandon a call changes its context, not the call.
  | abandon id why =>
      cases h
      refine .aside rfl ⟨rfl, rfl, rfl, ?_⟩
      rw [Connection.ids, List.map_map]
      apply List.map_congr_left
      intro w _
      rw [Function.comp_apply]
      split <;> rfl
  | notify method params abandoned =>
      cases h
      refine .aside rfl ?_
      show σ.connection.Aside (σ.connection.notify method params abandoned).1
      rw [(Connection.notify_same method params abandoned σ.connection).1]
      exact ⟨rfl, rfl, rfl, rfl⟩
  | arrive | hangup | cancelLoop | handle | limit =>
      cases h
      exact .aside rfl ⟨rfl, rfl, rfl, rfl⟩

/-- What closing fixes is changed by closing only. -/
theorem Takes.closure {σ τ : Traffic} {m : Move} {notes : List Note} (h : σ.Takes m τ notes) :
    τ.connection.closure = σ.connection.closure ∨
      ∃ reason, τ.connection.closure = σ.connection.closure.shut reason := by
  cases h with
  | round read =>
      rcases Connection.readStep_closure read with ⟨-, hsame, -⟩ | ⟨-, hshut⟩
      · exact Or.inl hsame
      · exact Or.inr hshut
  | shut => exact Or.inr ⟨none, Connection.closure_shutdown none σ.connection⟩
  | aside _ same => exact Or.inl same.closure
  | _ => exact Or.inl rfl

/-- A closed connection is left as it is. -/
theorem Takes.closure_of_closed {σ τ : Traffic} {m : Move} {notes : List Note}
    (h : σ.Takes m τ notes) (hclosed : σ.connection.closed = true) :
    τ.connection.closure = σ.connection.closure := by
  rcases h.closure with hsame | ⟨reason, hshut⟩
  · exact hsame
  · rw [hshut, Closure.shut_of_closed hclosed]

/-! ### Runs that settle -/

/-- What holds of the calls and of the closing of a connection in a run that settles. -/
structure Tidy (hasCloser : Bool) (σ : Traffic) : Prop where
  waits : ∀ id ∈ σ.unsent, id ∈ σ.connection.ids
  /-- Nothing comes in between the beginning of a call and its sending. -/
  alone : σ.unsent ≠ [] → σ.connection.closed = false ∧ σ.connection.readStep = none
  pending : σ.connection.closed = true → σ.connection.pending = []
  closure : σ.connection.closure.Counted hasCloser

theorem tidy_opened (hasCloser : Bool) : Tidy hasCloser (.opened hasCloser) where
  waits := by simp [opened]
  alone := fun h => absurd rfl h
  pending := nofun
  closure := ⟨rfl, rfl⟩

/-- On a closed connection every call that began has sent its request. -/
theorem Tidy.unsent {hasCloser : Bool} {σ : Traffic} (h : Tidy hasCloser σ)
    (hclosed : σ.connection.closed = true) : σ.unsent = [] := by
  refine Classical.byContradiction fun hne => ?_
  rw [(h.alone hne).1] at hclosed
  cases hclosed

/-- The read loop goes on waiting as long as nothing is received. -/
theorem Tidy.alone_congr {hasCloser : Bool} {σ : Traffic} {c : Connection} (h : Tidy hasCloser σ)
    (hne : σ.unsent ≠ []) (hclosed : c.closed = σ.connection.closed)
    (hdone : c.loopDone = σ.connection.loopDone) (hstream : c.stream = σ.connection.stream)
    (hended : c.ended = σ.connection.ended) : c.closed = false ∧ c.readStep = none :=
  ⟨hclosed.trans (h.alone hne).1,
    Connection.readStep_eq_none_congr hdone hstream hended (h.alone hne).2⟩

theorem mem_ids_retire {σ : Traffic} {id k : Nat} {o : Outcome} :
    k ∈ (σ.retire id o).connection.ids ↔ k ∈ σ.connection.ids ∧ k ≠ id := by
  simp only [Connection.ids, retire, List.mem_map, List.mem_filter, bne_iff_ne]
  constructor
  · rintro ⟨w, ⟨hw, hne⟩, rfl⟩
    exact ⟨⟨w, hw, rfl⟩, hne⟩
  · rintro ⟨⟨w, hw, rfl⟩, hne⟩
    exact ⟨w, ⟨hw, hne⟩, rfl⟩

/-- A call that has found out how it ends leaves the others as they are. -/
theorem Tidy.retire {hasCloser : Bool} {σ : Traffic} (h : Tidy hasCloser σ) (id : Nat)
    (o : Outcome) : Tidy hasCloser (σ.retire id o) where
  waits := by
    intro k hk
    obtain ⟨hmem, hne⟩ := List.mem_filter.mp hk
    exact mem_ids_retire.mpr ⟨h.waits k hmem, bne_iff_ne.mp hne⟩
  alone := by
    intro hne
    have hunsent : σ.unsent ≠ [] := by
      intro hnil
      rw [Traffic.retire, hnil] at hne
      exact hne rfl
    exact h.alone_congr hunsent rfl rfl rfl rfl
  pending := h.pending
  closure := h.closure

/-- A writer that has taken a request changes nothing else. -/
theorem Tidy.writer {hasCloser : Bool} {σ : Traffic} (h : Tidy hasCloser σ)
    (writer : Frame.Writer) : Tidy hasCloser { σ with connection := { σ.connection with writer } } where
  waits := h.waits
  alone := fun hne => h.alone_congr hne rfl rfl rfl rfl
  pending := h.pending
  closure := h.closure

/-- While no call is about to send its request only the closing matters. -/
theorem tidy_of_unsent {hasCloser : Bool} {σ : Traffic} {c : Connection} (hnil : σ.unsent = [])
    (hpending : c.closed = true → c.pending = []) (hclosure : c.closure.Counted hasCloser) :
    Tidy hasCloser { σ with connection := c } where
  waits := by
    intro id hid
    have hmem : id ∈ σ.unsent := hid
    rw [hnil] at hmem
    cases hmem
  alone := fun hne => absurd hnil hne
  pending := hpending
  closure := hclosure

theorem settled_of_due {σ : Traffic} {m : Move} (h : σ.Due m) (hm : m.ofItself = false) :
    σ.Settled ∧ (m.begins = true → σ.connection.closed = false) :=
  h.resolve_left (by rw [hm]; decide)

/-- **A run that settles stays tidy.** -/
theorem Tidy.takes {hasCloser : Bool} {σ τ : Traffic} {m : Move} {notes : List Note}
    (h : Tidy hasCloser σ) (hdue : σ.Due m) (ht : σ.Takes m τ notes) : Tidy hasCloser τ := by
  cases ht with
  | begun abandoned =>
      obtain ⟨hs, hopen⟩ := settled_of_due hdue rfl
      refine ⟨?_, fun _ => ⟨hopen rfl, ?_⟩, ?_, h.closure⟩
      -- The new call waits, and whoever waits and is unsent is alone.
      · intro id hid
        rw [hs.unsent, List.nil_append] at hid
        rw [Connection.ids, Connection.begun, List.map_append]
        exact List.mem_append_right _ hid
      · exact Connection.readStep_eq_none_congr (c := σ.connection) rfl rfl rfl hs.reader
      · intro hclosed
        exact absurd ((hopen rfl).symm.trans hclosed) Bool.false_ne_true
  | @sent id _ _ writer here =>
      have hw := h.writer writer
      refine ⟨fun k hk => hw.waits k (List.mem_filter.mp hk).1, fun _ => ?_, hw.pending, hw.closure⟩
      exact hw.alone (List.ne_nil_of_mem here)
  | @refused id _ _ writer o here waits => exact (h.writer writer).retire id o
  | @woken id _ o waits => exact h.retire id o
  | left here =>
      refine ⟨h.waits, fun hne => ?_, fun hclosed => ?_, h.closure⟩
      · exact h.alone_congr hne rfl rfl rfl rfl
      · show σ.connection.pending.filter _ = []
        rw [h.pending hclosed]
        rfl
  | @round c es read =>
      -- Nobody can have been about to send: the loop had nothing to read then.
      have hunsent : σ.unsent = [] := by
        refine Classical.byContradiction fun hne => ?_
        rw [(h.alone hne).2] at read
        cases read
      refine tidy_of_unsent hunsent (Connection.pending_readStep read h.pending) ?_
      rcases Connection.readStep_closure read with ⟨-, hsame, -⟩ | ⟨-, reason, hshut⟩
      · exact hsame ▸ h.closure
      · exact hshut ▸ h.closure.shut reason
  | shut =>
      -- Closing empties what is pending, unless it was closed before.
      have hclosure := h.closure.shut none
      rw [← Connection.closure_shutdown] at hclosure
      refine tidy_of_unsent (settled_of_due hdue rfl).1.unsent (fun _ => ?_) hclosure
      unfold Connection.shutdown
      split
      · next hclosed => exact h.pending hclosed
      · rfl
  | aside outside same =>
      have hclosed := congrArg Closure.closed same.closure
      refine tidy_of_unsent (settled_of_due hdue outside).1.unsent (fun hc => ?_)
        (same.closure ▸ h.closure)
      rw [same.pending]
      exact h.pending (hclosed.symm.trans hc)

/-! ### Everything settles -/

/-- How much there is left for calls and the read loop to do of themselves. -/
def effort (σ : Traffic) : Nat :=
  σ.connection.workLeft + σ.unsent.length + 2 * σ.connection.ids.length + σ.leaving.length

theorem length_filter_lt {l : List Nat} {id : Nat} (h : id ∈ l) :
    (l.filter (· != id)).length < l.length :=
  List.length_filter_lt_length_iff_exists.mpr ⟨id, h, by simp⟩

/-- Every call that returns leaves less to be done. -/
theorem effort_retire {σ : Traffic} {id : Nat} (h : id ∈ σ.connection.ids) (o : Outcome) :
    (σ.retire id o).effort < σ.effort := by
  have hids : (σ.retire id o).connection.ids = σ.connection.ids.filter (· != id) := by
    rw [Connection.ids, Connection.ids, List.filter_map]
    rfl
  have hlt := length_filter_lt h
  have hle := List.length_filter_le (· != id) σ.unsent
  have hwork : (σ.retire id o).connection.workLeft = σ.connection.workLeft := rfl
  simp only [effort, hids, hwork]
  simp only [retire, List.length_append, List.length_singleton]
  omega

/-- **What goes on of itself comes to an end.** -/
theorem Takes.effort {σ τ : Traffic} {m : Move} {notes : List Note} (h : σ.Takes m τ notes)
    (hm : m.ofItself = true) : τ.effort < σ.effort := by
  cases h with
  | begun | shut => cases hm
  | aside outside => rw [outside] at hm; cases hm
  | @sent id _ _ writer here =>
      have hlt := length_filter_lt here
      have hwork : ({ σ.connection with writer } : Connection).workLeft =
          σ.connection.workLeft := rfl
      have hids : ({ σ.connection with writer } : Connection).ids = σ.connection.ids := rfl
      simp only [Traffic.effort, hwork, hids]
      omega
  | @refused id _ _ writer o here waits =>
      exact effort_retire (σ := { σ with connection := { σ.connection with writer } }) waits o
  | @woken id _ o waits => exact effort_retire waits o
  | @left id o here =>
      have hlt : (σ.leaving.filter (·.1 != id)).length < σ.leaving.length :=
        List.length_filter_lt_length_iff_exists.mpr ⟨(id, o), here, by simp⟩
      have hwork : ({ σ.connection with
          pending := σ.connection.pending.filter (· != id) } : Connection).workLeft =
            σ.connection.workLeft := rfl
      have hids : ({ σ.connection with
          pending := σ.connection.pending.filter (· != id) } : Connection).ids =
            σ.connection.ids := rfl
      simp only [Traffic.effort, hwork, hids]
      omega
  | @round c es read =>
      have hlt := Connection.workLeft_readStep read
      have hids := Connection.ids_of_tickets (Connection.tickets_readStep read)
      simp only [Traffic.effort, hids]
      omega

/-- As long as not everything has settled something goes on of itself. -/
theorem Tidy.exists_move {hasCloser : Bool} {σ : Traffic} (h : Tidy hasCloser σ)
    (hd : σ.connection.ids.Nodup) (hs : ¬ σ.Settled) :
    ∃ m τ notes, m.ofItself = true ∧ σ.step? m = some (τ, notes) := by
  -- If no move were possible, nothing would be left to do.
  refine Classical.byContradiction fun hno => ?_
  have hstuck : ∀ m : Move, m.ofItself = true → σ.step? m = none := by
    intro m hm
    rw [Option.eq_none_iff_forall_ne_some]
    intro ⟨τ, notes⟩ hstep
    exact hno ⟨m, τ, notes, hm, hstep⟩
  have hunsent : σ.unsent = [] := by
    rw [List.eq_nil_iff_forall_not_mem]
    intro id hid
    obtain ⟨w, hw, rfl⟩ := List.mem_map.mp (h.waits id hid)
    have hsend := hstuck (.send w.id "" .absent) rfl
    simp only [step?, Connection.call?_of_mem hd hw, Option.bind_some, Params.encode,
      List.contains_iff_mem.mpr hid, if_true] at hsend
    split at hsend <;> cases hsend
  refine hs ⟨hunsent, ?_, ?_, ?_⟩
  · rw [List.eq_nil_iff_forall_not_mem]
    intro p hp
    have hleave := Option.map_eq_none_iff.mp (hstuck (.leave p.1) rfl)
    exact absurd (beq_self_eq_true p.1) (List.find?_eq_none.mp hleave p hp)
  · exact Option.map_eq_none_iff.mp (hstuck .read rfl)
  -- And whoever waits has nothing to be woken by.
  · intro w hw
    have hwake := hstuck (.wake w.id 0) rfl
    simp only [step?, Connection.call?_of_mem hd hw, Option.bind_some, hunsent, List.contains_nil,
      Bool.false_eq_true, if_false, Option.map_eq_none_iff] at hwake
    exact List.getElem?_eq_none_iff.mp hwake |> fun hlen => List.length_eq_zero_iff.mp (by omega)

/-- **Everything settles**, whatever is left to be done. -/
theorem exists_settled {hasCloser : Bool} {σ : Traffic} {notes : List Note}
    (h : Tidy hasCloser σ) (hi : Invariant σ.books notes) : ∃ new τ, Plays σ new τ ∧ τ.Settled := by
  induction hk : σ.effort using Nat.strongRecOn generalizing σ notes with
  | _ k ih =>
      by_cases hs : σ.Settled
      · exact ⟨[], σ, Plays.refl σ, hs⟩
      · obtain ⟨m, τ, first, hm, hstep⟩ := h.exists_move (Connection.nodup_waiting hi) hs
        have ht := takes_of_step? hstep
        have hdue : σ.Due m := Or.inl hm
        obtain ⟨rest, υ, hplays, hυ⟩ := ih _ (hk ▸ ht.effort hm) (h.takes hdue ht)
          ((Plays.one hdue hstep).invariant hi) rfl
        exact ⟨first ++ rest, υ, Plays.cons hdue hstep hplays, hυ⟩

end Traffic

/-! ### Behind closing -/

/-- The bodies of the frames that the read loop took off the stream. -/
def bodies (notes : List Note) : List Bytes :=
  notes.filterMap fun
    | .received body => some body
    | _ => none

theorem bodies_append (notes new : List Note) :
    bodies (notes ++ new) = bodies notes ++ bodies new :=
  List.filterMap_append

/-- Nothing is expected any more, and a response that a call holds was there before. -/
structure Books.Final (before : List Note) (b : Books) : Prop where
  pending : b.pending = []
  given : ∀ id m, (id, some m) ∈ b.calls → Completed before id m
  leaving : ∀ id m, (id, .response m) ∈ b.leaving → Completed before id m

/-- No call is given a response any more. -/
theorem Shift.final {b b' : Books} {before new : List Note} (hs : Shift b new b')
    (h : b.Final before) (hnew : begun new = []) :
    b'.Final before ∧ ∀ id m, .returned id (.response m) ∈ new → Completed before id m := by
  cases hs with
  | quiet => exact ⟨h, by simp⟩
  | shut => exact ⟨⟨rfl, h.given, h.leaving⟩, by simp⟩
  | ignored => exact ⟨h, by simp⟩
  -- Nothing is pending once the connection is closed, so no response is expected.
  | answered _ _ _ expected =>
      rw [h.pending] at expected
      cases expected
  | began => cases hnew
  -- A call that leaves with a response was given it before.
  | retired here ends =>
      refine ⟨⟨h.pending, fun id m hm => h.given id m (List.mem_filter.mp hm).1, ?_⟩, by simp⟩
      intro id m hm
      rcases List.mem_append.mp hm with hm | hm
      · exact h.leaving id m hm
      · cases List.mem_singleton.mp hm
        cases ends
        exact h.given _ m here
  | returned here =>
      refine ⟨⟨?_, h.given, fun id m hm => h.leaving id m (List.mem_filter.mp hm).1⟩, ?_⟩
      · show b.pending.filter _ = []
        rw [h.pending]
        rfl
      · intro id m hm
        cases List.mem_singleton.mp hm
        exact h.leaving _ m here

/-- How many frames the read loop of a closed connection may still take. -/
def Connection.framesLeft (c : Connection) : Nat := if c.loopDone then 0 else 1

theorem Connection.framesLeft_le (c : Connection) : c.framesLeft ≤ 1 := by
  unfold framesLeft
  split <;> decide

theorem Connection.loopDone_shutdown (reason : Option Error) (c : Connection) :
    (c.shutdown reason).loopDone = c.loopDone := by
  unfold shutdown
  split <;> rfl

/-- The read loop that finds the connection closed ends behind the round it is in. -/
theorem Traffic.Takes.framesLeft {σ τ : Traffic} {m : Move} {notes : List Note}
    (h : σ.Takes m τ notes) (hclosed : σ.connection.closed = true) :
    (bodies notes).length + τ.connection.framesLeft ≤ σ.connection.framesLeft := by
  -- Only the read loop reads a frame, and everything else leaves it as it is.
  have hsame : ∀ c : Connection, c.loopDone = σ.connection.loopDone →
      0 + c.framesLeft ≤ σ.connection.framesLeft := by
    intro c hc
    have heq : c.framesLeft = σ.connection.framesLeft := by
      rw [Connection.framesLeft, Connection.framesLeft, hc]
    rw [heq]
    omega
  cases h with
  | @round c es read =>
      have hstart : σ.connection.loopDone = false := by
        rw [Bool.eq_false_iff]
        intro hdone
        rw [Connection.readStep_eq_none.mpr (Or.inl hdone)] at read
        cases read
      have hend : c.loopDone = true := by
        -- The loop ends with this round, because the connection is closed at its top.
        rcases Connection.readStep_closure read with ⟨hopen, -⟩ | ⟨hend, -⟩
        · exact absurd (hopen.symm.trans hclosed) Bool.false_ne_true
        · exact hend
      rw [Connection.framesLeft, Connection.framesLeft, hstart, hend]
      cases σ.connection.frame? <;> simp [bodies]
  | shut => exact hsame _ (Connection.loopDone_shutdown none σ.connection)
  | aside _ same => exact hsame _ same.loopDone
  | _ => exact hsame _ rfl

/-- What a connection that was closed in a state `σ`, behind the notes `before`, keeps up to
a state `τ`, with the notes `after`. -/
structure Behind (hasCloser : Bool) (σ : Traffic) (before : List Note) (τ : Traffic)
    (after : List Note) : Prop where
  tidy : τ.Tidy hasCloser
  closure : τ.connection.closure = σ.connection.closure
  none : begun after = []
  books : τ.books.Final before
  answered : ∀ id m, .returned id (.response m) ∈ after → Completed before id m
  frames : (bodies after).length + τ.connection.framesLeft ≤ σ.connection.framesLeft

section Closed

variable {hasCloser : Bool} {σ τ υ : Traffic} {before after : List Note}

theorem behind_refl (ht : σ.Tidy hasCloser) (hi : Invariant σ.books before)
    (hclosed : σ.connection.closed = true) : Behind hasCloser σ before σ [] where
  tidy := ht
  closure := rfl
  none := rfl
  books := ⟨ht.pending hclosed, hi.given, fun id m hm => hi.rightful id (.response m) hm⟩
  answered := by simp
  frames := by simp [bodies]

/-- **A closed connection stays what it is, whatever is done next.** -/
theorem Behind.step {m : Move} {new : List Note} (h : Behind hasCloser σ before τ after)
    (hclosed : σ.connection.closed = true) (hdue : τ.Due m) (hm : τ.step? m = some (υ, new)) :
    Behind hasCloser σ before υ (after ++ new) := by
  have ht := Traffic.takes_of_step? hm
  have hτ : τ.connection.closed = true := (congrArg Closure.closed h.closure).trans hclosed
  have hnone : begun new = [] := by
    cases ht with
    | begun =>
        have hopen := (Traffic.settled_of_due hdue rfl).2 rfl
        exact absurd (hopen.symm.trans hτ) Bool.false_ne_true
    | round => cases τ.connection.frame? <;> rfl
    | _ => rfl
  -- A move is two shifts of the books: one of the calls, one of the frames.
  obtain ⟨b, hfirst, hsecond⟩ := step?_shifts hm
  obtain ⟨hb, hanswered⟩ := hfirst.final h.books hnone
  refine ⟨h.tidy.takes hdue ht, (ht.closure_of_closed hτ).trans h.closure, ?_,
    (hsecond.final hb rfl).1, ?_, ?_⟩
  · rw [begun_append, h.none, hnone]
    rfl
  · intro id m hmem
    exact (List.mem_append.mp hmem).elim (h.answered id m) (hanswered id m)
  · have hframes := ht.framesLeft hτ
    have hsum := h.frames
    rw [bodies_append, List.length_append]
    omega

theorem tidy_of_paced? {moves : List Move} {notes : List Note}
    (h : Traffic.paced? moves (.opened hasCloser) = some (σ, notes)) : σ.Tidy hasCloser :=
  @Traffic.paced?_preserves (fun σ _ => σ.Tidy hasCloser)
    (fun ht hdue hm => ht.takes hdue (Traffic.takes_of_step? hm)) moves _ σ [] notes
    (Traffic.tidy_opened hasCloser) h

/-- What a run that settles keeps from a closed state on. -/
theorem behind_of_paced? {moves more : List Move}
    (h : Traffic.paced? moves (.opened hasCloser) = some (σ, before))
    (hclosed : σ.connection.closed = true) (hmore : Traffic.paced? more σ = some (τ, after)) :
    Behind hasCloser σ before τ after ∧ Invariant τ.books (before ++ after) := by
  have hi := invariant_of_opened (Traffic.play?_of_paced? h)
  refine ⟨?_, play?_invariant (Traffic.play?_of_paced? hmore) hi⟩
  have hstart := behind_refl (tidy_of_paced? h) hi hclosed
  exact Traffic.paced?_preserves (P := fun τ after => Behind hasCloser σ before τ after)
    (fun hb hdue hm => hb.step hclosed hdue hm) hstart hmore

namespace Behind

theorem closed (h : Behind hasCloser σ before τ after) (hclosed : σ.connection.closed = true) :
    τ.connection.closed = true :=
  (congrArg Closure.closed h.closure).trans hclosed

/-- A closed connection has closed its stream once, if there is something to close. -/
theorem closes (h : Behind hasCloser σ before τ after) (hclosed : σ.connection.closed = true) :
    τ.connection.closes = if hasCloser then 1 else 0 := by
  have hcloses := h.tidy.closure.closes
  rwa [show τ.connection.closure.closed = true from h.closed hclosed, Bool.true_and] at hcloses

/-- Once everything has settled, every call that began has returned. -/
theorem returns (h : Behind hasCloser σ before τ after) (hclosed : σ.connection.closed = true)
    (hi : Invariant τ.books (before ++ after)) (hs : τ.Settled) {id : Nat}
    (hbegan : .began id ∈ before) (hopen : id ∉ returned before) : ∃ o, .returned id o ∈ after := by
  have hcalls : τ.connection.waiting = [] := by
    rw [List.eq_nil_iff_forall_not_mem]
    intro w hw
    obtain ⟨-, hfalse, -⟩ := Connection.ready_eq_nil.mp (hs.calls w hw)
    exact Bool.false_ne_true (hfalse.symm.trans (h.closed hclosed))
  have hids : τ.books.callIds = [] := by
    simp only [Traffic.books, Connection.books, Connection.calls, Books.callIds, hcalls,
      List.map_nil]
  have hleaving : τ.books.leavingIds = [] := congrArg (List.map Prod.fst) hs.leaving
  have haccounted := hi.accounted id
  rw [hids, hleaving, mem_begun, mem_returned] at haccounted
  simp only [List.not_mem_nil, false_or] at haccounted
  obtain ⟨o, ho⟩ := haccounted.mp (List.mem_append_left after hbegan)
  rcases List.mem_append.mp ho with ho | ho
  · exact absurd (mem_returned.mpr ⟨o, ho⟩) hopen
  · exact ⟨o, ho⟩

/-- A read loop that has closed the connection takes no frame any more. -/
theorem bodies_eq_nil {ρ : Traffic} {notes : List Note} (h : Behind hasCloser σ before τ after)
    (hclosed : σ.connection.closed = true) (hopen : ρ.connection.closed = false)
    (hread : ρ.step? .read = some (σ, notes)) : bodies after = [] := by
  have hend : σ.connection.loopDone = true := by
    obtain ⟨⟨c, es⟩, hc, he⟩ := Option.map_eq_some_iff.mp hread
    cases he
    rcases Connection.readStep_closure hc with ⟨-, hsame, -⟩ | ⟨hend, -⟩
    · have hstill : c.closed = false := (congrArg Closure.closed hsame).trans hopen
      exact absurd (hstill.symm.trans hclosed) Bool.false_ne_true
    · exact hend
  have hnone : σ.connection.framesLeft = 0 := if_pos hend
  have hframes := h.frames
  exact List.length_eq_zero_iff.mp (by omega)

end Behind

/-- **Operations on a closed connection leave it closed.** No call waits any more, so none
returns. -/
theorem performAll_closed (hasCloser : Bool) (ops more : List Operation) {c : Connection}
    (hc : (Connection.performAll { hasCloser } ops).1 = c) (hclosed : c.closed = true) :
    (c.performAll more).1.closed = true ∧ (c.performAll more).1.reason = c.reason ∧
      (c.performAll more).1.closes = (if hasCloser then 1 else 0) ∧
      ∀ id o, .returned id o ∉ (c.performAll more).2 := by
  obtain ⟨before, hops⟩ :=
    Connection.performAll_simulated (Connection.settled_opened hasCloser) invariant_initial ops
  have hi := hops.plays.invariant invariant_initial
  obtain ⟨⟨moves, hmoves⟩, hs, -⟩ := hops
  change Traffic.paced? moves (.opened hasCloser) = some ((Connection.performAll _ ops).1.atRest, _)
    at hmoves
  rw [List.nil_append] at hi
  rw [hc] at hmoves hs hi
  obtain ⟨after, hmore⟩ := Connection.performAll_simulated hs hi more
  obtain ⟨later, hlater⟩ := hmore.plays
  obtain ⟨hb, hall⟩ := behind_of_paced? hmoves hclosed hlater
  refine ⟨hb.closed hclosed, congrArg Closure.reason hb.closure, hb.closes hclosed, ?_⟩
  intro id o ho
  have hafter : id ∈ returned after := mem_returned.mpr ⟨o, (hmore.returns id o).mp ho⟩
  -- Every call that began had returned before, and none returns twice.
  have hbegan : .began id ∈ before := by
    have hid := (hall.accounted id).mpr (Or.inr (Or.inr ?_))
    · rwa [begun_append, hb.none, List.append_nil, mem_begun] at hid
    · rw [returned_append]
      exact List.mem_append_right _ hafter
  have hbefore : id ∈ returned before := by
    refine Classical.byContradiction fun hopen => ?_
    have hstart := behind_refl (tidy_of_paced? hmoves) hi hclosed
    obtain ⟨o', ho'⟩ := hstart.returns hclosed (by rwa [List.append_nil]) hs hbegan hopen
    cases ho'
  have hnodup := (List.nodup_append.mp hall.distinct).2.1
  rw [returned_append] at hnodup
  exact (List.nodup_append.mp hnodup).2.2 id hbefore id hafter rfl

/-- What is asked of a connection between a closed state `σ`, behind the notes `before`, and
any later state `τ`, with the notes `after`. -/
structure ClosedForGood (hasCloser : Bool) (σ : Traffic) (before : List Note) (τ : Traffic)
    (after : List Note) : Prop where
  /-- It stays closed, -/
  closed : τ.connection.closed = true
  /-- for the same reason. -/
  reason : τ.connection.reason = σ.connection.reason
  /-- What is to be closed with it was closed once, -/
  closes : τ.connection.closes = if hasCloser then 1 else 0
  /-- and closing it again does nothing and gives no error. -/
  again : ∀ reason failure,
    τ.connection.shutdown reason = τ.connection ∧ τ.connection.closeError failure = none
  /-- A call fails at once and writes nothing, -/
  call : ∀ method params abandoned, τ.connection.call method params abandoned =
    (τ.connection, [], .error (.condition .connectionClosed))
  /-- and so does a notification. -/
  notify : ∀ method params abandoned, τ.connection.notify method params abandoned =
    (τ.connection, [], some (.condition .connectionClosed))
  /-- No call that began earlier has its request still to send. -/
  unsent : τ.unsent = []
  /-- Every call returns, -/
  returns : τ.Settled → ∀ id, .began id ∈ before → id ∉ returned before →
    ∃ o, .returned id o ∈ after
  /-- one that was not answered with an error, -/
  fails : τ.Settled → ∀ id, .began id ∈ before → id ∉ returned before →
    (∀ m, ¬ Answers before id m) → ∃ e, .returned id (.failed e) ∈ after
  /-- and none with a response that came later. -/
  answered : ∀ id m, .returned id (.response m) ∈ after → Completed before id m
  /-- One more frame may be taken off the stream, -/
  frames : (bodies after).length ≤ 1
  /-- and none if the read loop has closed the connection. -/
  noFrames : ∀ (ρ : Traffic) notes, ρ.connection.closed = false → ρ.step? .read = some (σ, notes) →
    bodies after = []

/-- **Closing is final.** Let anything be done with a connection, one thing after the other,
and let everything settle in between. Once the connection is closed, by whatever, it is
closed for good, and whatever is still going on settles. -/
theorem closing_is_final {moves more : List Move}
    (h : Traffic.paced? moves (.opened hasCloser) = some (σ, before))
    (hclosed : σ.connection.closed = true) (hmore : Traffic.paced? more σ = some (τ, after)) :
    ClosedForGood hasCloser σ before τ after ∧ ∃ last υ, Plays τ last υ ∧ υ.Settled := by
  obtain ⟨hb, hi⟩ := behind_of_paced? h hclosed hmore
  have hτ := hb.closed hclosed
  refine ⟨?_, Traffic.exists_settled hb.tidy hi⟩
  exact {
    closed := hτ
    reason := congrArg Closure.reason hb.closure
    closes := hb.closes hclosed
    again := fun reason failure =>
      ⟨if_pos hτ, by rw [Connection.closeError, hτ, Bool.true_or, if_pos rfl]⟩
    call := fun method params abandoned => if_pos hτ
    notify := fun method params abandoned => if_pos hτ
    unsent := hb.tidy.unsent hτ
    returns := fun hs id hbegan hopen => hb.returns hclosed hi hs hbegan hopen
    -- Without a response among the frames read, the outcome can only be a failure.
    fails := by
      intro hs id hbegan hopen hno
      obtain ⟨o, ho⟩ := hb.returns hclosed hi hs hbegan hopen
      cases o with
      | failed e => exact ⟨e, ho⟩
      | response m =>
          obtain ⟨first, body, rest, hsplit, hcompletes⟩ := hb.answered id m ho
          exact absurd ⟨first, body, rest, hsplit, hcompletes.1⟩ (hno m)
    answered := hb.answered
    frames := by
      have hframes := hb.frames
      have hle := σ.connection.framesLeft_le
      omega
    noFrames := fun ρ notes hopen hread => hb.bodies_eq_nil hclosed hopen hread }

end Closed

/-- A call has sent its request when the connection is closed. -/
def closedMoves : List Move := [.begin none, .send 1 "shutdown" .absent, .close]

/-- It returns, and then the response to it comes, and another frame. -/
def lateMoves : List Move :=
  [.wake 1 0, .leave 1,
    .arrive (Frame.encode (utf8 "\x7b\"jsonrpc\":\"2.0\",\"id\":1,\"result\":7\x7d") ++
      Frame.encode (utf8 "\x7b\x7d")), .read]

theorem lateMoves_played :
    ∃ p q, Traffic.paced? closedMoves (.opened true) = some p ∧
      Traffic.paced? lateMoves p.1 = some q ∧
      p.1.connection.closed = true ∧ (begun p.2, returned p.2, bodies p.2) = ([1], [], []) ∧
      q.1.Settled ∧ (bodies q.2).length = 1 := by
  obtain ⟨p, hp, hq⟩ := Option.bind_eq_some_iff.mp (show
    (Traffic.paced? closedMoves (.opened true)).bind (fun p =>
      (Traffic.paced? lateMoves p.1).bind fun q =>
        if p.1.connection.closed = true ∧ (begun p.2, returned p.2, bodies p.2) = ([1], [], []) ∧
          q.1.Settled ∧ (bodies q.2).length = 1 then some () else none) = some () by decide +kernel)
  obtain ⟨q, hq, hfacts⟩ := Option.bind_eq_some_iff.mp hq
  exact ⟨p, q, hp, hq, (Option.ite_none_right_eq_some.mp hfacts).1⟩

/-- The call fails, although its response is read; the frame behind it is not read. -/
theorem lateMoves_final :
    ∃ σ before τ after, Traffic.paced? closedMoves (.opened true) = some (σ, before) ∧
      σ.connection.closed = true ∧ Traffic.paced? lateMoves σ = some (τ, after) ∧
      (∃ e, .returned 1 (.failed e) ∈ after) ∧ τ.connection.closes = 1 ∧
      (bodies after).length = 1 := by
  obtain ⟨⟨σ, before⟩, ⟨τ, after⟩, hp, hq, hfacts⟩ := lateMoves_played
  obtain ⟨hclosed, hnotes, hs, hone⟩ := hfacts
  obtain ⟨hbegun, hnotes⟩ := Prod.mk.inj hnotes
  obtain ⟨hreturned, hbodies⟩ := Prod.mk.inj hnotes
  obtain ⟨hfinal, -⟩ := closing_is_final hp hclosed hq
  refine ⟨σ, before, τ, after, hp, hclosed, hq, ?_, hfinal.closes, hone⟩
  refine hfinal.fails hs 1 (mem_begun.mp (by rw [hbegun]; decide)) (by rw [hreturned]; decide) ?_
  rintro m ⟨first, body, rest, rfl, -⟩
  rw [bodies_append] at hbodies
  cases (List.append_eq_nil_iff.mp hbodies).2

end LanguageClient.Rpc
