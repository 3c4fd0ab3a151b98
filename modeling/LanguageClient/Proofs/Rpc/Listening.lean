import LanguageClient.Proofs.Rpc.Closing

/-! # Whether an answer that arrived is kept.

A call that has sent its request waits for three things at once: its response, the end of
the connection, and its caller's giving up. Where it finds several of them it takes any
one. Where it finds none it listens, and takes the first that comes, before anything else
happens. `Listening` is a connection at work (`Traffic`) with the calls that listen, and
`play?` makes moves in any order; its runs are runs of the traffic (`play?_traffic`).

`Held` is what is known of a call behind the move that has handed its response over:
every way in which it may still end is an `Ending`. Every move keeps that
(`Held.step`), and so does waking those who listen (`Held.rouse`). The main statement is
`answer_kept`. -/

namespace LanguageClient.Rpc

open Connection

/-! ### Listening -/

/-- A call takes the first of the things that it waits for, if there is one. -/
def Traffic.wake (σ : Traffic) (id : Nat) : Traffic :=
  match σ.step? (.wake id 0) with
  | some (τ, _) => τ
  | none => σ

/-- Some calls take what they wait for, as far as it is there. -/
def Traffic.rouse (ids : List Nat) (σ : Traffic) : Traffic := ids.foldl Traffic.wake σ

/-- A connection at work, with the calls that have found nothing of what they wait for, and
take the first of it that comes. -/
structure Listening where
  traffic : Traffic := {}
  listeners : List Nat := []

inductive Listening.Move where
  /-- A call that has sent its request finds nothing of what it waits for. -/
  | listen (id : Nat)
  /-- Something happens to the connection or to a call. -/
  | traffic (m : Rpc.Move)

namespace Listening

def opened (hasCloser : Bool) : Listening := { traffic := .opened hasCloser }

/-- What a move leads to and what is noted of it; `none` if it cannot be made. -/
def step? (σ : Listening) : Listening.Move → Option (Listening × List Note)
  | .listen id =>
    (σ.traffic.connection.call? id).bind fun w =>
      if σ.traffic.unsent.contains id || !(σ.traffic.connection.ready w).isEmpty then none
      else some ({ σ with listeners := id :: σ.listeners }, [])
  | .traffic m =>
    (σ.traffic.step? m).map fun (τ, notes) =>
      let τ := τ.rouse σ.listeners
      (⟨τ, σ.listeners.filter fun id => τ.connection.ids.contains id⟩, notes)

def play? : List Listening.Move → Listening → Option (Listening × List Note)
  | [], σ => some (σ, [])
  | m :: ms, σ =>
    (σ.step? m).bind fun (τ, notes) => (play? ms τ).map fun (υ, more) => (υ, notes ++ more)

theorem play?_cons_eq_some {m : Listening.Move} {ms : List Listening.Move} {σ υ : Listening}
    {notes : List Note} :
    play? (m :: ms) σ = some (υ, notes) ↔ ∃ τ first rest,
      σ.step? m = some (τ, first) ∧ play? ms τ = some (υ, rest) ∧ notes = first ++ rest := by
  constructor
  · intro h
    obtain ⟨⟨τ, first⟩, hm, h⟩ := Option.bind_eq_some_iff.mp h
    obtain ⟨⟨υ', rest⟩, hrest, he⟩ := Option.map_eq_some_iff.mp h
    cases he
    exact ⟨τ, first, rest, hm, hrest, rfl⟩
  · rintro ⟨τ, first, rest, hm, hrest, rfl⟩
    simp only [play?, hm, Option.bind_some, hrest, Option.map_some]

/-- A run goes on from where its first part has led. -/
theorem play?_split {sooner rest : List Listening.Move} {σ ρ τ : Listening} {new notes : List Note}
    (h : play? (sooner ++ rest) σ = some (τ, notes)) (hs : play? sooner σ = some (ρ, new)) :
    ∃ more, play? rest ρ = some (τ, more) ∧ notes = new ++ more := by
  induction sooner generalizing σ notes new with
  | nil =>
      cases hs
      exact ⟨notes, h, rfl⟩
  | cons m sooner ih =>
      obtain ⟨υ, first, others, hm, hrest, rfl⟩ := play?_cons_eq_some.mp h
      obtain ⟨υ', first', others', hm', hsooner, rfl⟩ := play?_cons_eq_some.mp hs
      cases hm.symm.trans hm'
      obtain ⟨more, hmore, rfl⟩ := ih hrest hsooner
      exact ⟨more, hmore, (List.append_assoc _ _ _).symm⟩

end Listening

/-! ### Runs of the traffic -/

section Projection

variable {σ τ υ : Traffic} {notes more : List Note}

theorem Traffic.play?_append {first rest : List Rpc.Move} (h : play? first σ = some (τ, notes))
    (h' : play? rest τ = some (υ, more)) : play? (first ++ rest) σ = some (υ, notes ++ more) := by
  induction first generalizing σ notes with
  | nil =>
      cases h
      exact h'
  | cons m first ih =>
      obtain ⟨⟨ρ, new⟩, hm, h⟩ := Option.bind_eq_some_iff.mp h
      obtain ⟨⟨τ', others⟩, hrest, he⟩ := Option.map_eq_some_iff.mp h
      cases he
      simp only [List.cons_append, play?, hm, Option.bind_some, ih hrest, Option.map_some,
        List.append_assoc]

/-- Waking somebody is a move, of which nothing is noted, or nothing happens. -/
theorem Traffic.wake_eq (σ : Traffic) (id : Nat) :
    σ.step? (.wake id 0) = some (σ.wake id, []) ∨ σ.step? (.wake id 0) = none ∧ σ.wake id = σ := by
  unfold wake
  cases h : σ.step? (.wake id 0) with
  | none => exact Or.inr ⟨rfl, rfl⟩
  | some p =>
      obtain ⟨w, -, h⟩ := Option.bind_eq_some_iff.mp h
      obtain ⟨-, h⟩ := Option.ite_none_left_eq_some.mp h
      obtain ⟨o, -, rfl⟩ := Option.map_eq_some_iff.mp h
      exact Or.inl rfl

/-- What holds before everybody is roused and is kept by moves that wake holds behind it. -/
theorem Traffic.rouse_induction {P : Traffic → Prop}
    (step : ∀ {σ τ : Traffic} {id : Nat}, P σ → σ.step? (.wake id 0) = some (τ, []) → P τ)
    (ids : List Nat) (h : P σ) : P (σ.rouse ids) := by
  induction ids generalizing σ with
  | nil => exact h
  | cons id ids ih =>
      rcases σ.wake_eq id with hwake | ⟨-, hsame⟩
      · exact ih (step h hwake)
      · exact ih (hsame.symm ▸ h)

theorem Traffic.play?_rouse (ids : List Nat) (σ : Traffic) :
    ∃ moves, play? moves σ = some (σ.rouse ids, []) := by
  refine rouse_induction (P := fun τ => ∃ moves, play? moves σ = some (τ, [])) ?_ ids ⟨[], rfl⟩
  rintro τ υ id ⟨moves, hplayed⟩ hwake
  refine ⟨moves ++ [.wake id 0], play?_append hplayed ?_⟩
  simp only [play?, hwake, Option.bind_some, Option.map_some, List.append_nil]

/-- **A run of those who listen is a run of the traffic.** -/
theorem Listening.play?_traffic {moves : List Listening.Move} {σ τ : Listening}
    (h : play? moves σ = some (τ, notes)) :
    ∃ ms, Traffic.play? ms σ.traffic = some (τ.traffic, notes) := by
  induction moves generalizing σ notes with
  | nil =>
      cases h
      exact ⟨[], rfl⟩
  | cons m moves ih =>
      obtain ⟨υ, first, rest, hm, hrest, rfl⟩ := play?_cons_eq_some.mp h
      obtain ⟨later, hlater⟩ := ih hrest
      cases m with
      | listen id =>
          obtain ⟨w, -, hm⟩ := Option.bind_eq_some_iff.mp hm
          obtain ⟨-, hm⟩ := Option.ite_none_left_eq_some.mp hm
          cases hm
          exact ⟨later, hlater⟩
      | traffic m =>
          obtain ⟨⟨ρ, new⟩, hmove, he⟩ := Option.map_eq_some_iff.mp hm
          cases he
          -- A move may wake calls, each with a move of its own.
          obtain ⟨wakes, hwakes⟩ := Traffic.play?_rouse σ.listeners ρ
          have hone : Traffic.play? [m] σ.traffic = some (ρ, first) := by
            simp only [Traffic.play?, hmove, Option.bind_some, Option.map_some, List.append_nil]
          exact ⟨[m] ++ (wakes ++ later), Traffic.play?_append hone (Traffic.play?_append hwakes hlater)⟩

theorem Listening.invariant {hasCloser : Bool} {moves : List Listening.Move} {σ : Listening}
    (h : play? moves (.opened hasCloser) = some (σ, notes)) : Invariant σ.traffic.books notes := by
  obtain ⟨ms, hms⟩ := play?_traffic h
  exact invariant_of_opened hms

end Projection

/-! ### A call whose response was handed over -/

/-- A way in which a call may end that was given a response. It may be told of the end of
the connection only if it is late for the response, and of a request that could not be
sent only if it has been answered early. -/
inductive Ending (m : Message) (late early closed : Prop) : Outcome → Prop where
  | response : Ending m late early closed (.response m)
  | closed (h : late) (hc : closed) : Ending m late early closed (.failed (.condition .connectionClosed))
  | unsent (h : early) (method : String) (e : Error) :
      Ending m late early closed (Traffic.sendFailure method e)

section Ending

variable {m : Message} {late late' early early' closed closed' : Prop} {o : Outcome}

theorem Ending.imp (h : Ending m late early closed o) (hl : late → late') (he : early → early')
    (hc : closed → closed') : Ending m late' early' closed' o := by
  cases h with
  | response => exact .response
  | closed h hclosed => exact .closed (hl h) (hc hclosed)
  | unsent h method e => exact .unsent (he h) method e

theorem Ending.mono (h : Ending m late early closed o) (hc : closed → closed') :
    Ending m late early closed' o := h.imp (fun hl => hl) (fun he => he) hc

/-- As long as the connection is open nobody is told of its end. -/
theorem Ending.of_open (h : Ending m late early closed o) (ho : ¬ closed) (closed' : Prop) :
    Ending m False early closed' o := by
  cases h with
  | response => exact .response
  | closed _ hclosed => exact absurd hclosed ho
  | unsent h method e => exact .unsent h method e

end Ending

/-- What is known of a call that was given a response. -/
structure Held (id : Nat) (m : Message) (late early : Prop) (σ : Traffic) : Prop where
  began : id ≤ σ.connection.issued
  unexpected : id ∉ σ.connection.pending
  waiting : ∀ w ∈ σ.connection.waiting, w.id = id → w.response = some m ∧ w.abandoned = none ∧ late
  unsent : id ∈ σ.unsent → early
  leaving : ∀ o, (id, o) ∈ σ.leaving → Ending m late early (σ.connection.closed = true) o

namespace Held

variable {id : Nat} {m : Message} {late early : Prop} {σ τ : Traffic} {notes : List Note}

theorem imp {late' early' : Prop} (h : Held id m late early σ) (hl : late → late')
    (he : early → early') : Held id m late' early' σ where
  began := h.began
  unexpected := h.unexpected
  waiting := fun w hw hid => (h.waiting w hw hid).imp_right fun hw => hw.imp_right hl
  unsent := fun hu => he (h.unsent hu)
  leaving := fun o ho => (h.leaving o ho).imp hl he fun hc => hc

/-- A call that knows how it ends while the connection is open is not late. -/
theorem in_time (h : Held id m late early σ) (hopen : σ.connection.closed = false)
    (hgone : id ∉ σ.connection.ids) : Held id m False early σ where
  began := h.began
  unexpected := h.unexpected
  waiting := fun w hw hid => absurd (List.mem_map.mpr ⟨w, hw, hid⟩) hgone
  unsent := h.unsent
  leaving := fun o ho => (h.leaving o ho).of_open (by rw [hopen]; exact Bool.false_ne_true) _

/-- A connection that was closed stays closed. -/
theorem closed_step {mv : Rpc.Move} (hs : σ.step? mv = some (τ, notes))
    (hc : σ.connection.closed = true) : τ.connection.closed = true :=
  (congrArg Closure.closed ((Traffic.takes_of_step? hs).closure_of_closed hc)).trans hc

/-- Something happens to the connection, and to no call. -/
theorem aside (h : Held id m late early σ) {c : Connection} (hi : c.issued = σ.connection.issued)
    (hp : c.pending = σ.connection.pending ∨ c.pending = [])
    (hw : c.waiting = σ.connection.waiting)
    (hc : σ.connection.closed = true → c.closed = true) :
    Held id m late early { σ with connection := c } where
  began := hi ▸ h.began
  unexpected := by
    rcases hp with hp | hp
    · exact hp ▸ h.unexpected
    · rw [hp]
      exact List.not_mem_nil
  waiting := hw ▸ h.waiting
  unsent := h.unsent
  leaving := fun o ho => (h.leaving o ho).mono hc

/-- The read loop gives the call nothing more. -/
theorem read (h : Held id m late early σ) {c : Connection} {es : List Effect}
    (hs : σ.connection.readStep = some (c, es)) (hc : σ.connection.closed = true → c.closed = true) :
    Held id m late early { σ with connection := c } := by
  -- whether the round hands a response over or not, the call is not concerned
  have hsame : c.issued = σ.connection.issued ∧ (∀ k ∈ c.pending, k ∈ σ.connection.pending) ∧
      ∀ given, (id, given) ∈ c.calls → (id, given) ∈ σ.connection.calls := by
    rcases readStep_calls hs with ⟨body, m', k, -, -, ⟨-, hk, hmem⟩, hsame⟩ | ⟨hsame, -⟩
    · have hne : k ≠ id := fun he => h.unexpected (he ▸ hmem)
      rw [deliver_expected hk hmem] at hsame
      refine ⟨hsame.issued, fun j hj => ?_, fun given hg => ?_⟩
      · rcases hsame.pending with ⟨hp, -⟩ | ⟨hp, -⟩
        · rw [hp] at hj
          exact (List.mem_filter.mp hj).1
        · rw [hp] at hj
          cases hj
      · rw [hsame.calls, calls, List.map_map] at hg
        obtain ⟨w, hw, he⟩ := List.mem_map.mp hg
        rw [Function.comp_apply] at he
        split at he
        · next hid => exact absurd (hid.symm.trans (Prod.mk.inj he).1) hne
        · exact List.mem_map.mpr ⟨w, hw, he⟩
    · refine ⟨hsame.issued, fun j hj => ?_, fun given hg => hsame.calls ▸ hg⟩
      rcases hsame.pending with ⟨hp, -⟩ | ⟨hp, -⟩
      · exact hp ▸ hj
      · rw [hp] at hj
        cases hj
  obtain ⟨hissued, hpending, hcalls⟩ := hsame
  refine ⟨hissued ▸ h.began, fun hp => h.unexpected (hpending id hp), ?_, h.unsent,
    fun o ho => (h.leaving o ho).mono hc⟩
  rintro w hw rfl
  obtain ⟨v, hv, hcall⟩ := List.mem_map.mp (hcalls w.response (List.mem_map_of_mem hw))
  have hticket : (w.id, w.abandoned) ∈ σ.connection.tickets :=
    tickets_readStep hs ▸ List.mem_map_of_mem hw
  obtain ⟨u, hu, hticket⟩ := List.mem_map.mp hticket
  obtain ⟨hvid, hvresponse⟩ := Prod.mk.inj hcall
  obtain ⟨huid, huabandoned⟩ := Prod.mk.inj hticket
  obtain ⟨hresponse, -, hlate⟩ := h.waiting v hv hvid
  exact ⟨hvresponse ▸ hresponse, huabandoned ▸ (h.waiting u hu huid).2.1, hlate⟩

/-- A call has found out how it ends. -/
theorem retire (h : Held id m late early σ) {k : Nat} {o : Outcome}
    (ho : k = id → Ending m late early (σ.connection.closed = true) o) :
    Held id m late early (σ.retire k o) where
  began := h.began
  unexpected := h.unexpected
  waiting := fun w hw => h.waiting w (List.mem_filter.mp hw).1
  unsent := fun hid => h.unsent (List.mem_filter.mp hid).1
  leaving := by
    intro o' ho'
    rcases List.mem_append.mp ho' with ho' | ho'
    · exact h.leaving o' ho'
    · cases List.mem_singleton.mp ho'
      exact ho rfl

/-- What a call may take that was given a response. -/
theorem ending_of_ready (h : Held id m late early σ) {w : Waiting} (hw : w ∈ σ.connection.waiting)
    (hid : w.id = id) {o : Outcome} (ho : o ∈ σ.connection.ready w) :
    Ending m late early (σ.connection.closed = true) o := by
  obtain ⟨hresponse, habandoned, hlate⟩ := h.waiting w hw hid
  simp only [ready, hresponse, habandoned, Option.toList_some, Option.toList_none, List.map_cons,
    List.map_nil, List.append_nil, List.mem_append, List.mem_singleton] at ho
  rcases ho with rfl | ho
  · exact .response
  · split at ho
    · next hc =>
        rw [List.mem_singleton.mp ho]
        exact .closed hlate hc
    · cases ho

/-- **Every move keeps what is known of the call**, unless its caller gives up; and if the
call returns in it, it returns with one of its endings. -/
theorem step (h : Held id m late early σ) {mv : Rpc.Move} (hs : σ.step? mv = some (τ, notes))
    (hpatient : ∀ why, mv ≠ .abandon id why) :
    Held id m late early τ ∧
      ∀ o, .returned id o ∈ notes → Ending m late early (τ.connection.closed = true) o := by
  have hclosed := closed_step hs
  cases mv with
  -- The new call has an id of its own, so nothing is said about this one.
  | begin abandoned =>
      cases hs
      have hne : σ.connection.issued + 1 ≠ id := by have := h.began; omega
      refine ⟨⟨Nat.le_succ_of_le h.began, ?_, ?_, ?_, h.leaving⟩, by simp⟩
      · intro hp
        rcases List.mem_append.mp hp with hp | hp
        · exact h.unexpected hp
        · exact hne (List.mem_singleton.mp hp).symm
      · intro w hw hid
        rcases List.mem_append.mp hw with hw | hw
        · exact h.waiting w hw hid
        · rw [List.mem_singleton.mp hw] at hid
          exact absurd hid hne
      · intro hu
        rcases List.mem_append.mp hu with hu | hu
        · exact h.unsent hu
        · exact absurd (List.mem_singleton.mp hu).symm hne
  | send k method params =>
      obtain ⟨w, hw, hs⟩ := Option.bind_eq_some_iff.mp hs
      obtain ⟨hhere, hs⟩ := Option.ite_none_right_eq_some.mp hs
      have hk : k ∈ σ.unsent := List.contains_iff_mem.mp hhere
      have hfails (e : Error) : k = id →
          Ending m late early (σ.connection.closed = true) (Traffic.sendFailure method e) :=
        fun hid => .unsent (h.unsent (hid ▸ hk)) method e
      split at hs
      · next e _ =>
          cases hs
          exact ⟨h.retire (hfails e), by simp⟩
      · next bytes _ =>
          have hsent : Held id m late early
              { σ with connection := (σ.connection.send (.request k method bytes)).1 } :=
            h.aside rfl (Or.inl rfl) rfl fun hc => hc
          simp only at hs
          split at hs <;> cases hs
          · exact ⟨hsent.retire (hfails _), by simp⟩
          · exact ⟨⟨hsent.began, hsent.unexpected, hsent.waiting,
              fun hu => h.unsent (List.mem_filter.mp hu).1, hsent.leaving⟩, by simp⟩
  | wake k choice =>
      obtain ⟨w, hw, hs⟩ := Option.bind_eq_some_iff.mp hs
      obtain ⟨hmem, rfl⟩ := Connection.call?_eq_some hw
      obtain ⟨-, hs⟩ := Option.ite_none_left_eq_some.mp hs
      obtain ⟨o, ho, he⟩ := Option.map_eq_some_iff.mp hs
      cases he
      exact ⟨h.retire fun hid => h.ending_of_ready hmem hid (List.mem_of_getElem? ho), by simp⟩
  | leave k =>
      obtain ⟨⟨k', o⟩, ho, he⟩ := Option.map_eq_some_iff.mp hs
      obtain rfl : k' = k := by simpa using List.find?_some ho
      cases he
      refine ⟨⟨h.began, fun hp => h.unexpected (List.mem_filter.mp hp).1, h.waiting, h.unsent,
        fun o' ho' => h.leaving o' (List.mem_filter.mp ho').1⟩, ?_⟩
      intro o' ho'
      cases List.mem_singleton.mp ho'
      exact h.leaving o (List.mem_of_find?_eq_some ho)
  | read =>
      obtain ⟨⟨c, es⟩, hc, he⟩ := Option.map_eq_some_iff.mp hs
      cases he
      exact ⟨h.read hc hclosed, by cases σ.connection.frame? <;> simp⟩
  -- Another call was abandoned: this one was not, by assumption.
  | abandon k why =>
      cases hs
      have hne : k ≠ id := fun he => hpatient why (by rw [he])
      refine ⟨⟨h.began, h.unexpected, ?_, h.unsent, h.leaving⟩, by simp⟩
      intro w hw hid
      obtain ⟨v, hv, rfl⟩ := List.mem_map.mp hw
      split at hid
      · next hk => exact absurd (hk.symm.trans hid) hne
      · next hk =>
          rw [if_neg hk]
          exact h.waiting v hv hid
  -- Closing takes the pending calls away, if it was not closed already.
  | close =>
      cases hs
      refine ⟨h.aside ?_ ?_ ?_ hclosed, by simp⟩ <;> unfold shutdown <;> split
      · rfl
      · rfl
      · exact Or.inl rfl
      · exact Or.inr rfl
      · rfl
      · rfl
  | notify method params abandoned =>
      cases hs
      refine ⟨?_, by simp⟩
      show Held id m late early { σ with connection := (σ.connection.notify method params abandoned).1 }
      rw [(notify_same method params abandoned σ.connection).1]
      exact h.aside rfl (Or.inl rfl) rfl fun hc => hc
  -- The others leave the calls alone.
  | arrive | hangup | cancelLoop | handle | limit =>
      cases hs
      exact ⟨h.aside rfl (Or.inl rfl) rfl fun hc => hc, by simp⟩

/-- Waking those who listen keeps what is known of the call. -/
theorem rouse (h : Held id m late early σ) (ids : List Nat) : Held id m late early (σ.rouse ids) :=
  Traffic.rouse_induction (fun h hs => (h.step hs (by simp)).1) ids h

/-- A call that takes its response ends with it. -/
theorem take (h : Held id m late early σ) (hleaving : ∀ o, (id, o) ∉ σ.leaving) :
    Held id m False False (σ.retire id (.response m)) where
  began := h.began
  unexpected := h.unexpected
  waiting := by
    intro w hw hid
    exact absurd hid (bne_iff_ne.mp (List.mem_filter.mp hw).2)
  unsent := fun hid => absurd rfl (bne_iff_ne.mp (List.mem_filter.mp hid).2)
  leaving := by
    intro o ho
    rcases List.mem_append.mp ho with ho | ho
    · exact absurd ho (hleaving o)
    · cases List.mem_singleton.mp ho
      exact .response

/-- **A call that listens when its response is handed over ends with it.** -/
theorem rouse_of_mem (h : Held id m late early σ) {ids : List Nat} (hmem : id ∈ ids)
    (hdistinct : σ.connection.ids.Nodup) (hwaits : id ∈ σ.connection.ids) (hsent : id ∉ σ.unsent)
    (hleaving : ∀ o, (id, o) ∉ σ.leaving) : Held id m False False (σ.rouse ids) := by
  induction ids generalizing σ with
  | nil => cases hmem
  | cons k ids ih =>
      -- The call is woken in its turn, with the response in front.
      by_cases hk : k = id
      · subst hk
        obtain ⟨w, hw, rfl⟩ := List.mem_map.mp hwaits
        obtain ⟨hresponse, -, -⟩ := h.waiting w hw rfl
        have hfirst : (σ.connection.ready w)[0]? = some (.response m) := by
          simp only [ready, hresponse, Option.toList_some, List.map_cons, List.cons_append]
          rfl
        have hwake : σ.wake w.id = σ.retire w.id (.response m) := by
          simp only [Traffic.wake, Traffic.step?, call?_of_mem hdistinct hw, Option.bind_some,
            List.contains_iff_mem, hsent, if_false, hfirst, Option.map_some]
        have hheld := (h.take hleaving).rouse ids
        rwa [← hwake] at hheld
      · rcases σ.wake_eq k with hwake | ⟨-, hsame⟩
        · have hheld := (h.step hwake (by simp)).1
          obtain ⟨w, hw, hs⟩ := Option.bind_eq_some_iff.mp hwake
          obtain ⟨-, hs⟩ := Option.ite_none_left_eq_some.mp hs
          obtain ⟨o, -, he⟩ := Option.map_eq_some_iff.mp hs
          obtain ⟨he, -⟩ := Prod.mk.inj he
          refine ih (σ := σ.wake k) hheld ((List.mem_cons.mp hmem).resolve_left (Ne.symm hk)) ?_ ?_ ?_ ?_
            <;> rw [← he]
          · exact hdistinct.sublist (List.filter_sublist.map _)
          · exact Traffic.mem_ids_retire.mpr ⟨hwaits, Ne.symm hk⟩
          · exact fun hu => hsent (List.mem_filter.mp hu).1
          · intro o' ho'
            rcases List.mem_append.mp ho' with ho' | ho'
            · exact hleaving o' ho'
            · exact hk (Prod.mk.inj (List.mem_singleton.mp ho')).1.symm
        · have hrest := ih h ((List.mem_cons.mp hmem).resolve_left (Ne.symm hk)) hdistinct hwaits hsent
            hleaving
          rwa [← hsame] at hrest

end Held

/-! ### Those who listen -/

theorem callIds_of_waits {σ : Traffic} {id : Nat} (hid : id ∈ σ.connection.ids) :
    id ∈ σ.books.callIds := by
  obtain ⟨w, hw, rfl⟩ := List.mem_map.mp hid
  exact List.mem_map.mpr ⟨(w.id, w.response), List.mem_map_of_mem hw, rfl⟩

/-- The id of a call that waits was given out. -/
theorem issued_of_waits {σ : Traffic} {notes : List Note} {id : Nat} (hi : Invariant σ.books notes)
    (hid : id ∈ σ.connection.ids) :
    id ≤ σ.connection.issued := by
  have hbegun := (hi.accounted id).mpr (Or.inl (callIds_of_waits hid))
  rw [hi.ids, List.mem_range'_1] at hbegun
  have hissued : σ.books.issued = σ.connection.issued := rfl
  omega

namespace Listening

variable {σ τ υ : Listening} {notes new : List Note} {id : Nat} {m : Message}

/-- A call that listens waits, and has sent its request. -/
structure Sound (σ : Listening) : Prop where
  waits : ∀ id ∈ σ.listeners, id ∈ σ.traffic.connection.ids
  sent : ∀ id ∈ σ.listeners, id ∉ σ.traffic.unsent

theorem sound_opened (hasCloser : Bool) : Sound (.opened hasCloser) where
  waits := by simp [opened]
  sent := by simp [opened]

/-- Only a call that begins has a request to send that was not there before. -/
theorem unsent_of_takes {σ τ : Traffic} {mv : Rpc.Move} (h : σ.Takes mv τ new) (hid : id ∈ τ.unsent) :
    id ∈ σ.unsent ∨ id = σ.connection.issued + 1 := by
  cases h with
  | begun abandoned => exact (List.mem_append.mp hid).imp_right List.mem_singleton.mp
  | sent | refused | woken => exact Or.inl (List.mem_filter.mp hid).1
  | _ => exact Or.inl hid

/-- Every move keeps the calls that listen among those that wait, with their requests sent. -/
theorem Sound.step {mv : Listening.Move} (h : Sound σ) (hi : Invariant σ.traffic.books notes)
    (hs : σ.step? mv = some (τ, new)) : Sound τ := by
  cases mv with
  | listen id =>
      -- Only a call that waits and has been sent can listen.
      obtain ⟨w, hw, hs⟩ := Option.bind_eq_some_iff.mp hs
      obtain ⟨hsent, hs⟩ := Option.ite_none_left_eq_some.mp hs
      cases hs
      have hunsent : id ∉ σ.traffic.unsent := fun hu => hsent (by simp [hu])
      refine ⟨fun k hk => ?_, fun k hk => ?_⟩ <;> rcases List.mem_cons.mp hk with rfl | hk
      · exact Traffic.ids_of_call? hw
      · exact h.waits k hk
      · exact hunsent
      · exact h.sent k hk
  | traffic mv =>
      obtain ⟨⟨ρ, first⟩, hmove, he⟩ := Option.map_eq_some_iff.mp hs
      cases he
      -- Who listens afterwards still waits; that none of them is unsent needs the induction.
      refine ⟨fun k hk => List.contains_iff_mem.mp (List.mem_filter.mp hk).2, fun k hk => ?_⟩
      obtain ⟨hk, -⟩ := List.mem_filter.mp hk
      have hissued := issued_of_waits hi (h.waits k hk)
      refine Traffic.rouse_induction (P := fun υ => k ∉ υ.unsent) (fun hk hs hu => ?_) σ.listeners ?_
      · obtain ⟨w, -, hs⟩ := Option.bind_eq_some_iff.mp hs
        obtain ⟨-, hs⟩ := Option.ite_none_left_eq_some.mp hs
        obtain ⟨o, -, he⟩ := Option.map_eq_some_iff.mp hs
        cases he
        exact hk (List.mem_filter.mp hu).1
      -- No call that listens can become unsent: its id has been issued.
      · intro hu
        rcases unsent_of_takes (Traffic.takes_of_step? hmove) hu with hu | hu
        · exact h.sent k hk hu
        · omega

/-- What holds of those who listen in every run. -/
theorem sound_of_play? {moves : List Listening.Move} (h : Sound σ)
    (hi : Invariant σ.traffic.books notes) (hplayed : play? moves σ = some (τ, new)) : Sound τ := by
  induction moves generalizing σ notes new with
  | nil =>
      cases hplayed
      exact h
  | cons mv moves ih =>
      obtain ⟨υ, first, rest, hm, hrest, rfl⟩ := play?_cons_eq_some.mp hplayed
      have hone : play? [mv] σ = some (υ, first) :=
        play?_cons_eq_some.mpr ⟨υ, first, [], hm, rfl, (List.append_nil first).symm⟩
      obtain ⟨ms, hms⟩ := play?_traffic hone
      exact ih (h.step hi hm) (play?_invariant hms hi) hrest

end Listening

/-! ### A response is handed over -/

section HandedOver

variable {σ τ : Traffic} {notes new : List Note} {id : Nat} {m : Message} {body : Bytes}

/-- The one call with an id has not been given up. -/
theorem patient_of_ticket {c : Connection} (hdistinct : c.ids.Nodup) (h : (id, none) ∈ c.tickets)
    {why : Option Condition} (hwhy : (id, why) ∈ c.tickets) : why = none := by
  obtain ⟨v, hv, hvid⟩ := List.mem_map.mp h
  obtain ⟨w, hw, hwid⟩ := List.mem_map.mp hwhy
  obtain ⟨rfl, hvnone⟩ := Prod.mk.inj hvid
  obtain ⟨he, rfl⟩ := Prod.mk.inj hwid
  have hsame := (call?_of_mem hdistinct hw).symm.trans (he.symm ▸ call?_of_mem hdistinct hv)
  rw [Option.some.inj hsame, hvnone]

/-- A call that waits is not on its way out. -/
theorem not_leaving_of_waits (hi : Invariant σ.books notes) (hid : id ∈ σ.connection.ids) (o : Outcome) :
    (id, o) ∉ σ.leaving := by
  intro ho
  have hleaving : id ∈ σ.books.leavingIds := List.mem_map.mpr ⟨(id, o), ho, rfl⟩
  have hdistinct := (List.nodup_append.mp hi.distinct).1
  exact (List.nodup_append.mp hdistinct).2.2 _ (callIds_of_waits hid) _ hleaving rfl

/-- Of a round of the read loop nothing is noted but the frame that was taken. -/
theorem notes_of_read (hs : σ.step? .read = some (τ, new)) :
    new = σ.connection.frame?.toList.map .received := by
  obtain ⟨⟨c, es⟩, -, he⟩ := Option.map_eq_some_iff.mp hs
  exact (Prod.mk.inj he).2.symm

/-- **The read loop hands a response over to a call that waits for it.** -/
theorem held_of_read (hi : Invariant σ.books notes) (hframe : σ.connection.frame? = some body)
    (hparse : parse body = .ok m) (hexpects : σ.connection.Expects m id)
    (hwaits : (id, none) ∈ σ.connection.tickets) (hs : σ.step? .read = some (τ, new)) :
    Held id m True (id ∈ σ.unsent) τ ∧ τ.connection.tickets = σ.connection.tickets ∧
      τ.unsent = σ.unsent ∧ τ.leaving = σ.leaving := by
  obtain ⟨⟨c, es⟩, hc, he⟩ := Option.map_eq_some_iff.mp hs
  cases he
  have htickets := tickets_readStep hc
  have hid : id ∈ σ.connection.ids := by
    obtain ⟨v, hv, hvid⟩ := List.mem_map.mp hwaits
    exact List.mem_map.mpr ⟨v, hv, (Prod.mk.inj hvid).1⟩
  -- The response was expected, so it was delivered to this call.
  rcases readStep_calls hc with ⟨body', m', k, hframe', hparse', ⟨-, hk, hmem⟩, hsame⟩ | ⟨-, hno⟩
  · cases hframe.symm.trans hframe'
    cases hparse.symm.trans hparse'
    obtain ⟨-, hnamed, -⟩ := hexpects
    rw [hnamed, Option.some.injEq, Int.natCast_inj] at hk
    subst hk
    rw [deliver_expected hnamed hmem] at hsame
    refine ⟨⟨?_, ?_, ?_, fun hu => hu, ?_⟩, htickets, rfl, rfl⟩
    · rw [show c.issued = σ.connection.issued from hsame.issued]
      exact issued_of_waits hi hid
    · rcases hsame.pending with ⟨hp, -⟩ | ⟨hp, -⟩
      · rw [show c.pending = _ from hp]
        exact fun hm => absurd rfl (bne_iff_ne.mp (List.mem_filter.mp hm).2)
      · rw [show c.pending = [] from hp]
        exact List.not_mem_nil
    · rintro w hw rfl
      have hcall : (w.id, w.response) ∈ c.calls := List.mem_map_of_mem hw
      rw [hsame.calls, calls, List.map_map] at hcall
      obtain ⟨v, -, hv⟩ := List.mem_map.mp hcall
      rw [Function.comp_apply] at hv
      refine ⟨?_, ?_, trivial⟩
      · split at hv
        · exact (Prod.mk.inj hv).2.symm
        · next hne => exact absurd (Prod.mk.inj hv).1 hne
      · exact patient_of_ticket (nodup_waiting hi) hwaits (htickets ▸ List.mem_map_of_mem hw)
    · exact fun o ho => absurd ho (not_leaving_of_waits hi hid o)
  · exact absurd hexpects (hno body m id hframe hparse)

end HandedOver

/-! ### Nobody is held up -/

def Move.isOwn (id : Nat) : Rpc.Move → Bool
  | .send k .. | .wake k _ | .leave k => k == id
  | _ => false

section Own

variable {σ : Traffic} {id : Nat} {m : Message} {late early : Prop}

/-- A call can return by moves of its own, and needs no more than so many. -/
def Returnable (id count : Nat) (σ : Traffic) : Prop :=
  ∃ moves τ notes o, moves.length ≤ count ∧ (∀ mv ∈ moves, Move.isOwn id mv = true) ∧
    Traffic.play? moves σ = some (τ, notes) ∧ .returned id o ∈ notes

theorem Returnable.cons {τ : Traffic} {count : Nat} (h : Returnable id count τ) (mv : Rpc.Move)
    (hown : Move.isOwn id mv = true) (hs : σ.step? mv = some (τ, [])) :
    Returnable id (count + 1) σ := by
  obtain ⟨moves, υ, notes, o, hlen, hall, hplayed, ho⟩ := h
  refine ⟨mv :: moves, υ, notes, o, Nat.succ_le_succ hlen, ?_, ?_, ho⟩
  · intro mv' hmv
    rcases List.mem_cons.mp hmv with rfl | hmv
    · exact hown
    · exact hall mv' hmv
  · simp only [Traffic.play?, hs, Option.bind_some, hplayed, Option.map_some, List.nil_append]

theorem Returnable.mono {count more : Nat} (h : Returnable id count σ) (hle : count ≤ more) :
    Returnable id more σ := by
  obtain ⟨moves, υ, notes, o, hlen, hrest⟩ := h
  exact ⟨moves, υ, notes, o, Nat.le_trans hlen hle, hrest⟩

/-- Who knows how it ends can return. -/
theorem returnable_of_leaving {o : Outcome} (h : (id, o) ∈ σ.leaving) : Returnable id 1 σ := by
  obtain ⟨⟨k, o'⟩, hfind⟩ := Option.isSome_iff_exists.mp
    (List.find?_isSome (p := (·.1 == id)).mpr ⟨(id, o), h, beq_self_eq_true id⟩)
  obtain rfl : k = id := by simpa using List.find?_some hfind
  obtain ⟨τ, hleave⟩ : ∃ τ, σ.step? (.leave k) = some (τ, [.returned k o']) := by
    simp only [Traffic.step?, hfind, Option.map_some]
    exact ⟨_, rfl⟩
  refine ⟨[.leave k], τ, [.returned k o'], o', Nat.le_refl 1, by simp [Move.isOwn], ?_,
    List.mem_cons_self⟩
  simp only [Traffic.play?, hleave, Option.bind_some, Option.map_some, List.append_nil]

/-- A call that was given a response and has sent its request can take it. -/
theorem returnable_of_sent (h : Held id m late early σ) (hdistinct : σ.connection.ids.Nodup)
    (hwaits : id ∈ σ.connection.ids) (hsent : id ∉ σ.unsent) : Returnable id 2 σ := by
  obtain ⟨w, hw, rfl⟩ := List.mem_map.mp hwaits
  obtain ⟨hresponse, -, -⟩ := h.waiting w hw rfl
  have hfirst : (σ.connection.ready w)[0]? = some (.response m) := by
    simp only [ready, hresponse, Option.toList_some, List.map_cons, List.cons_append]
    rfl
  have hleaving : Returnable w.id 1 (σ.retire w.id (.response m)) :=
    returnable_of_leaving (List.mem_append_right _ List.mem_cons_self)
  refine hleaving.cons (.wake w.id 0) (beq_self_eq_true _) ?_
  simp only [Traffic.step?, call?_of_mem hdistinct hw, Option.bind_some, List.contains_iff_mem, hsent,
    if_false, hfirst, Option.map_some]

/-- **A call that was given a response is never held up**: it can return by at most three
moves of its own. -/
theorem returnable_of_waits (h : Held id m late early σ) (hdistinct : σ.connection.ids.Nodup)
    (hwaits : id ∈ σ.connection.ids) : Returnable id 3 σ := by
  -- It returns in three moves at most: send, wake, leave.
  by_cases hunsent : id ∈ σ.unsent
  · obtain ⟨w, hw, rfl⟩ := List.mem_map.mp hwaits
    have hcall := call?_of_mem hdistinct hw
    have hhere := List.contains_iff_mem.mpr hunsent
    -- The write may fail, and the call leaves with that failure.
    cases hfails : (σ.connection.send (.request w.id "" none)).2.2 with
    | some e =>
        have hstep : σ.step? (.send w.id "" .absent) =
            some (({ σ with connection := (σ.connection.send (.request w.id "" none)).1 } : Traffic).retire
              w.id (Traffic.sendFailure "" e), []) := by
          simp only [Traffic.step?, hcall, Option.bind_some, hhere, if_true, Params.encode, hfails]
        have hleaving := returnable_of_leaving (σ := ({ σ with
            connection := (σ.connection.send (.request w.id "" none)).1 } : Traffic).retire
              w.id (Traffic.sendFailure "" e)) (List.mem_append_right _ List.mem_cons_self)
        exact (hleaving.cons (.send w.id "" .absent) (beq_self_eq_true _) hstep).mono
          (Nat.le_succ 2)
    | none =>
        have hstep : σ.step? (.send w.id "" .absent) =
            some ({ σ with
              connection := (σ.connection.send (.request w.id "" none)).1
              unsent := σ.unsent.filter (· != w.id) }, []) := by
          simp only [Traffic.step?, hcall, Option.bind_some, hhere, if_true, Params.encode, hfails]
        have hheld := (h.step hstep (by simp)).1
        have hsent : Returnable w.id 2 _ := returnable_of_sent hheld hdistinct hwaits fun hu =>
          absurd rfl (bne_iff_ne.mp (List.mem_filter.mp hu).2)
        exact hsent.cons (.send w.id "" .absent) (beq_self_eq_true _) hstep
  · exact (returnable_of_sent h hdistinct hwaits hunsent).mono (Nat.le_succ 2)

/-- **A call that was given a response returns, or can return.** -/
theorem Held.returns_or_returnable {τ : Traffic} {before after : List Note} (h : Held id m late early τ)
    (hi : Invariant σ.books before) (hi' : Invariant τ.books (before ++ after))
    (hid : id ∈ σ.connection.ids) : (∃ o, .returned id o ∈ after) ∨ Returnable id 3 τ := by
  have hcall : id ∈ σ.books.callIds := callIds_of_waits hid
  have hbegun : id ∈ begun (before ++ after) := by
    rw [begun_append, List.mem_append]
    exact Or.inl ((hi.accounted id).mpr (Or.inl hcall))
  rcases (hi'.accounted id).mp hbegun with hwaits | hleaving | hreturned
  · obtain ⟨p, hp, rfl⟩ := List.mem_map.mp hwaits
    obtain ⟨w, hw, rfl⟩ := List.mem_map.mp hp
    exact Or.inr (returnable_of_waits h (nodup_waiting hi') (List.mem_map_of_mem hw))
  · obtain ⟨⟨k, o⟩, hp, rfl⟩ := List.mem_map.mp hleaving
    exact Or.inr ((returnable_of_leaving hp).mono (by omega))
  · rw [returned_append, List.mem_append] at hreturned
    exact Or.inl (mem_returned.mp (hreturned.resolve_left (hi.not_returned (Or.inl hcall))))

end Own

/-! ### Runs -/

section Runs

variable {hasCloser : Bool} {moves later : List Listening.Move} {σ τ υ : Listening}
  {before first after notes : List Note} {id : Nat} {m : Message} {body : Bytes} {late early : Prop}

/-- A connection that was closed stays closed while those who listen are woken. -/
theorem Traffic.closed_rouse {σ : Traffic} (h : σ.connection.closed = true) (ids : List Nat) :
    (σ.rouse ids).connection.closed = true :=
  rouse_induction (P := fun σ => σ.connection.closed = true) (fun hc hs => Held.closed_step hs hc) ids h

/-- **What is known of a call that was given a response is known of it from then on**, unless
its caller gives up. -/
theorem Listening.held_of_play? (h : Held id m late early σ.traffic)
    (hpatient : ∀ why, .traffic (.abandon id why) ∉ moves) (hplayed : play? moves σ = some (τ, notes)) :
    Held id m late early τ.traffic ∧
      (σ.traffic.connection.closed = true → τ.traffic.connection.closed = true) ∧
      ∀ o, .returned id o ∈ notes → Ending m late early (τ.traffic.connection.closed = true) o := by
  -- Along the moves: what holds of the call holds after each of them.
  induction moves generalizing σ notes with
  | nil =>
      cases hplayed
      exact ⟨h, fun hc => hc, by simp⟩
  | cons mv moves ih =>
      obtain ⟨ρ, new, rest, hm, hrest, rfl⟩ := play?_cons_eq_some.mp hplayed
      have hpatient' : ∀ why, .traffic (.abandon id why) ∉ moves :=
        fun why hmem => hpatient why (List.mem_cons_of_mem mv hmem)
      have hstep : Held id m late early ρ.traffic ∧
          (σ.traffic.connection.closed = true → ρ.traffic.connection.closed = true) ∧
          ∀ o, .returned id o ∈ new → Ending m late early (ρ.traffic.connection.closed = true) o := by
        cases mv with
        | listen k =>
            obtain ⟨w, -, hm⟩ := Option.bind_eq_some_iff.mp hm
            obtain ⟨-, hm⟩ := Option.ite_none_left_eq_some.mp hm
            cases hm
            exact ⟨h, fun hc => hc, by simp⟩
        | traffic mv =>
            obtain ⟨⟨ρ', new'⟩, hmove, he⟩ := Option.map_eq_some_iff.mp hm
            cases he
            obtain ⟨hheld, hends⟩ := h.step hmove fun why he =>
              hpatient why (he ▸ List.mem_cons_self)
            exact ⟨hheld.rouse _, fun hc => Traffic.closed_rouse (Held.closed_step hmove hc) _,
              fun o ho => (hends o ho).mono fun hc => Traffic.closed_rouse hc _⟩
      obtain ⟨hheld, hclosed, hends⟩ := hstep
      obtain ⟨hlast, hkept, hreturns⟩ := ih hheld hpatient' hrest
      -- What comes before the last part is weakened to what holds in the end.
      refine ⟨hlast, fun hc => hkept (hclosed hc), fun o ho => ?_⟩
      rcases List.mem_append.mp ho with ho | ho
      · exact (hends o ho).mono hkept
      · exact hreturns o ho

/-- **An answer that arrived is kept by who listens for it, and by who comes for it while the
connection is open.** Let the read loop hand its response over to a call that waits and has
not been given up, and let anything happen then, but that the caller gives up. If the call
returns, it returns the response, or the end of the connection. The latter it returns only
if the connection is closed, and not if it was listening; nor if it had found out how it
ends when the connection was still open. (One that was answered before it has sent its
request may also return that the request could not be sent.) And it is never held up. -/
theorem answer_kept (h : Listening.play? moves (.opened hasCloser) = some (σ, before))
    (hframe : σ.traffic.connection.frame? = some body) (hparse : parse body = .ok m)
    (hexpects : σ.traffic.connection.Expects m id)
    (hwaits : (id, none) ∈ σ.traffic.connection.tickets)
    (hread : σ.step? (.traffic .read) = some (υ, first))
    (hlater : Listening.play? later υ = some (τ, after))
    (hpatient : ∀ why, .traffic (.abandon id why) ∉ later) :
    (∀ o, .returned id o ∈ after →
      Ending m (id ∉ σ.listeners) (id ∈ σ.traffic.unsent) (τ.traffic.connection.closed = true) o) ∧
    (∀ sooner rest ρ new, later = sooner ++ rest → Listening.play? sooner υ = some (ρ, new) →
      ρ.traffic.connection.closed = false → id ∉ ρ.traffic.connection.ids →
      ∀ o, .returned id o ∈ after →
        Ending m False (id ∈ σ.traffic.unsent) (τ.traffic.connection.closed = true) o) ∧
    ((∃ o, .returned id o ∈ after) ∨ Returnable id 3 τ.traffic) := by
  have hi := Listening.invariant h
  have hsound := Listening.sound_of_play? (Listening.sound_opened hasCloser) invariant_initial h
  obtain ⟨⟨ρ, new⟩, hmove, he⟩ := Option.map_eq_some_iff.mp hread
  cases he
  -- The response goes to the call, and the rest stays.
  obtain ⟨hheld, htickets, hunsent, hleaving⟩ := held_of_read hi hframe hparse hexpects hwaits hmove
  have hid : id ∈ σ.traffic.connection.ids := by
    obtain ⟨v, hv, hvid⟩ := List.mem_map.mp hwaits
    exact List.mem_map.mpr ⟨v, hv, (Prod.mk.inj hvid).1⟩
  have hdistinct : ρ.connection.ids.Nodup := ids_of_tickets htickets ▸ nodup_waiting hi
  have hfrom : Held id m (id ∉ σ.listeners) (id ∈ σ.traffic.unsent) (ρ.rouse σ.listeners) := by
    -- A listening call takes it at once, and cannot be too late.
    by_cases hlistens : id ∈ σ.listeners
    · refine (hheld.rouse_of_mem hlistens hdistinct ?_ ?_ ?_).imp False.elim False.elim
      · exact ids_of_tickets htickets ▸ hid
      · exact hunsent ▸ hsound.sent id hlistens
      · exact hleaving ▸ not_leaving_of_waits hi hid
    · exact (hheld.rouse σ.listeners).imp (fun _ => hlistens) fun he => he
  obtain ⟨hlast, -, hends⟩ := Listening.held_of_play? hfrom hpatient hlater
  -- It is not late for a call that no longer waits while the connection is open.
  refine ⟨hends, ?_, ?_⟩
  · rintro sooner rest ω new rfl hsooner hopen hgone o ho
    obtain ⟨more, hmore, rfl⟩ := Listening.play?_split hlater hsooner
    obtain ⟨hthen, -, hfirst⟩ := Listening.held_of_play? hfrom
      (fun why hmem => hpatient why (List.mem_append_left _ hmem)) hsooner
    obtain ⟨-, -, hrest⟩ := Listening.held_of_play? (hthen.in_time hopen hgone)
      (fun why hmem => hpatient why (List.mem_append_right _ hmem)) hmore
    rcases List.mem_append.mp ho with ho | ho
    · exact (hfirst o ho).of_open (by rw [hopen]; exact Bool.false_ne_true) _
    · exact hrest o ho
  -- It has returned, or can: the whole run, the read included, is one of the traffic.
  · have hone : Listening.play? [.traffic .read] σ = some (⟨ρ.rouse σ.listeners, _⟩, first) :=
      Listening.play?_cons_eq_some.mpr ⟨_, first, [], hread, rfl, (List.append_nil first).symm⟩
    obtain ⟨ms, hms⟩ := Listening.play?_traffic hone
    obtain ⟨ms', hms'⟩ := Listening.play?_traffic hlater
    have hi' := play?_invariant hms' (play?_invariant hms hi)
    rw [List.append_assoc] at hi'
    refine (hlast.returns_or_returnable hi hi' hid).imp_left ?_
    rintro ⟨o, ho⟩
    -- The read itself returns nothing.
    refine ⟨o, (List.mem_append.mp ho).resolve_left fun ho => ?_⟩
    obtain ⟨body', -, he⟩ := List.mem_map.mp (notes_of_read hmove ▸ ho)
    cases he

end Runs

/-! ### One call and its answer -/

/-- A response whose id reads so. -/
def answerBody (id : String) : Bytes :=
  utf8 ("\x7b\"jsonrpc\":\"2.0\",\"id\":" ++ id ++ ",\"result\":7\x7d")

/-- A call has sent its request, and perhaps listens, when a response arrives. -/
def arrivedMoves (id : String) (listening : List Listening.Move) : List Listening.Move :=
  [.traffic (.begin none), .traffic (.send 1 "shutdown" .absent)] ++ listening ++
    [.traffic (.arrive (Frame.encode (answerBody id)))]

/-- Whether a call was told of the end of the connection. -/
def Note.isLoss : Note → Bool
  | .returned _ (.failed (.condition .connectionClosed)) => true
  | _ => false

theorem answer_parsed :
    ∃ m, parse (answerBody "1") = .ok m ∧ m.isResponse = true ∧ m.intId = some 1 := by
  have hparsed : ((parse (answerBody "1")).toOption.map fun m => (m.isResponse, m.intId)) =
      some (true, some 1) := by decide +kernel
  obtain ⟨m, hm, hsame⟩ := Option.map_eq_some_iff.mp hparsed
  cases hp : parse (answerBody "1") with
  | error e => rw [hp] at hm; cases hm
  | ok m' =>
      rw [hp] at hm
      cases hm
      exact ⟨m, rfl, Prod.mk.inj hsame⟩

/-- The response of a call is handed over, and then the connection is closed. -/
structure Arrived (listening later : List Listening.Move) (p q r : Listening × List Note) : Prop where
  arrives : Listening.play? (arrivedMoves "1" listening) (.opened true) = some p
  read : p.1.step? (.traffic .read) = some q
  closes : Listening.play? (.traffic .close :: later) q.1 = some r
  frame : p.1.traffic.connection.frame? = some (answerBody "1")
  pending : p.1.traffic.connection.pending = [1]
  waits : p.1.traffic.connection.tickets = [(1, none)]
  sent : p.1.traffic.unsent = []
  isOpen : q.1.traffic.connection.closed = false

theorem exists_arrived (listening later : List Listening.Move)
    (check : Listening × List Note → Listening × List Note → Bool)
    (h : ((Listening.play? (arrivedMoves "1" listening) (.opened true)).bind fun p =>
      (p.1.step? (.traffic .read)).bind fun q =>
        (Listening.play? (.traffic .close :: later) q.1).bind fun r =>
          if (p.1.traffic.connection.frame? = some (answerBody "1") ∧
            p.1.traffic.connection.pending = [1] ∧ p.1.traffic.connection.tickets = [(1, none)] ∧
            p.1.traffic.unsent = [] ∧ q.1.traffic.connection.closed = false) ∧ check p r = true
          then some () else none) = some ()) :
    ∃ p q r, Arrived listening later p q r ∧ check p r = true := by
  obtain ⟨p, hp, h⟩ := Option.bind_eq_some_iff.mp h
  obtain ⟨q, hq, h⟩ := Option.bind_eq_some_iff.mp h
  obtain ⟨r, hr, h⟩ := Option.bind_eq_some_iff.mp h
  obtain ⟨⟨⟨hframe, hpending, hwaits, hsent, hopen⟩, hcheck⟩, -⟩ := Option.ite_none_right_eq_some.mp h
  exact ⟨p, q, r, ⟨hp, hq, hr, hframe, hpending, hwaits, hsent, hopen⟩, hcheck⟩

theorem Arrived.expects {listening later : List Listening.Move} {p q r : Listening × List Note}
    (h : Arrived listening later p q r) :
    ∃ m, parse (answerBody "1") = .ok m ∧ p.1.traffic.connection.Expects m 1 := by
  obtain ⟨m, hm, hresponse, hid⟩ := answer_parsed
  exact ⟨m, hm, hresponse, hid, h.pending ▸ List.mem_cons_self⟩

theorem listening_arrived :
    ∃ p q r, Arrived [.listen 1] [.traffic (.leave 1)] p q r ∧
      (p.1.listeners == [1] && returned r.2 == [1]) = true :=
  exists_arrived _ _ (fun p r => p.1.listeners == [1] && returned r.2 == [1]) (by decide +kernel)

/-- The call that listens returns its response, although the connection is closed before it
does anything else. -/
theorem listening_answered :
    ∃ p q r m, Arrived [.listen 1] [.traffic (.leave 1)] p q r ∧ parse (answerBody "1") = .ok m ∧
      .returned 1 (.response m) ∈ r.2 := by
  obtain ⟨p, q, r, h, hfacts⟩ := listening_arrived
  obtain ⟨m, hm, hexpects⟩ := h.expects
  obtain ⟨hlisteners, hreturned⟩ := (Bool.and_eq_true _ _).mp hfacts
  obtain ⟨o, ho⟩ := mem_returned.mp (beq_iff_eq.mp hreturned ▸ List.mem_cons_self)
  refine ⟨p, q, r, m, h, hm, ?_⟩
  have hends := (answer_kept h.arrives h.frame hm hexpects (h.waits ▸ List.mem_cons_self) h.read
    h.closes (by simp)).1 o ho
  cases hends with
  | response => exact ho
  | closed hlate _ => exact absurd (beq_iff_eq.mp hlisteners ▸ List.mem_cons_self) hlate
  | unsent hearly _ _ =>
      rw [h.sent] at hearly
      cases hearly

theorem fraction_lost :
    ∃ r, Listening.play? (arrivedMoves "1.0" [.listen 1] ++
        [.traffic .read, .traffic .close, .traffic (.leave 1)]) (.opened true) = some r ∧
      r.2.any Note.isLoss = true :=
  Option.map_eq_some_iff.mp (by decide +kernel)

/-- **An answer that arrived can be lost**: a call that has not come to look for it when the
connection is closed may find the end of the connection instead. And a response whose id is
a number equal to that of the call, but not written as an integer, is lost to a call that
listens. -/
theorem answer_lost :
    (∃ p q r m, Arrived [] [.traffic (.wake 1 1), .traffic (.leave 1)] p q r ∧
      parse (answerBody "1") = .ok m ∧ p.1.traffic.connection.Expects m 1 ∧
      r.2.any Note.isLoss = true) ∧
    ∃ r, Listening.play? (arrivedMoves "1.0" [.listen 1] ++
        [.traffic .read, .traffic .close, .traffic (.leave 1)]) (.opened true) = some r ∧
      r.2.any Note.isLoss = true := by
  refine ⟨?_, fraction_lost⟩
  obtain ⟨p, q, r, h, hloss⟩ := exists_arrived [] [.traffic (.wake 1 1), .traffic (.leave 1)]
    (fun _ r => r.2.any Note.isLoss) (by decide +kernel)
  obtain ⟨m, hm, hexpects⟩ := h.expects
  exact ⟨p, q, r, m, h, hm, hexpects, hloss⟩

end LanguageClient.Rpc
