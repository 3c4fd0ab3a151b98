import Mathlib.Data.List.Perm.Basic
import LanguageClient.Session.Basic

/-! # Who owns a session, and for how long.

A session is shared: calls to hand it a server, to deactivate it and to drain
its events are made at any time and take turns. A call to deactivate lets go of
the session while it stops the server, so that every other call can come in
halfway. A run is a list of turns, each of which makes a new call, lets one call
go on, or changes the surroundings in any way; every list is a run.

* `Call.move`         — what a call does in one turn;
* `Account`           — what a history has to do with where everything stands;
* `Account.turn`      — no turn of anybody upsets it;
* `session_owned_once` — from it, what holds of a session after every run;
* `run_deactivate`    — a call nobody comes between is `Session.deactivate`. -/

namespace LanguageClient.Session

/-! ### Calls on a shared session -/

inductive Request (η β : Type) where
  | attach (binary : Binary) (server : η) (bridge : Option β)
  | deactivate
  | drain

inductive Call (η β : Type) where
  | asked (r : Request η β)
  /-- The session is marked; the server that was found is to be stopped. -/
  | stop (server : η)
  /-- The server is being stopped, and the session is free for others. -/
  | awaitStop (server : η)
  | look (server : η)
  | finish (final : Option Lifecycle)
  | log (said : List Report)
  | done

/-- What can be seen of a turn. -/
inductive Happening (η β : Type) where
  | attached (binary : Binary) (server : η) (bridge : Option β)
  | refused (e : Error)
  /-- A call to deactivate has marked the session. -/
  | marked
  /-- A call to deactivate found the session marked, and returned. -/
  | passed
  | stopCalled (server : η)
  | stopReturned (server : η)
  | looked (final : Option Lifecycle)
  | finished (final : Option Lifecycle)
  /-- The call that had marked the session said its last and returned. -/
  | returned (said : List Report)
  | drained (events : List Event)

variable {η β σ : Type}

section Runs

variable (stop : η → σ → σ) (state : η → σ → Option Lifecycle)

/-- One turn of a call, with the surroundings `w`. -/
def Call.move (s : Session η β) (w : σ) :
    Call η β → Option (Session η β × σ × Call η β × Happening η β)
  | .asked (.attach binary server bridge) =>
    match s.attach binary (some server) bridge with
    | .ok s => some (s, w, .done, .attached binary server bridge)
    | .error e => some (s, w, .done, .refused e)
  | .asked .deactivate =>
    match s.beginDeactivation with
    | none => some (s, w, .done, .passed)
    | some s =>
      match s.server with
      | some h => some (s, w, .stop h, .marked)
      | none => some (s, w, .finish (some .stopped), .marked)
  | .asked .drain =>
    let (s, events) := s.drain
    some (s, w, .done, .drained events)
  | .stop h => some (s, w, .awaitStop h, .stopCalled h)
  | .awaitStop h => some (s, stop h w, .look h, .stopReturned h)
  | .look h => some (s, w, .finish (state h w), .looked (state h w))
  | .finish final =>
    let (s, said) := s.endDeactivation final
    some (s, w, .log said, .finished final)
  | .log said => some (s, w, .done, .returned said)
  | .done => none

/-- A session with its surroundings and every call that was ever made on it. -/
structure Shared (η β σ : Type) where
  session : Session η β
  world : σ
  calls : List (Call η β) := []

/-- Whose turn it is. -/
inductive Turn (η β σ : Type) where
  | ask (r : Request η β)
  | go (i : Nat)
  /-- The surroundings are something else now. -/
  | world (w : σ)

namespace Shared

/-- One turn. A call that has returned, or was never made, does nothing. -/
def turn (S : Shared η β σ) : Turn η β σ → Shared η β σ × List (Happening η β)
  | .ask r => ({ S with calls := S.calls ++ [.asked r] }, [])
  | .go i =>
    match S.calls[i]? with
    | none => (S, [])
    | some c =>
      match c.move stop state S.session S.world with
      | none => (S, [])
      | some (session, world, c, h) => ({ session, world, calls := S.calls.set i c }, [h])
  | .world w => ({ S with world := w }, [])

def run : List (Turn η β σ) → Shared η β σ → Shared η β σ × List (Happening η β)
  | [], S => (S, [])
  | t :: ts, S =>
    let (S, es) := S.turn stop state t
    let (S, more) := run ts S
    (S, es ++ more)

def fresh (id : SessionId) (audible : Bool) (w : σ) : Shared η β σ where
  session := { id, audible }
  world := w

end Shared

end Runs

/-! ### What a history tells -/

namespace Happening

def attachment? : Happening η β → Option (Binary × η × Option β)
  | .attached binary server bridge => some (binary, server, bridge)
  | _ => none

def isMarked : Happening η β → Bool
  | .marked => true
  | _ => false

def stopped? : Happening η β → Option η
  | .stopCalled h => some h
  | _ => none

def final? : Happening η β → Option (Option Lifecycle)
  | .finished final => some final
  | _ => none

def isReturned : Happening η β → Bool
  | .returned _ => true
  | _ => false

/-- The events that were given out. -/
def given : Happening η β → List Event
  | .drained events => events
  | _ => []

/-- Whether nothing has come of a turn yet. -/
def isMute : Happening η β → Bool
  | .refused _ | .passed | .stopReturned _ | .looked _ => true
  | _ => false

end Happening

section History

variable (es : List (Happening η β))

def attachments : List (Binary × η × Option β) := es.filterMap Happening.attachment?

/-- The servers that were asked to stop, in order. -/
def stops : List η := es.filterMap Happening.stopped?

/-- The states noted by deactivations that were finished, in order. -/
def finals : List (Option Lifecycle) := es.filterMap Happening.final?

/-- How often the session was marked. -/
def marks : Nat := es.countP Happening.isMarked

/-- How many calls have marked the session and returned. -/
def returns : Nat := es.countP Happening.isReturned

/-- All events that were given out, in order. -/
def given : List Event := es.flatMap Happening.given

/-- The events there have been: of an attachment, and of a deactivation. -/
def eventsOf : List Event :=
  (attachments es).map (fun a => .serverAttached a.1) ++ (finals es).map .deactivated

end History

/-- A session holds what was attached to it, or nothing. -/
def Holds (s : Session η β) : List (Binary × η × Option β) → Prop
  | [] => s.binary = none ∧ s.server = none ∧ s.bridge = none
  | [(binary, server, bridge)] =>
    s.binary = some binary ∧ s.server = some server ∧ s.bridge = bridge
  | _ => False

/-! ### What calls have left to do -/

namespace Call

/-- The server a call has still to stop. -/
def owed : Call η β → List η
  | .stop h => [h]
  | _ => []

/-- Whether a call has marked the session and has not finished with it. -/
def isUnfinished : Call η β → Bool
  | .stop _ | .awaitStop _ | .look _ | .finish _ => true
  | _ => false

/-- Whether a call has marked the session and has not returned. -/
def isUnreturned : Call η β → Bool
  | .log _ => true
  | c => c.isUnfinished

/-- All that a call has left to do. -/
def rest (c : Call η β) : List η × Bool × Bool := (c.owed, c.isUnfinished, c.isUnreturned)

end Call

/-- The server that is to be stopped, from when the session is marked. -/
def due (s : Session η β) : List η := if s.phase = .deactivated then s.server.toList else []

/-- How a history fits where everything stands. What has been done and what is
left to do by the calls under way come to what one deactivation comes to. -/
structure Account (es : List (Happening η β)) (S : Shared η β σ) : Prop where
  holds : S.session.Holds (attachments es)
  marked : marks es = if S.session.phase = .deactivated then 1 else 0
  stopped : (stops es ++ S.calls.flatMap Call.owed).Perm S.session.due
  finished : (finals es).length + S.calls.countP Call.isUnfinished = marks es
  returned : returns es + S.calls.countP Call.isUnreturned = marks es
  events : given es ++ S.session.events = eventsOf es
  /-- Nothing is attached once the session is marked. -/
  late : es.Pairwise fun earlier later => earlier.isMarked = true → later.attachment? = none

/-! ### Histories, one happening at a time -/

section Concat

variable (es : List (Happening η β)) (h : Happening η β)

theorem attachments_concat :
    attachments (es ++ [h]) = attachments es ++ h.attachment?.toList := by
  rw [attachments, List.filterMap_append, List.filterMap_cons]
  cases h.attachment? <;> rfl

theorem stops_concat : stops (es ++ [h]) = stops es ++ h.stopped?.toList := by
  rw [stops, List.filterMap_append, List.filterMap_cons]
  cases h.stopped? <;> rfl

theorem finals_concat : finals (es ++ [h]) = finals es ++ h.final?.toList := by
  rw [finals, List.filterMap_append, List.filterMap_cons]
  cases h.final? <;> rfl

theorem marks_concat : marks (es ++ [h]) = marks es + h.isMarked.toNat := by
  rw [marks, List.countP_append, List.countP_singleton]
  cases h.isMarked <;> rfl

theorem returns_concat : returns (es ++ [h]) = returns es + h.isReturned.toNat := by
  rw [returns, List.countP_append, List.countP_singleton]
  cases h.isReturned <;> rfl

theorem given_concat : given (es ++ [h]) = given es ++ h.given := by
  rw [given, List.flatMap_append, List.flatMap_singleton]
  rfl

theorem attachments_append (more : List (Happening η β)) :
    attachments (es ++ more) = attachments es ++ attachments more := List.filterMap_append

variable {h}

/-! A happening that tells nothing of a thing leaves its history as it was. -/

theorem attachments_skip (hh : h.attachment? = none) :
    attachments (es ++ [h]) = attachments es := by
  rw [attachments_concat, hh, Option.toList_none, List.append_nil]

theorem stops_skip (hh : h.stopped? = none) : stops (es ++ [h]) = stops es := by
  rw [stops_concat, hh, Option.toList_none, List.append_nil]

theorem finals_skip (hh : h.final? = none) : finals (es ++ [h]) = finals es := by
  rw [finals_concat, hh, Option.toList_none, List.append_nil]

theorem marks_skip (hh : h.isMarked = false) : marks (es ++ [h]) = marks es := by
  rw [marks_concat, hh, Bool.toNat_false, Nat.add_zero]

theorem returns_skip (hh : h.isReturned = false) : returns (es ++ [h]) = returns es := by
  rw [returns_concat, hh, Bool.toNat_false, Nat.add_zero]

theorem given_skip (hh : h.given = []) : given (es ++ [h]) = given es := by
  rw [given_concat, hh, List.append_nil]

theorem eventsOf_skip (ha : h.attachment? = none) (hf : h.final? = none) :
    eventsOf (es ++ [h]) = eventsOf es := by
  rw [eventsOf, attachments_skip es ha, finals_skip es hf, eventsOf]

end Concat

/-! ### What the parts of a call do to a session -/

section Parts

variable {s s' : Session η β} {binary : Binary} {server : η} {bridge : Option β} {e : Error}

/-- What is attached to a session is all it holds, and is noted. -/
theorem attach_ok (h : s.attach binary (some server) bridge = .ok s') :
    s.phase ≠ .deactivated ∧ s.server = none ∧ s' = { s with
      binary := some binary, server := some server, bridge, phase := .active,
      events := s.events ++ [.serverAttached binary] } := by
  simp only [attach] at h
  split at h
  · cases h
  · next hp =>
      split at h
      · cases h
      · next hs =>
          refine ⟨hp, ?_, ?_⟩
          · simpa using hs
          · exact (Except.ok.inj h).symm

/-- Only an unmarked session is marked, and nothing else happens to it. -/
theorem beginDeactivation_some (h : s.beginDeactivation = some s') :
    s.phase ≠ .deactivated ∧ s' = { s with phase := .deactivated } := by
  simp only [beginDeactivation] at h
  split at h
  · cases h
  · next hp => exact ⟨hp, (Option.some.inj h).symm⟩

/-- What is held depends on three fields alone. -/
theorem Holds.congr {l : List (Binary × η × Option β)} (h : s.Holds l) (hb : s'.binary = s.binary)
    (hs : s'.server = s.server) (hr : s'.bridge = s.bridge) : s'.Holds l := by
  match l with
  | [] => exact ⟨hb.trans h.1, hs.trans h.2.1, hr.trans h.2.2⟩
  | [_] => exact ⟨hb.trans h.1, hs.trans h.2.1, hr.trans h.2.2⟩
  | _ :: _ :: _ => exact h.elim

/-- A session without a server holds nothing. -/
theorem Holds.eq_nil {l : List (Binary × η × Option β)} (h : s.Holds l) (hs : s.server = none) :
    l = [] := by
  match l with
  | [] => rfl
  | [_] => exact absurd (hs.symm.trans h.2.1) (by simp)
  | _ :: _ :: _ => exact h.elim

/-- A session holds what was attached to it, once at most. -/
theorem Holds.length_le {l : List (Binary × η × Option β)} (h : s.Holds l) : l.length ≤ 1 := by
  match l with
  | [] => exact Nat.zero_le 1
  | [_] => exact Nat.le_refl 1
  | _ :: _ :: _ => exact h.elim

end Parts

/-! ### No turn upsets the account -/

section Turns

variable {stop : η → σ → σ} {state : η → σ → Option Lifecycle} {es : List (Happening η β)}
variable {s s' : Session η β} {w w' : σ} {c c' : Call η β} {calls calls' : List (Call η β)}
variable {h : Happening η β}

/-- The order of the calls does not matter, nor do the surroundings. -/
theorem Account.perm (ha : Account es ⟨s, w, calls⟩) (hc : calls.Perm calls') :
    Account es ⟨s, w', calls'⟩ where
  holds := ha.holds
  marked := ha.marked
  stopped := ((hc.flatMap_right Call.owed).symm.append_left (stops es)).trans ha.stopped
  finished := by
    have h := ha.finished
    rwa [hc.countP_eq] at h
  returned := by
    have h := ha.returned
    rwa [hc.countP_eq] at h
  events := ha.events
  late := ha.late

/-- Before the session is marked nothing was stopped or finished. -/
theorem Account.unmarked (ha : Account es ⟨s, w, calls⟩) (hp : s.phase ≠ .deactivated) :
    marks es = 0 ∧ stops es = [] ∧ calls.flatMap Call.owed = [] ∧ finals es = [] ∧
      calls.countP Call.isUnfinished = 0 ∧ returns es = 0 ∧
      calls.countP Call.isUnreturned = 0 := by
  have hm := ha.marked
  have hs := ha.stopped
  have hf := ha.finished
  have hr := ha.returned
  rw [if_neg hp] at hm
  rw [due, if_neg hp, List.perm_nil, List.append_eq_nil_iff] at hs
  simp only [hm] at hf hr
  refine ⟨hm, hs.1, hs.2, ?_, ?_, ?_, ?_⟩
  · rw [← List.length_eq_zero_iff]
    omega
  · omega
  · omega
  · omega

/-- Nothing was attached after a mark, and nothing is now. -/
theorem Account.late_concat (ha : Account es ⟨s, w, calls⟩)
    (hh : s.phase = .deactivated → h.attachment? = none) :
    (es ++ [h]).Pairwise fun earlier later =>
      earlier.isMarked = true → later.attachment? = none := by
  rw [List.pairwise_append]
  refine ⟨ha.late, List.pairwise_singleton _ _, ?_⟩
  intro earlier he later hl hmark
  rw [List.mem_singleton.mp hl]
  apply hh
  by_contra hp
  have hnone : ¬ 0 < marks es := by rw [(ha.unmarked hp).1]; simp
  exact hnone (List.countP_pos_iff.mpr ⟨earlier, he, hmark⟩)

/-- A mute happening, of a call that has as much left to do as before. -/
theorem Account.idle (ha : Account es ⟨s, w, c :: calls⟩) (hc : c'.rest = c.rest)
    (hh : h.isMute = true) : Account (es ++ [h]) ⟨s, w', c' :: calls⟩ := by
  -- What the account says depends on the call only by what it still owes.
  obtain ⟨howed, hfin, hret⟩ : c'.owed = c.owed ∧ c'.isUnfinished = c.isUnfinished ∧
      c'.isUnreturned = c.isUnreturned := by
    simpa [Call.rest] using hc
  obtain ⟨h₁, h₂, h₃, h₄, h₅, h₆⟩ : h.attachment? = none ∧ h.isMarked = false ∧
      h.stopped? = none ∧ h.final? = none ∧ h.isReturned = false ∧ h.given = [] := by
    cases h <;> first | exact ⟨rfl, rfl, rfl, rfl, rfl, rfl⟩ | cases hh
  have hs := ha.stopped
  have hf := ha.finished
  have hr := ha.returned
  simp only [List.flatMap_cons, List.countP_cons] at hs hf hr
  exact {
    holds := by
      rw [attachments_skip es h₁]
      exact ha.holds
    marked := by
      rw [marks_skip es h₂]
      exact ha.marked
    stopped := by
      rw [stops_skip es h₃, List.flatMap_cons, howed]
      exact hs
    finished := by
      rw [finals_skip es h₄, marks_skip es h₂, List.countP_cons, hfin]
      exact hf
    returned := by
      rw [returns_skip es h₅, marks_skip es h₂, List.countP_cons, hret]
      exact hr
    events := by
      rw [given_skip es h₆, eventsOf_skip es h₁ h₄]
      exact ha.events
    late := ha.late_concat fun _ => h₁ }

/-- A server is attached. -/
theorem Account.attaching {binary : Binary} {server : η} {bridge : Option β} {r : Request η β}
    (ha : Account es ⟨s, w, .asked r :: calls⟩)
    (hs : s.attach binary (some server) bridge = .ok s') :
    Account (es ++ [.attached binary server bridge]) ⟨s', w, .done :: calls⟩ := by
  obtain ⟨hp, hnone, rfl⟩ := attach_ok hs
  obtain ⟨hmark, hstop, howed, hfin, hunf, hret, hunr⟩ := ha.unmarked hp
  have hnil := ha.holds.eq_nil hnone
  have hev : Session.given es ++ s.events = [] := by
    have hev := ha.events
    rwa [eventsOf, hnil, hfin] at hev
  exact {
    holds := by
      rw [attachments_concat, hnil]
      exact ⟨rfl, rfl, rfl⟩
    marked := by
      rw [marks_skip es rfl]
      exact hmark
    stopped := by
      rw [stops_skip es rfl, hstop]
      exact List.Perm.of_eq howed
    finished := by
      rw [finals_skip es rfl, hfin, marks_skip es rfl, hmark]
      exact (Nat.zero_add _).trans hunf
    returned := by
      rw [returns_skip es rfl, hret, marks_skip es rfl, hmark]
      exact (Nat.zero_add _).trans hunr
    events := by
      -- Nothing has happened yet, so this is the first event.
      rw [given_skip es rfl, ← List.append_assoc, hev, eventsOf, attachments_concat, hnil,
        finals_skip es rfl, hfin]
      rfl
    late := ha.late_concat fun he => absurd he hp }

/-- The session is marked; the server it has, if any, is to be stopped. -/
theorem Account.marking {r : Request η β} (ha : Account es ⟨s, w, .asked r :: calls⟩)
    (hs : s.beginDeactivation = some s') (howed : c'.owed = s.server.toList)
    (hunf : c'.isUnfinished = true) (hunr : c'.isUnreturned = true) :
    Account (es ++ [.marked]) ⟨s', w, c' :: calls⟩ := by
  -- Nothing was marked before, so nobody else can be at the deactivation.
  obtain ⟨hp, rfl⟩ := beginDeactivation_some hs
  obtain ⟨hmark, hstop, hnone, hfin, hzero, hret, hzero'⟩ := ha.unmarked hp
  have hzero : calls.countP Call.isUnfinished = 0 := hzero
  have hzero' : calls.countP Call.isUnreturned = 0 := hzero'
  have hnone : calls.flatMap Call.owed = [] := hnone
  exact {
    holds := by
      rw [attachments_skip es rfl]
      exact ha.holds.congr rfl rfl rfl
    marked := by
      rw [marks_concat, hmark]
      rfl
    stopped := by
      rw [stops_skip es rfl, hstop, List.flatMap_cons, hnone, howed, List.append_nil]
      exact List.Perm.refl _
    finished := by
      rw [finals_skip es rfl, hfin, marks_concat, hmark, List.countP_cons_of_pos hunf, hzero]
      rfl
    returned := by
      rw [returns_skip es rfl, hret, marks_concat, hmark, List.countP_cons_of_pos hunr, hzero']
      rfl
    events := by
      rw [given_skip es rfl, eventsOf_skip es rfl rfl]
      exact ha.events
    late := ha.late_concat fun _ => rfl }

/-- Events are given out, and are gone. -/
theorem Account.draining {r : Request η β} (ha : Account es ⟨s, w, .asked r :: calls⟩) :
    Account (es ++ [.drained s.drain.2]) ⟨s.drain.1, w, .done :: calls⟩ where
  holds := by
    rw [attachments_skip es rfl]
    exact ha.holds.congr rfl rfl rfl
  marked := by
    rw [marks_skip es rfl]
    exact ha.marked
  stopped := by
    rw [stops_skip es rfl]
    exact ha.stopped
  finished := by
    rw [finals_skip es rfl, marks_skip es rfl]
    exact ha.finished
  returned := by
    rw [returns_skip es rfl, marks_skip es rfl]
    exact ha.returned
  events := by
    rw [given_concat, eventsOf_skip es rfl rfl]
    exact (List.append_nil _).trans ha.events
  late := ha.late_concat fun _ => rfl

/-- The server is told to stop: what was owed is done. -/
theorem Account.stopping {server : η} (ha : Account es ⟨s, w, .stop server :: calls⟩) :
    Account (es ++ [.stopCalled server]) ⟨s, w, .awaitStop server :: calls⟩ where
  holds := by
    rw [attachments_skip es rfl]
    exact ha.holds
  marked := by
    rw [marks_skip es rfl]
    exact ha.marked
  stopped := by
    rw [stops_concat, List.append_assoc]
    exact ha.stopped
  finished := by
    rw [finals_skip es rfl, marks_skip es rfl]
    exact ha.finished
  returned := by
    rw [returns_skip es rfl, marks_skip es rfl]
    exact ha.returned
  events := by
    rw [given_skip es rfl, eventsOf_skip es rfl rfl]
    exact ha.events
  late := ha.late_concat fun _ => rfl

/-- The deactivation is finished, and noted behind everything else. -/
theorem Account.finishing {final : Option Lifecycle}
    (ha : Account es ⟨s, w, .finish final :: calls⟩) :
    Account (es ++ [.finished final])
      ⟨(s.endDeactivation final).1, w, .log (s.endDeactivation final).2 :: calls⟩ where
  holds := by
    rw [attachments_skip es rfl]
    exact ha.holds.congr rfl rfl rfl
  marked := by
    rw [marks_skip es rfl]
    exact ha.marked
  stopped := by
    rw [stops_skip es rfl]
    exact ha.stopped
  finished := by
    have hf := ha.finished
    rw [List.countP_cons_of_pos rfl] at hf
    rw [finals_concat, List.length_append, marks_skip es rfl]
    show (finals es).length + 1 + calls.countP Call.isUnfinished = marks es
    omega
  returned := by
    rw [returns_skip es rfl, marks_skip es rfl]
    exact ha.returned
  events := by
    rw [given_skip es rfl, eventsOf, attachments_skip es rfl, finals_concat, List.map_append,
      ← List.append_assoc, ← eventsOf, ← ha.events, List.append_assoc]
    rfl
  late := ha.late_concat fun _ => rfl

/-- The call that marked the session returns. -/
theorem Account.logging {said : List Report} (ha : Account es ⟨s, w, .log said :: calls⟩) :
    Account (es ++ [.returned said]) ⟨s, w, .done :: calls⟩ where
  holds := by
    rw [attachments_skip es rfl]
    exact ha.holds
  marked := by
    rw [marks_skip es rfl]
    exact ha.marked
  stopped := by
    rw [stops_skip es rfl]
    exact ha.stopped
  finished := by
    rw [finals_skip es rfl, marks_skip es rfl]
    exact ha.finished
  returned := by
    have hr := ha.returned
    rw [List.countP_cons_of_pos rfl] at hr
    rw [returns_concat, marks_skip es rfl]
    show returns es + 1 + calls.countP Call.isUnreturned = marks es
    omega
  events := by
    rw [given_skip es rfl, eventsOf_skip es rfl rfl]
    exact ha.events
  late := ha.late_concat fun _ => rfl

/-- **One call of many goes on**, and the account still fits. -/
theorem Account.move (ha : Account es ⟨s, w, c :: calls⟩)
    (hm : c.move stop state s w = some (s', w', c', h)) :
    Account (es ++ [h]) ⟨s', w', c' :: calls⟩ := by
  cases c with
  | asked r =>
      cases r with
      | attach binary server bridge =>
          simp only [Call.move] at hm
          split at hm
          -- An attach that comes in time is recorded, any other is refused.
          · next hs =>
              cases hm
              exact ha.attaching hs
          · cases hm
            exact ha.idle rfl rfl
      | deactivate =>
          simp only [Call.move] at hm
          split at hm
          · cases hm
            exact ha.idle rfl rfl
          -- The first to deactivate is marked; with a server it has to stop it.
          · next s₁ hs =>
              have hsame : s₁.server = s.server := by
                rw [(beginDeactivation_some hs).2]
              split at hm
              · next server hserver =>
                  cases hm
                  apply ha.marking hs _ rfl rfl
                  rw [← hsame, hserver]
                  rfl
              · next hserver =>
                  cases hm
                  apply ha.marking hs _ rfl rfl
                  rw [← hsame, hserver]
                  rfl
      | drain =>
          cases hm
          exact ha.draining
  | stop server =>
      cases hm
      exact ha.stopping
  | awaitStop server =>
      cases hm
      exact ha.idle rfl rfl
  | look server =>
      cases hm
      exact ha.idle rfl rfl
  | finish final =>
      cases hm
      exact ha.finishing
  | log said =>
      cases hm
      exact ha.logging
  | done => cases hm

/-- A call that was just made has done nothing and owes nothing. -/
theorem Account.ask (ha : Account es ⟨s, w, calls⟩) (r : Request η β) :
    Account es ⟨s, w, calls ++ [.asked r]⟩ := by
  have hnew : Account es ⟨s, w, .asked r :: calls⟩ := ⟨ha.holds, ha.marked, ha.stopped,
    ha.finished, ha.returned, ha.events, ha.late⟩
  apply hnew.perm
  exact (List.perm_append_singleton (.asked r) calls).symm

/-- **No turn upsets the account.** -/
theorem Account.turn {S : Shared η β σ} (ha : Account es S) (t : Turn η β σ) :
    Account (es ++ (S.turn stop state t).2) (S.turn stop state t).1 := by
  cases t with
  | ask r =>
      rw [Shared.turn, List.append_nil]
      exact ha.ask r
  | world w =>
      rw [Shared.turn, List.append_nil]
      exact ha.perm (List.Perm.refl _)
  | go i =>
      simp only [Shared.turn]
      split
      · rw [List.append_nil]
        exact ha
      · next c hc =>
          split
          · rw [List.append_nil]
            exact ha
          · next s' w' c' h hm =>
              -- Put the call that moves in front of the others, and put it back.
              obtain ⟨hi, rfl⟩ := List.getElem?_eq_some_iff.mp hc
              have hfront : Account es ⟨S.session, S.world, S.calls[i] :: S.calls.eraseIdx i⟩ :=
                ha.perm (List.getElem_cons_eraseIdx_perm hi).symm
              exact (hfront.move hm).perm (List.set_perm_cons_eraseIdx hi c').symm

/-- The account fits after every run, if it did before. -/
theorem Account.run {S : Shared η β σ} (ha : Account es S) (ts : List (Turn η β σ)) :
    Account (es ++ (S.run stop state ts).2) (S.run stop state ts).1 := by
  induction ts generalizing es S with
  | nil =>
      rw [Shared.run, List.append_nil]
      exact ha
  | cons t ts ih =>
      rw [Shared.run, ← List.append_assoc]
      exact ih (ha.turn t)

/-- It fits a new session that nobody has called. -/
theorem account_fresh (id : SessionId) (audible : Bool) (w : σ) :
    Account [] (Shared.fresh id audible w : Shared η β σ) where
  holds := ⟨rfl, rfl, rfl⟩
  marked := rfl
  stopped := List.Perm.refl _
  finished := rfl
  returned := rfl
  events := rfl
  late := List.Pairwise.nil

end Turns

/-! ### One call at a time -/

section Alone

variable (stop : η → σ → σ) (state : η → σ → Option Lifecycle)

/-- What calls that returned have said, in order. -/
def said (es : List (Happening η β)) : List Report :=
  es.flatMap fun
    | .returned said => said
    | _ => []

/-- **A call to deactivate that nobody comes between** is `Session.deactivate`. -/
theorem run_deactivate (s : Session η β) (w : σ) :
    let r := Shared.run stop state (.ask .deactivate :: List.replicate 6 (.go 0))
      { session := s, world := w }
    s.deactivate stop state w = (r.1.session, r.1.world, said r.2) := by
  intro r
  cases hb : s.beginDeactivation with
  | none =>
      simp [r, Session.deactivate, Shared.run, Shared.turn, Call.move, said, hb, List.replicate]
  | some s₁ =>
      cases hs : s₁.server with
      | none =>
          simp [r, Session.deactivate, Shared.run, Shared.turn, Call.move, said, hb, hs,
            List.replicate, serverState]
      | some h =>
          simp [r, Session.deactivate, Shared.run, Shared.turn, Call.move, said, hb, hs,
            List.replicate, serverState]

end Alone

/-! ### What the account comes to -/

section Settled

variable {stop : η → σ → σ} {state : η → σ → Option Lifecycle} {es : List (Happening η β)}
variable {S : Shared η β σ}

/-- At most one server is attached. -/
theorem Account.attachments_le (ha : Account es S) : (attachments es).length ≤ 1 :=
  ha.holds.length_le

/-- A session is marked as deactivated at most once. -/
theorem Account.marks_le (ha : Account es S) : marks es ≤ 1 := by
  rw [ha.marked]
  split
  · exact Nat.le_refl 1
  · exact Nat.zero_le 1

/-- What a session with a server holds, it holds in every continuation: there
is no room for another attachment in the history. -/
theorem Account.held (ha : Account es S) (hs : S.session.server.isSome = true)
    (more : List (Turn η β σ)) :
    (S.run stop state more).1.session.binary = S.session.binary ∧
      (S.run stop state more).1.session.server = S.session.server ∧
      (S.run stop state more).1.session.bridge = S.session.bridge := by
  -- There is at most one attachment, now and later.
  have hnow := ha.holds
  have hthen : Account (es ++ (S.run stop state more).2) (S.run stop state more).1 := ha.run more
  have hle := hthen.attachments_le
  have hthen := hthen.holds
  rw [attachments_append] at hle hthen
  cases hl : attachments es with
  | nil =>
      rw [hl] at hnow
      rw [hnow.2.1] at hs
      cases hs
  | cons a rest =>
      rw [hl, List.length_append, List.length_cons] at hle
      obtain rfl : rest = [] := List.length_eq_zero_iff.mp (by omega)
      have hmore : attachments (S.run stop state more).2 = [] :=
        List.length_eq_zero_iff.mp (by omega)
      rw [hl] at hnow
      rw [hl, hmore] at hthen
      exact ⟨hthen.1.trans hnow.1.symm, hthen.2.1.trans hnow.2.1.symm,
        hthen.2.2.trans hnow.2.2.symm⟩

/-- Nothing is attached behind a mark. -/
theorem Account.attachments_after (ha : Account es S) {before after : List (Happening η β)}
    (he : es = before ++ .marked :: after) : attachments after = [] := by
  have hlate := ha.late
  rw [he, List.pairwise_append, List.pairwise_cons] at hlate
  rw [attachments, List.filterMap_eq_nil_iff]
  intro later hl
  exact hlate.2.1.1 later hl rfl

/-- The server is stopped at most once. -/
theorem Account.stops_cases (ha : Account es S) :
    stops es = [] ∨ stops es = S.session.server.toList := by
  have hs := ha.stopped
  unfold due at hs
  split at hs
  · cases hserver : S.session.server with
    | none =>
        rw [hserver, Option.toList_none, List.perm_nil, List.append_eq_nil_iff] at hs
        exact Or.inl hs.1
    | some server =>
        rw [hserver, Option.toList_some, List.perm_singleton, List.append_eq_singleton_iff] at hs
        rcases hs with ⟨hs, _⟩ | ⟨hs, _⟩
        · exact Or.inl hs
        · exact Or.inr hs
  · rw [List.perm_nil, List.append_eq_nil_iff] at hs
    exact Or.inl hs.1

/-- Whoever owes a stop has not finished, and so has not returned. -/
theorem Call.isUnreturned_of_owed {c : Call η β} {server : η} (h : server ∈ c.owed) :
    c.isUnreturned = true := by
  cases c with
  | stop _ => rfl
  | _ => cases h

theorem Call.isUnreturned_of_unfinished {c : Call η β} (h : c.isUnfinished = true) :
    c.isUnreturned = true := by
  cases c with
  | log _ => rfl
  | _ => exact h

/-- Once the call that marked the session has returned, all is done. -/
theorem Account.settled (ha : Account es S) {said : List Report} (hm : .returned said ∈ es) :
    stops es = S.session.server.toList ∧ (finals es).length = 1 := by
  have hpos : 0 < returns es := List.countP_pos_iff.mpr ⟨_, hm, rfl⟩
  have hle := ha.marks_le
  have hr := ha.returned
  have hone : marks es = 1 := by omega
  -- One mark, one return: no call is left that has not returned.
  have hnone : S.calls.countP Call.isUnreturned = 0 := by omega
  rw [List.countP_eq_zero] at hnone
  constructor
  · have howed : S.calls.flatMap Call.owed = [] := by
      rw [List.flatMap_eq_nil_iff]
      intro c hc
      rw [List.eq_nil_iff_forall_not_mem]
      intro server hs
      exact hnone c hc (Call.isUnreturned_of_owed hs)
    have hp : S.session.phase = .deactivated := by
      have hmark := ha.marked
      by_contra hp
      rw [if_neg hp] at hmark
      omega
    have hs := ha.stopped
    rw [howed, List.append_nil, due, if_pos hp] at hs
    rcases ha.stops_cases with hnil | hall
    · rw [hnil, List.nil_perm] at hs
      rw [hnil, hs]
    · exact hall
  · have hunf : S.calls.countP Call.isUnfinished = 0 := by
      rw [List.countP_eq_zero]
      intro c hc hu
      exact hnone c hc (Call.isUnreturned_of_unfinished hu)
    have hf := ha.finished
    omega

/-- A refusal to attach changes nothing. -/
theorem refused_unchanged {i : Nat} {e : Error} (hr : (S.turn stop state (.go i)).2 = [.refused e]) :
    (S.turn stop state (.go i)).1.session = S.session ∧
      (S.turn stop state (.go i)).1.world = S.world := by
  simp only [Shared.turn] at hr ⊢
  split at hr
  · cases hr
  · next c _ =>
      split at hr
      · cases hr
      · next s w c' h hm =>
          rw [List.singleton_inj] at hr
          subst hr
          cases c with
          | asked r =>
              cases r with
              | attach binary server bridge =>
                  -- The refusal is of the session, which says so before it changes.
                  simp only [Call.move] at hm
                  split at hm <;> cases hm
                  simp_all
              | deactivate =>
                  simp only [Call.move] at hm
                  split at hm
                  · cases hm
                  · split at hm <;> cases hm
              | drain => cases hm
          | _ => cases hm

end Settled

/-! ### Owned once -/

/-- A server is attached and being stopped when another is offered, the events
are drained, and somebody else deactivates. Whether a server runs is the
surroundings' to say; the servers are numbers. -/
def crossingTurns : List (Turn Nat Unit Lifecycle) :=
  [.ask (.attach { path := "/server", platform := ⟨"linux", "x64"⟩ } 1 none), .go 0,
    .ask .deactivate, .go 1, .go 1,
    .ask (.attach { path := "/other", platform := ⟨"linux", "x64"⟩ } 2 none), .go 2,
    .ask .drain, .go 3, .ask .deactivate, .go 4, .world .failed, .go 1, .go 1, .go 1, .go 1]

/-- What comes of it. -/
def crossing : Shared Nat Unit Lifecycle × List (Happening Nat Unit) :=
  (Shared.fresh ⟨⟨[]⟩⟩ true .running).run (fun _ _ => .stopped) (fun _ w => some w) crossingTurns

/-- **A session is owned once**, whatever calls are made on it and however they
take turns. At most one server is ever attached to it, with a binary and a
bridge, and what it holds then it holds in every continuation. Nothing is
attached once a call has marked it. All calls to deactivate it together stop a
server at most once; when the one that marked it has returned, they have stopped
the one that is attached, if there is one. A refusal to attach changes nothing.
The events that were given out, and then those that were not, are that of the
attachment and that of the deactivation, each once if there was one. -/
theorem session_owned_once {stop : η → σ → σ} {state : η → σ → Option Lifecycle} {id : SessionId}
    {audible : Bool} {w : σ} {ts : List (Turn η β σ)} {S : Shared η β σ}
    {es : List (Happening η β)} (hr : (Shared.fresh id audible w).run stop state ts = (S, es)) :
    (attachments es).length ≤ 1 ∧ S.session.Holds (attachments es) ∧
    (S.session.server.isSome = true → ∀ more,
      let s := (S.run stop state more).1.session
      s.binary = S.session.binary ∧ s.server = S.session.server ∧ s.bridge = S.session.bridge) ∧
    (∀ before after, es = before ++ .marked :: after → attachments after = []) ∧
    (stops es = [] ∨ stops es = S.session.server.toList) ∧
    (∀ said, .returned said ∈ es →
      stops es = S.session.server.toList ∧ (finals es).length = 1) ∧
    (∀ i e, (S.turn stop state (.go i)).2 = [.refused e] →
      (S.turn stop state (.go i)).1.session = S.session ∧
        (S.turn stop state (.go i)).1.world = S.world) ∧
    given es ++ S.session.events =
      (attachments es).map (fun a => .serverAttached a.1) ++ (finals es).map .deactivated ∧
    (finals es).length ≤ 1 := by
  have ha : Account es S := by
    have ha := @Account.run η β σ stop state [] _ (account_fresh id audible w) ts
    rwa [List.nil_append, hr] at ha
  have hfinals : (finals es).length ≤ 1 := by
    have hf := ha.finished
    have hle := ha.marks_le
    omega
  exact ⟨ha.attachments_le, ha.holds, ha.held, fun _ _ => ha.attachments_after, ha.stops_cases,
    fun _ => ha.settled, fun _ _ => refused_unchanged, ha.events, hfinals⟩

/-- In the run that crosses, the first server is attached, stopped once and
noted; the offer of the second is refused. -/
theorem crossing_owned_once :
    attachments crossing.2 = [({ path := "/server", platform := ⟨"linux", "x64"⟩ }, 1, none)] ∧
      stops crossing.2 = [1] ∧
      given crossing.2 ++ crossing.1.session.events =
        [.serverAttached { path := "/server", platform := ⟨"linux", "x64"⟩ },
          .deactivated (some .stopped)] := by
  obtain ⟨_, _, _, _, _, hsettled, _, hevents, _⟩ := session_owned_once (Prod.eta crossing).symm
  have hreturned : 0 < returns crossing.2 := by decide
  obtain ⟨h, hm, hh⟩ := List.countP_pos_iff.mp hreturned
  cases h with
  | returned said => exact ⟨rfl, (hsettled said hm).1.trans rfl, hevents.trans rfl⟩
  | _ => cases hh

end LanguageClient.Session
