import LanguageClient.Proofs.Supervisor.Conversation
import LanguageClient.Proofs.Supervisor.Turn

/-! # The order of a conversation with a server.

`InOrder` says what is said when: the greeting first, the acknowledgement once the
greeting was granted, everything else behind the acknowledgement, and the farewell
only once the shutdown was granted.

The order is not enforced in one place. It follows from where the threads stand:
`Task.Spoke` says what has been said, and what has not, as long as a thread stands at
its point. `Tells` is what the other threads learn of a step. -/

namespace LanguageClient.Supervisor

open Rpc (Outgoing Refusal Sends)

/-! ### Order -/

/-- The server has been told that it may be used. -/
def Acknowledged (lines : List Line) : Prop :=
  .said .acknowledgement (Frame.encode acknowledgementBody) ∈ lines

/-- What must have been said before a message is. -/
def Earned (before : List Line) : Purpose → Prop
  | .greeting => purposes before = []
  | .acknowledgement => Granted before .greeting
  | .shutdown | .passed _ _ => Acknowledged before
  | .exit => Granted before .shutdown

/-- Whether a message is one that callers can send again and again. -/
def Purpose.isPassed : Purpose → Bool
  | .passed _ _ => true
  | _ => false

structure InOrder (g : Settings) (lines : List Line) : Prop where
  /-- What is written for a purpose is the message for it, or the beginning of that. -/
  written : ∀ purpose frame, .said purpose frame ∈ lines →
    ∃ body, purpose.Body g body ∧ Frame.Written body frame
  refused : ∀ frame, .refused frame ∈ lines → Refusal frame
  begins : purposes lines = [] ∨ ∃ rest, purposes lines = .greeting :: rest
  once : ∀ purpose, purpose.isPassed = false → (purposes lines).count purpose ≤ 1
  earned : ∀ before purpose frame after, lines = before ++ .said purpose frame :: after →
    Earned before purpose

theorem Acknowledged.append {lines : List Line} (h : Acknowledged lines) (more : List Line) :
    Acknowledged (lines ++ more) := List.mem_append_left more h

theorem inOrder_initial (g : Settings) : InOrder g [] where
  written := by simp
  refused := by simp
  begins := Or.inl rfl
  once := by simp
  earned := by simp

/-- What stands in a list stands at the front if nothing like it comes behind. -/
theorem eq_append_cons_of_notMem {α : Type} {front back before after : List α} {a : α}
    (h : front ++ back = before ++ a :: after) (ha : a ∉ back) :
    ∃ after', front = before ++ a :: after' := by
  rcases List.append_eq_append_iff.mp h with ⟨l, hbefore, hback⟩ | ⟨l, hfront, hafter⟩
  · exact absurd (hback ▸ List.mem_append_right l List.mem_cons_self) ha
  · cases l with
    | nil =>
        have hback : back = a :: after := by simpa using hafter.symm
        exact absurd (hback ▸ List.mem_cons_self) ha
    | cons b l =>
        obtain ⟨rfl, -⟩ := List.cons.inj hafter
        exact ⟨l, hfront⟩

section Order

variable {g : Settings} {lines : List Line}

/-- Silence keeps the order. -/
theorem InOrder.silent (h : InOrder g lines) {more : List Line} (hp : purposes more = [])
    (hr : ∀ frame, .refused frame ∈ more → Refusal frame) : InOrder g (lines ++ more) := by
  have hnone : ∀ purpose frame, .said purpose frame ∉ more := by
    intro purpose frame hm
    have := mem_purposes.mpr ⟨frame, hm⟩
    rw [hp] at this
    cases this
  refine ⟨?_, ?_, ?_, ?_, ?_⟩
  · intro purpose frame hm
    exact h.written purpose frame ((List.mem_append.mp hm).resolve_right (hnone purpose frame))
  · intro frame hm
    exact (List.mem_append.mp hm).elim (h.refused frame) (hr frame)
  · rw [purposes_append, hp, List.append_nil]
    exact h.begins
  · rw [purposes_append, hp, List.append_nil]
    exact h.once
  · intro before purpose frame after hsplit
    obtain ⟨after', hlines⟩ := eq_append_cons_of_notMem hsplit (hnone purpose frame)
    exact h.earned before purpose frame after' hlines

/-- Whatever was said, the greeting was. -/
theorem InOrder.greeting_mem (h : InOrder g lines) {purpose : Purpose} (hm : purpose ∈ purposes lines) :
    .greeting ∈ purposes lines := by
  rcases h.begins with hnil | ⟨rest, hrest⟩
  · rw [hnil] at hm
    cases hm
  · rw [hrest]
    exact List.mem_cons_self

/-- Nothing but the greeting is earned before anything was said. -/
theorem eq_greeting_of_earned {purpose : Purpose} (he : Earned lines purpose)
    (hnil : purposes lines = []) : purpose = .greeting := by
  have hmem {q : Purpose} (hm : q ∈ purposes lines) : False := by
    rw [hnil] at hm
    cases hm
  cases purpose with
  | greeting => rfl
  | acknowledgement => exact (hmem (Granted.mem_purposes he)).elim
  | shutdown => exact (hmem (mem_purposes.mpr ⟨_, he⟩)).elim
  | exit => exact (hmem (Granted.mem_purposes he)).elim
  | passed method params => exact (hmem (mem_purposes.mpr ⟨_, he⟩)).elim

/-- **Saying what is earned keeps the order.** -/
theorem InOrder.say (h : InOrder g lines) {purpose : Purpose} {body frame : Bytes}
    (he : Earned lines purpose) (hnew : purpose.isPassed = true ∨ purpose ∉ purposes lines)
    (hb : purpose.Body g body) (hw : Frame.Written body frame) :
    InOrder g (lines ++ [.said purpose frame]) := by
  have hpurposes : purposes (lines ++ [.said purpose frame]) = purposes lines ++ [purpose] :=
    purposes_append _ _
  refine ⟨?_, ?_, ?_, ?_, ?_⟩
  · intro purpose' frame' hm
    rcases List.mem_append.mp hm with hm | hm
    · exact h.written purpose' frame' hm
    · obtain ⟨rfl, rfl⟩ := Line.said.inj (List.mem_singleton.mp hm)
      exact ⟨body, hb, hw⟩
  · intro frame' hm
    rcases List.mem_append.mp hm with hm | hm
    · exact h.refused frame' hm
    · cases List.mem_singleton.mp hm
  · rw [hpurposes]
    -- The first line can only be the greeting: all others have to be earned.
    rcases h.begins with hnil | ⟨rest, hrest⟩
    · rw [eq_greeting_of_earned he hnil, hnil]
      exact Or.inr ⟨[], rfl⟩
    · rw [hrest]
      exact Or.inr ⟨rest ++ [purpose], rfl⟩
  · intro purpose' hp
    rw [hpurposes, List.count_append]
    -- Everything but what is passed on is said once.
    by_cases hsame : purpose = purpose'
    · subst hsame
      have hzero := List.count_eq_zero.mpr (hnew.resolve_left (by rw [hp]; simp))
      rw [hzero]
      simp
    · have hzero : [purpose].count purpose' = 0 := by
        rw [List.count_eq_zero, List.mem_singleton]
        exact Ne.symm hsame
      rw [hzero, Nat.add_zero]
      exact h.once purpose' hp
  · intro before purpose' frame' after hsplit
    rcases Rpc.concat_eq_append_cons hsplit with ⟨rfl, hlast⟩ | ⟨after', hlines⟩
    · obtain ⟨rfl, rfl⟩ := Line.said.inj hlast
      exact he
    · exact h.earned before purpose' frame' after' hlines

end Order

/-! ### What has been said where threads stand -/

/-- What has been said where a shutdown stands. -/
def ShutdownPoint.Spoke (lines : List Line) : ShutdownPoint → Prop
  | .request => .shutdown ∉ purposes lines ∧ .exit ∉ purposes lines
  | .awaitResponse id => id ≠ 1 ∧ .exit ∉ purposes lines
  | .exit => Granted lines .shutdown ∧ .exit ∉ purposes lines
  | _ => True

/-- What has been said where a call to start the server stands. Until it makes the
connection known, nobody else can say anything. -/
def StartPoint.Spoke (lines : List Line) (s : State) : StartPoint → Prop
  | .announceStarting _ | .checkBinary | .spawn => s.attached = false ∧ s.connection = none
  | .greet => s.attached = false ∧ purposes lines = [] ∧ ∀ c, s.connection = some c → c.issued = 0
  | .awaitGreeting id => s.attached = false ∧ purposes lines = [.greeting] ∧ id = 1
  | .acknowledge _ => s.attached = false ∧ purposes lines = [.greeting] ∧ Granted lines .greeting
  | .publish _ =>
    s.attached = false ∧ purposes lines = [.greeting, .acknowledgement] ∧ Acknowledged lines
  | .shutdown q => s.attached = true ∧ q.Spoke lines
  | _ => True

/-- What has been said where a thread stands. -/
def Task.Spoke (lines : List Line) (s : State) : Task → Prop
  | .start _ p => p.Spoke lines s
  | .stop (.shutdown q) => q.Spoke lines
  | .notify _ _ .send => s.attached = true
  | _ => True

/-! ### What the others hear of a step -/

/-- What a step of a thread at a task says, and what it changes for the others. -/
structure Tells (g : Settings) (lines new : List Line) (t : Task) (s s' : State) : Prop where
  traced : Traced (lines ++ new) s'
  ordered : InOrder g (lines ++ new)
  purposed : ∀ q ∈ purposes new, t.purpose? = some q
  attached : s'.attached = s.attached ∨ t.isStarter = true ∧ s'.attached = true ∧ Acknowledged lines
  running : s'.lifecycle = .running →
    s.lifecycle = .running ∨ s'.attached = true ∧ .shutdown ∉ purposes (lines ++ new)
  connected : t.isStarter = false → (s'.connection = none ↔ s.connection = none)
  issued : t.isStarter = false → t.purpose? ≠ some .shutdown →
    ∀ c', s'.connection = some c' → ∃ c, s.connection = some c ∧ c'.issued = c.issued

theorem mem_purposes_written {purpose : Option Purpose} {es : List Effect} {q : Purpose}
    (h : q ∈ purposes (written purpose es)) : purpose = some q := by
  obtain ⟨frame, hm⟩ := mem_purposes.mp h
  obtain ⟨frame', -, he⟩ := List.mem_map.mp hm
  cases purpose with
  | none => cases he
  | some purpose => rw [(Line.said.inj he).1]

theorem isStarter_of_greeting {t : Task} (h : t.purpose? = some .greeting) : t.isStarter = true := by
  have hshutdown (q : ShutdownPoint) : q.purpose? ≠ some .greeting := by
    cases q <;> simp [ShutdownPoint.purpose?]
  unfold Task.purpose? at h
  split at h
  · rfl
  · cases h
  · rfl
  · exact absurd h (hshutdown _)
  · cases h
  · cases h

section Steps

variable {g : Settings} {lines heard : List Line} {t : Task} {s s' : State} {es : List Effect}

theorem Listens.silent (h : Listens lines heard s (s', es)) :
    purposes (heard ++ written none es) = [] := by
  rw [purposes_append, purposes_received h.received, purposes_written_none]
  rfl

/-- Who listens says nothing. -/
theorem Listens.tells_of (h : Listens lines heard s (s', es)) (ho : InOrder g lines)
    (ha : s'.attached = s.attached ∨ t.isStarter = true ∧ s'.attached = true ∧ Acknowledged lines)
    (hr : s'.lifecycle = .running →
      s.lifecycle = .running ∨ s'.attached = true ∧ .shutdown ∉ purposes lines) :
    Tells g lines (heard ++ written none es) t s s' := by
  refine ⟨?_, ho.silent h.silent ?_, ?_, ha, ?_, fun _ => h.connected, fun _ _ => h.issued⟩
  · rw [← List.append_assoc]
    exact h.traced
  · intro frame hm
    rcases List.mem_append.mp hm with hm | hm
    · obtain ⟨bytes, hline⟩ := h.received _ hm
      cases hline
    · obtain ⟨frame', hframe, hline⟩ := List.mem_map.mp hm
      obtain rfl := Line.refused.inj hline
      exact h.refused frame' hframe
  · rw [h.silent]
    simp
  · rw [purposes_append, h.silent, List.append_nil]
    exact hr

/-- The same where nothing changes by which the others decide what to say. -/
theorem Listens.tells (h : Listens lines heard s (s', es)) (ho : InOrder g lines)
    (ha : s'.attached = s.attached) (hr : s'.lifecycle = .running → s.lifecycle = .running) :
    Tells g lines (heard ++ written none es) t s s' :=
  h.tells_of ho (Or.inl ha) fun hl => Or.inl (hr hl)

/-- Who speaks says what is earned there. -/
theorem Speaks.tells {purpose : Purpose} {done : Bool} (h : Speaks g lines purpose s done (s', es))
    (hp : t.purpose? = some purpose) (ho : InOrder g lines) (he : Earned lines purpose)
    (hnew : purpose.isPassed = true ∨ purpose ∉ purposes lines)
    (ha : s'.attached = s.attached) (hl : s'.lifecycle = s.lifecycle)
    (hi : purpose ≠ .shutdown → purpose ≠ .greeting → ∀ c', s'.connection = some c' →
      ∃ c, s.connection = some c ∧ c'.issued = c.issued) :
    Tells g lines (written (some purpose) es) t s s' where
  traced := h.traced
  ordered := by
    rcases written_of_sends purpose h.sends with ⟨-, hnone⟩ | ⟨body, frame, hline, hb, hw, -⟩
    · rw [hnone, List.append_nil]
      exact ho
    · rw [hline]
      exact ho.say he hnew hb hw
  purposed := fun q hq => hp.trans (mem_purposes_written hq)
  attached := Or.inl ha
  running := fun hr => Or.inl (hl ▸ hr)
  connected := fun _ => h.connected
  issued := fun hstart hne => hi (fun hs => hne (hs ▸ hp)) fun hg => by
    rw [hg] at hp
    rw [isStarter_of_greeting hp] at hstart
    cases hstart

end Steps

end LanguageClient.Supervisor
