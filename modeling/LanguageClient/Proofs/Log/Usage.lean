import LanguageClient.Log.Channel

/-! # A channel in use.

Many callers append to a channel, others follow it, and none of them waits for
the others, except for the channel itself, which one caller at a time holds.
`Usage` is a channel with its callers, and with all that was seen of it; a
`Move` is what one of them does in one go, and `play?` makes moves in any order.

To append a line is a call of several moves: it begins with a look at the clock;
it takes hold of the channel and adds the line; it passes the line on to one
subscription after the other, in any order; it lets go of the channel; and at
last it writes. What a move needs and what it leads to is said once more in
`Step`, move by move, and what is proved of a run is proved with it. -/

namespace LanguageClient.Log

inductive Stage where
  | begun
  | holding
  /-- It has let go of the channel, and has not written yet. -/
  | recorded
  | returned
  deriving DecidableEq, Repr

structure Call where
  line : Line
  stage : Stage := .begun
  /-- The calls that had returned when it began. -/
  earlier : List Nat := []
  deriving DecidableEq, Repr

structure Holder where
  call : Nat
  line : Line
  /-- The subscriptions that the line is still to be passed on to. -/
  due : List Nat
  /-- It has sent to a subscription that was closed. It never lets go of the
  channel. -/
  failed : Bool := false

/-- A line that a call has added to the history. -/
structure Recording where
  call : Nat
  line : Line
  deriving DecidableEq, Repr

/-- What a call has put out. -/
structure Writing where
  call : Nat
  line : Line
  output : List Output
  deriving DecidableEq, Repr

/-- A line that was passed on to a subscription. -/
structure Offer where
  line : Line
  /-- How many lines waited there already. -/
  waiting : Nat

/-- What was seen of a subscription. -/
structure Membership where
  /-- How many lines had been recorded when it began. -/
  since : Nat
  /-- How many had been when it was no longer listed. -/
  upTo : Option Nat := none
  offers : List Offer := []
  received : List Line := []

/-- A channel, those who use it, and what was seen of it. -/
structure Usage where
  channel : Channel
  clock : Time
  calls : List Call := []
  holder : Option Holder := none
  recorded : List Recording := []
  written : List Writing := []
  /-- What was seen of each subscription, under its number. -/
  memberships : List Membership := []

/-- What can happen in one go. -/
inductive Move where
  /-- The clock moves by so many milliseconds. -/
  | tick (ms : Int)
  /-- The console takes what is written in another way from now on. -/
  | console (how : Console)
  /-- So does the log file, if there is one. -/
  | file (how : LogFile)
  /-- A call begins. -/
  | call (text : String)
  /-- A call takes hold of the channel. -/
  | enter (call : Nat)
  /-- The call that holds the channel passes its line on to a subscription. -/
  | offer (subscription : Nat)
  /-- The call that holds the channel lets go. -/
  | leave
  /-- A call writes and returns. -/
  | write (call : Nat)
  | subscribe (capacity : Int)
  | unlist (subscription : Nat)
  | close (subscription : Nat)
  | receive (subscription : Nat)

namespace Membership

/-- The lines that found room, if so many can wait. -/
def taken (capacity : Nat) (m : Membership) : List Line :=
  (m.offers.filter (·.waiting < capacity)).map (·.line)

/-- The lines that were recorded while the subscription was listed. -/
def window (appended : List Line) (m : Membership) : List Line :=
  (appended.take (m.upTo.getD appended.length)).drop m.since

end Membership

namespace Usage

/-- A channel that nobody has used yet. -/
def start (channel : Channel) (clock : Time) : Usage := { channel, clock }

/-- The lines that were appended, in the order in which they were recorded. -/
def appended (u : Usage) : List Line := u.recorded.map (·.line)

def outputs (u : Usage) : List Output := u.written.flatMap (·.output)

def finished (u : Usage) : List Nat :=
  (List.range u.calls.length).filter fun i => u.calls[i]?.any (·.stage = .returned)

def become (i : Nat) (stage : Stage) (u : Usage) : Usage :=
  { u with calls := u.calls.modify i fun c => { c with stage } }

def note (f : Membership → Membership) (k : Nat) (u : Usage) : Usage :=
  { u with memberships := u.memberships.modify k f }

/-- A call has looked at the clock. -/
def begin (text : String) (u : Usage) : Usage :=
  { u with calls := u.calls ++ [{ line := ⟨u.clock, text⟩, earlier := u.finished }] }

/-- A call has taken hold of the channel and added its line. -/
def enter (i : Nat) (line : Line) (u : Usage) : Usage :=
  { u with
    channel := u.channel.remember line
    holder := some { call := i, line, due := u.channel.listed }
    recorded := u.recorded ++ [{ call := i, line }] : Usage }.become i .holding

/-- A line was passed on to a subscription, and the channel is `c` from then on. -/
def offer (h : Holder) (k : Nat) (s : Subscription) (c : Channel) (u : Usage) : Usage :=
  { u with
    channel := c
    holder := some { h with due := h.due.filter (· ≠ k) } : Usage }.note
      (fun m => { m with offers := m.offers ++ [{ line := h.line, waiting := s.waiting.length }] }) k

/-- A call has sent to a subscription that was closed. It returns, but the
channel stays held. -/
def fail (h : Holder) (u : Usage) : Usage :=
  { u with holder := some { h with failed := true } : Usage }.become h.call .returned

/-- A call has let go of the channel. -/
def leave (h : Holder) (u : Usage) : Usage := { u with holder := none : Usage }.become h.call .recorded

/-- A call has written its line. -/
def write (i : Nat) (line : Line) (u : Usage) : Usage :=
  { u with written := u.written ++ [{ call := i, line, output := u.channel.write line }] : Usage }.become i .returned

/-- What a move leads to; `none` if it cannot be made. -/
def step? (u : Usage) : Move → Option Usage
  | .tick ms => some { u with clock := ⟨u.clock.ms + ms⟩ }
  | .console how => some { u with channel := { u.channel with console := how } }
  | .file how => some { u with channel := { u.channel with file := u.channel.file.map fun _ => how } }
  | .call text => some (u.begin text)
  | .enter i =>
    u.calls[i]?.bind fun call =>
      if u.holder.isNone ∧ call.stage = .begun then some (u.enter i call.line) else none
  | .offer k =>
    u.holder.bind fun h => u.channel.subscriptions[k]?.bind fun s =>
      if k ∈ h.due ∧ h.failed = false then
        match u.channel.pass? h.line k with
        | some c => some (u.offer h k s c)
        | none => some (u.fail h)
      else none
  | .leave => u.holder.bind fun h => if h.due = [] ∧ h.failed = false then some (u.leave h) else none
  | .write i =>
    u.calls[i]?.bind fun call => if call.stage = .recorded then some (u.write i call.line) else none
  | .subscribe capacity =>
    if u.holder.isNone then
      some { u with
        channel := u.channel.subscribe capacity
        memberships := u.memberships ++ [{ since := u.recorded.length }] }
    else none
  | .unlist k =>
    u.channel.subscriptions[k]?.bind fun s =>
      if u.holder.isNone ∧ s.isListed then
        some ({ u with channel := u.channel.unlist k : Usage }.note
          (fun m => { m with upTo := some u.recorded.length }) k)
      else none
  | .close k =>
    u.channel.subscriptions[k]?.bind fun s =>
      if s.isListed = false ∧ s.isOpen then some { u with channel := u.channel.close k } else none
  | .receive k =>
    (u.channel.receive? k).map fun (c, line) =>
      { u with channel := c : Usage }.note (fun m => { m with received := m.received ++ [line] }) k

def play? : List Move → Usage → Option Usage
  | [], u => some u
  | m :: ms, u => (u.step? m).bind (play? ms)

/-! ### What a move needs, and what it leads to -/

inductive Step (u : Usage) : Move → Usage → Prop
  | tick (ms : Int) : Step u (.tick ms) { u with clock := ⟨u.clock.ms + ms⟩ }
  | console (how : Console) :
      Step u (.console how) { u with channel := { u.channel with console := how } }
  | file (how : LogFile) :
      Step u (.file how) { u with channel := { u.channel with file := u.channel.file.map fun _ => how } }
  | call (text : String) : Step u (.call text) (u.begin text)
  | enter {i : Nat} {call : Call} (hc : u.calls[i]? = some call) (hb : call.stage = .begun)
      (hh : u.holder = none) : Step u (.enter i) (u.enter i call.line)
  | offer {k : Nat} {h : Holder} {s s' : Subscription} (hh : u.holder = some h) (hk : k ∈ h.due)
      (hf : h.failed = false) (hs : u.channel.subscriptions[k]? = some s)
      (hsend : s.send? h.line = some s') :
      Step u (.offer k) (u.offer h k s (u.channel.updateSubscription (fun _ => s') k))
  | fail {k : Nat} {h : Holder} {s : Subscription} (hh : u.holder = some h) (hk : k ∈ h.due)
      (hf : h.failed = false) (hs : u.channel.subscriptions[k]? = some s)
      (hsend : s.send? h.line = none) :
      Step u (.offer k) (u.fail h)
  | leave {h : Holder} (hh : u.holder = some h) (hd : h.due = []) (hf : h.failed = false) :
      Step u .leave (u.leave h)
  | write {i : Nat} {call : Call} (hc : u.calls[i]? = some call) (hr : call.stage = .recorded) :
      Step u (.write i) (u.write i call.line)
  | subscribe (capacity : Int) (hh : u.holder = none) :
      Step u (.subscribe capacity)
        { u with
          channel := u.channel.subscribe capacity
          memberships := u.memberships ++ [{ since := u.recorded.length }] }
  | unlist {k : Nat} {s : Subscription} (hs : u.channel.subscriptions[k]? = some s)
      (hl : s.isListed = true) (hh : u.holder = none) :
      Step u (.unlist k) ({ u with channel := u.channel.unlist k : Usage }.note
        (fun m => { m with upTo := some u.recorded.length }) k)
  | close {k : Nat} {s : Subscription} (hs : u.channel.subscriptions[k]? = some s)
      (hl : s.isListed = false) (ho : s.isOpen = true) :
      Step u (.close k) { u with channel := u.channel.close k }
  | receive {k : Nat} {s : Subscription} {line : Line} {rest : List Line}
      (hs : u.channel.subscriptions[k]? = some s) (hw : s.waiting = line :: rest) :
      Step u (.receive k)
        ({ u with
          channel := u.channel.updateSubscription (fun s => { s with waiting := rest }) k : Usage }.note
            (fun m => { m with received := m.received ++ [line] }) k)

variable {u v : Usage} {m : Move} {moves : List Move}

/-- `step?` makes a move exactly as `Step` says. -/
theorem step?_eq_some : u.step? m = some v ↔ Step u m v := by
  constructor
  -- Each move tells what it needs and what it leads to.
  · intro h
    cases m with
    | tick ms => cases h; exact .tick ms
    | console how => cases h; exact .console how
    | file how => cases h; exact .file how
    | call text => cases h; exact .call text
    | enter i =>
      obtain ⟨call, hc, h⟩ := Option.bind_eq_some_iff.mp h
      obtain ⟨⟨hh, hb⟩, h⟩ := Option.ite_none_right_eq_some.mp h
      cases h
      exact .enter hc hb (Option.isNone_iff_eq_none.mp hh)
    | offer k =>
      obtain ⟨holder, hh, h⟩ := Option.bind_eq_some_iff.mp h
      obtain ⟨s, hs, h⟩ := Option.bind_eq_some_iff.mp h
      obtain ⟨⟨hk, hf⟩, h⟩ := Option.ite_none_right_eq_some.mp h
      cases hsend : s.send? holder.line with
      | none =>
        simp only [Channel.pass?, hs, hsend, Option.bind_some, Option.map_none] at h
        cases h
        exact .fail hh hk hf hs hsend
      -- The line is passed on, which can fail only for a closed subscription.
      | some s' =>
        simp only [Channel.pass?, hs, hsend, Option.bind_some, Option.map_some] at h
        cases h
        exact .offer hh hk hf hs hsend
    | leave =>
      obtain ⟨holder, hh, h⟩ := Option.bind_eq_some_iff.mp h
      obtain ⟨⟨hd, hf⟩, h⟩ := Option.ite_none_right_eq_some.mp h
      cases h
      exact .leave hh hd hf
    | write i =>
      obtain ⟨call, hc, h⟩ := Option.bind_eq_some_iff.mp h
      obtain ⟨hr, h⟩ := Option.ite_none_right_eq_some.mp h
      cases h
      exact .write hc hr
    | subscribe capacity =>
      obtain ⟨hh, h⟩ := Option.ite_none_right_eq_some.mp h
      cases h
      exact .subscribe capacity (Option.isNone_iff_eq_none.mp hh)
    | unlist k =>
      obtain ⟨s, hs, h⟩ := Option.bind_eq_some_iff.mp h
      obtain ⟨⟨hh, hl⟩, h⟩ := Option.ite_none_right_eq_some.mp h
      cases h
      exact .unlist hs hl (Option.isNone_iff_eq_none.mp hh)
    | close k =>
      obtain ⟨s, hs, h⟩ := Option.bind_eq_some_iff.mp h
      obtain ⟨⟨hl, ho⟩, h⟩ := Option.ite_none_right_eq_some.mp h
      cases h
      exact .close hs hl ho
    | receive k =>
      obtain ⟨⟨c, line⟩, hr, rfl⟩ := Option.map_eq_some_iff.mp h
      obtain ⟨s, hs, hr⟩ := Option.bind_eq_some_iff.mp hr
      split at hr
      next => cases hr
      next hw => cases hr; exact .receive hs hw
  · intro h
    cases h with
    | fail hh hk hf hs hsend => simp [step?, Channel.pass?, hh, hk, hf, hs, hsend]
    | offer hh hk hf hs hsend => simp [step?, Channel.pass?, hh, hk, hf, hs, hsend]
    | receive hs hw => simp [step?, Channel.receive?, hs, hw]
    | _ => simp_all [step?]

/-- What every move of a run keeps, the run keeps. -/
theorem play?_preserves {P : Usage → Prop}
    (hstep : ∀ {u m v}, m ∈ moves → P u → Step u m v → P v)
    (h : u.play? moves = some v) (hu : P u) : P v := by
  induction moves generalizing u with
  | nil => cases h; exact hu
  | cons m ms ih =>
    obtain ⟨w, hw, h⟩ := Option.bind_eq_some_iff.mp h
    exact ih (fun hm => hstep (List.mem_cons_of_mem m hm)) h
      (hstep List.mem_cons_self hu (step?_eq_some.mp hw))

theorem play?_append {more : List Move} :
    u.play? (moves ++ more) = (u.play? moves).bind (play? more) := by
  induction moves generalizing u with
  | nil => rfl
  | cons m ms ih =>
    simp only [List.cons_append, play?, Option.bind_assoc]
    exact congrArg _ (funext fun _ => ih)

/-! ### What the calls have come to -/

theorem calls_become {i j : Nat} {stage : Stage} {call : Call} :
    (u.become i stage).calls[j]? = some call ↔
      ∃ c, u.calls[j]? = some c ∧ (if i = j then { c with stage } else c) = call := by
  simp only [become, List.getElem?_modify]
  split <;> simp

theorem calls_begin {i : Nat} {text : String} {call : Call} :
    (u.begin text).calls[i]? = some call ↔ u.calls[i]? = some call ∨
      i = u.calls.length ∧ call = { line := ⟨u.clock, text⟩, earlier := u.finished } := by
  simp only [begin, List.getElem?_append]
  split
  next hlt => exact (or_iff_left fun h => absurd h.1 (by omega)).symm
  next hlt =>
    rw [List.getElem?_singleton, Option.ite_none_right_eq_some, Option.some.injEq,
      List.getElem?_eq_none (by omega)]
    simp only [reduceCtorEq, false_or]
    exact and_congr (by omega) eq_comm

theorem line_become {i j : Nat} {stage : Stage} {line : Line}
    (h : ∃ call, u.calls[j]? = some call ∧ call.line = line) :
    ∃ call, (u.become i stage).calls[j]? = some call ∧ call.line = line := by
  obtain ⟨call, hc, hl⟩ := h
  exact ⟨_, calls_become.mpr ⟨call, hc, rfl⟩, by split <;> exact hl⟩

theorem stage_become {i j : Nat} {stage : Stage} {call : Call}
    (h : (u.become i stage).calls[j]? = some call) :
    ∃ c, u.calls[j]? = some c ∧ call.stage = if i = j then stage else c.stage := by
  obtain ⟨c, hc, rfl⟩ := calls_become.mp h
  exact ⟨c, hc, by split <;> rfl⟩

/-- What was recorded and written is what the calls have come to. -/
structure Books (u : Usage) : Prop where
  line_of_recorded : ∀ r ∈ u.recorded, ∃ call, u.calls[r.call]? = some call ∧ call.line = r.line
  recorded_iff : ∀ {i call}, u.calls[i]? = some call →
    (i ∈ u.recorded.map (·.call) ↔ call.stage ≠ .begun)
  recorded_nodup : (u.recorded.map (·.call)).Nodup
  line_of_written : ∀ w ∈ u.written, ∃ call, u.calls[w.call]? = some call ∧ call.line = w.line
  returned_of_written : ∀ {i call}, u.calls[i]? = some call →
    i ∈ u.written.map (·.call) → call.stage = .returned
  written_nodup : (u.written.map (·.call)).Nodup
  holding : ∀ {h}, u.holder = some h → h.failed = false →
    ∃ call, u.calls[h.call]? = some call ∧ call.stage = .holding

theorem books_start (c : Channel) (now : Time) : Books (start c now) := by
  constructor <;> simp [start]

theorem nodup_concat {l : List Nat} {i : Nat} (hl : l.Nodup) (hi : i ∉ l) : (l ++ [i]).Nodup := by
  refine List.nodup_append.mpr ⟨hl, List.pairwise_singleton .., fun _ hj _ hk h => hi ?_⟩
  rwa [← List.mem_singleton.mp hk, ← h]

namespace Books

/-- A call that has not returned has not written. -/
theorem notMem_written {i : Nat} {call : Call} (hb : Books u) (hc : u.calls[i]? = some call)
    (hs : call.stage ≠ .returned) : i ∉ u.written.map (·.call) :=
  fun h => hs (hb.returned_of_written hc h)

theorem lt_of_recorded {i : Nat} (hb : Books u) (hi : i ∈ u.recorded.map (·.call)) :
    i < u.calls.length := by
  obtain ⟨r, hr, rfl⟩ := List.mem_map.mp hi
  obtain ⟨call, hc, -⟩ := hb.line_of_recorded r hr
  exact (List.getElem?_eq_some_iff.mp hc).1

theorem lt_of_written {i : Nat} (hb : Books u) (hi : i ∈ u.written.map (·.call)) :
    i < u.calls.length := by
  obtain ⟨w, hw, rfl⟩ := List.mem_map.mp hi
  obtain ⟨call, hc, -⟩ := hb.line_of_written w hw
  exact (List.getElem?_eq_some_iff.mp hc).1

theorem begin (hb : Books u) (text : String) : Books (u.begin text) where
  line_of_recorded r hr := (hb.line_of_recorded r hr).imp fun _ h => h.imp_left (calls_begin.mpr <| .inl ·)
  recorded_iff hc := by
    obtain hc | ⟨rfl, rfl⟩ := calls_begin.mp hc
    · exact hb.recorded_iff hc
    · exact iff_of_false (fun hi => Nat.lt_irrefl _ (hb.lt_of_recorded hi)) (fun h => h rfl)
  recorded_nodup := hb.recorded_nodup
  line_of_written w hw := (hb.line_of_written w hw).imp fun _ h => h.imp_left (calls_begin.mpr <| .inl ·)
  returned_of_written hc hi := by
    obtain hc | ⟨rfl, -⟩ := calls_begin.mp hc
    · exact hb.returned_of_written hc hi
    · exact absurd (hb.lt_of_written hi) (Nat.lt_irrefl _)
  written_nodup := hb.written_nodup
  holding hh hf := (hb.holding hh hf).imp fun _ h => h.imp_left (calls_begin.mpr <| .inl ·)

/-- A call that gets on, and was recorded and has not returned, is kept in the books. -/
theorem become {i : Nat} {call : Call} {stage : Stage} {next : Option Holder} (hb : Books u)
    (hc : u.calls[i]? = some call) (hr : call.stage ≠ .begun) (hw : call.stage ≠ .returned)
    (hs : stage ≠ .begun)
    (hn : ∀ {h}, next = some h → h.failed = false → u.holder = some h ∧ i ≠ h.call) :
    Books ({ u with holder := next }.become i stage) where
  line_of_recorded r hr := line_become (hb.line_of_recorded r hr)
  -- Calls have been recorded as soon as they have left the first stage.
  recorded_iff hj := by
    obtain ⟨c, hcj, hstage⟩ := stage_become hj
    rw [hstage]
    split
    next hij =>
      subst hij
      exact iff_of_true ((hb.recorded_iff hc).mpr hr) hs
    next => exact hb.recorded_iff hcj
  recorded_nodup := hb.recorded_nodup
  line_of_written w hw := line_become (hb.line_of_written w hw)
  returned_of_written hj hi := by
    obtain ⟨c, hcj, hstage⟩ := stage_become hj
    rw [hstage]
    split
    next hij =>
      subst hij
      exact absurd hi (hb.notMem_written hc hw)
    next => exact hb.returned_of_written hcj hi
  written_nodup := hb.written_nodup
  holding hh hf := by
    obtain ⟨hh, hne⟩ := hn hh hf
    obtain ⟨c, hcj, hstage⟩ := hb.holding hh hf
    exact ⟨c, calls_become.mpr ⟨c, hcj, if_neg hne⟩, hstage⟩

theorem enter {i : Nat} {call : Call} (hb : Books u) (hc : u.calls[i]? = some call)
    (hs : call.stage = .begun) : Books (u.enter i call.line) where
  line_of_recorded r hr := by
    obtain hr | hr := List.mem_append.mp hr
    · exact line_become (hb.line_of_recorded r hr)
    · rw [List.mem_singleton.mp hr]
      exact line_become ⟨call, hc, rfl⟩
  recorded_iff {j _} hj := by
    obtain ⟨c, hcj, hstage⟩ := stage_become hj
    have hmem : j ∈ (u.enter i call.line).recorded.map (·.call) ↔
        j ∈ u.recorded.map (·.call) ∨ j = i := by
      simp [Usage.enter, Usage.become]
    rw [hstage, hmem]
    split
    -- The call that has just entered is the one in hand.
    next hij => exact iff_of_true (.inr hij.symm) (by decide)
    next hij =>
      rw [hb.recorded_iff hcj]
      exact or_iff_left (Ne.symm hij)
  recorded_nodup := by
    -- It was not recorded before, having only just arrived at the lock.
    have hi : i ∉ u.recorded.map (·.call) := fun h => (hb.recorded_iff hc).mp h hs
    have hmap : (u.enter i call.line).recorded.map (·.call) = u.recorded.map (·.call) ++ [i] :=
      List.map_append
    rw [hmap]
    exact nodup_concat hb.recorded_nodup hi
  line_of_written w hw := line_become (hb.line_of_written w hw)
  returned_of_written hj hi := by
    obtain ⟨c, hcj, hstage⟩ := stage_become hj
    rw [hstage]
    split
    next hij =>
      subst hij
      -- A line is written only behind the lock, so this call has written none.
      exact absurd hi (hb.notMem_written hc (by rw [hs]; decide))
    next => exact hb.returned_of_written hcj hi
  written_nodup := hb.written_nodup
  holding := by
    rintro _ ⟨⟩ -
    exact ⟨_, calls_become.mpr ⟨call, hc, if_pos rfl⟩, rfl⟩

theorem write {i : Nat} {call : Call} (hb : Books u) (hc : u.calls[i]? = some call)
    (hs : call.stage = .recorded) : Books (u.write i call.line) := by
  have hreturned : Books (u.become i .returned) := by
    refine hb.become hc (by rw [hs]; decide) (by rw [hs]; decide) (by decide) fun hh hf => ⟨hh, ?_⟩
    -- A holder at this stage would still be holding, and the call has left the lock.
    rintro rfl
    obtain ⟨c, hc', hstage⟩ := hb.holding hh hf
    rw [hc] at hc'
    cases hc'
    rw [hs] at hstage
    cases hstage
  exact { hreturned with
    line_of_written := fun w hw => by
      obtain hw | hw := List.mem_append.mp hw
      · exact hreturned.line_of_written w hw
      · rw [List.mem_singleton.mp hw]
        exact line_become ⟨call, hc, rfl⟩
    returned_of_written := fun {j _} hj hi => by
      obtain ⟨c, hcj, hstage⟩ := stage_become hj
      have hmem : j ∈ (u.write i call.line).written.map (·.call) ↔
          j ∈ u.written.map (·.call) ∨ j = i := by
        simp [Usage.write, Usage.become]
      rw [hstage]
      split
      next => rfl
      next hij => exact hb.returned_of_written hcj ((hmem.mp hi).resolve_right (Ne.symm hij))
    written_nodup := by
      have hmap : (u.write i call.line).written.map (·.call) = u.written.map (·.call) ++ [i] :=
        List.map_append
      rw [hmap]
      exact nodup_concat hb.written_nodup (hb.notMem_written hc (by rw [hs]; decide)) }

/-- Every move keeps the books of the calls. -/
theorem step (hb : Books u) (hs : Step u m v) : Books v := by
  cases hs with
  | call text => exact hb.begin text
  | enter hc hs hh => exact hb.enter hc hs
  | offer hh hk hf hs hsend =>
    have hholding := hb.holding hh hf
    exact { hb with holding := by rintro _ ⟨⟩ _; exact hholding }
  | fail hh hk hf hs hsend =>
    obtain ⟨call, hc, hcs⟩ := hb.holding hh hf
    refine hb.become hc (by rw [hcs]; decide) (by rw [hcs]; decide) (by decide) ?_
    rintro _ ⟨⟩ ⟨⟩
  | leave hh hd hf =>
    obtain ⟨call, hc, hcs⟩ := hb.holding hh hf
    exact hb.become hc (by rw [hcs]; decide) (by rw [hcs]; decide) (by decide) nofun
  | write hc hs => exact hb.write hc hs
  | _ => exact { hb with }

end Books

/-- The books are kept in every run. -/
theorem books_of_play? {c : Channel} {now : Time} (h : (start c now).play? moves = some u) :
    Books u :=
  play?_preserves (fun _ => Books.step) h (books_start c now)

/-! ### Users that nobody comes between -/

/-- The call that holds the channel passes its line on in the order in which
`Channel.record?` does. -/
theorem play?_offers {i : Nat} {line : Line} {ks : List Nat} {c : Channel}
    (hh : u.holder = some { call := i, line, due := ks }) (hn : ks.Nodup)
    (hc : ks.foldlM (fun c k => c.pass? line k) u.channel = some c) :
    ∃ v, u.play? (ks.map .offer) = some v ∧ v.channel = c ∧
      v.holder = some { call := i, line, due := [] } ∧ v.calls = u.calls ∧
      v.recorded = u.recorded ∧ v.written = u.written := by
  induction ks generalizing u with
  | nil => cases hc; exact ⟨u, rfl, rfl, hh, rfl, rfl, rfl⟩
  | cons k ks ih =>
    obtain ⟨hk, hn⟩ := List.nodup_cons.mp hn
    rw [List.foldlM_cons] at hc
    obtain ⟨c', hp, hc⟩ := Option.bind_eq_some_iff.mp hc
    obtain ⟨s, hs, hp⟩ := Option.bind_eq_some_iff.mp hp
    obtain ⟨s', hsend, rfl⟩ := Option.map_eq_some_iff.mp hp
    have hstep := step?_eq_some.mpr (.offer hh List.mem_cons_self rfl hs hsend)
    -- The subscription that has been served is no longer due.
    have hrest : (k :: ks).filter (· ≠ k) = ks := by
      rw [List.filter_cons_of_neg (by simp), List.filter_eq_self]
      -- No subscription is listed twice, so that serving one removes only that one.
      intro j hj
      simpa using fun h : j = k => hk (h ▸ hj)
    have hh' : (u.offer ⟨i, line, k :: ks, false⟩ k s
        (u.channel.updateSubscription (fun _ => s') k)).holder = some { call := i, line, due := ks } :=
      congrArg (fun due => some (Holder.mk i line due false)) hrest
    obtain ⟨v, hv, h⟩ := ih hh' hn hc
    exact ⟨v, by rw [List.map_cons, play?, hstep]; exact hv, h⟩

/-- A call that nobody comes between does what `Channel.appendLine` does. -/
theorem play?_appendLine {text : String} {c : Channel} (hh : u.holder = none)
    (hc : u.channel.record? ⟨u.clock, text⟩ = some c) :
    ∃ moves v, u.play? moves = some v ∧ v.holder = none ∧
      v.channel = (u.channel.appendLine u.clock text).1 ∧
      v.recorded = u.recorded ++ [⟨u.calls.length, u.clock, text⟩] ∧
      v.written = u.written ++
        [⟨u.calls.length, ⟨u.clock, text⟩, (u.channel.appendLine u.clock text).2⟩] := by
  -- The call as moves: begin, enter, offer to everyone listed, leave and write.
  let i := u.calls.length
  let w := (u.begin text).enter i ⟨u.clock, text⟩
  have hi : (u.begin text).calls[i]? = some { line := ⟨u.clock, text⟩, earlier := u.finished } :=
    calls_begin.mpr (.inr ⟨rfl, rfl⟩)
  have henter : (u.begin text).step? (.enter i) = some w := step?_eq_some.mpr (.enter hi rfl hh)
  obtain ⟨x, hx, rfl, hxh, hxc, hxr, hxw⟩ := play?_offers (u := w) rfl
    (List.nodup_range.filter _) hc
  have hxi : x.calls[i]? = some ⟨⟨u.clock, text⟩, .holding, u.finished⟩ := by
    rw [hxc]
    exact calls_become.mpr ⟨_, hi, if_pos rfl⟩
  let h : Holder := { call := i, line := ⟨u.clock, text⟩, due := [] }
  have hleave : x.step? .leave = some (x.leave h) := step?_eq_some.mpr (.leave hxh rfl rfl)
  have hri : (x.leave h).calls[i]? = some ⟨⟨u.clock, text⟩, .recorded, u.finished⟩ :=
    calls_become.mpr ⟨_, hxi, if_pos rfl⟩
  have hwrite : (x.leave h).step? (.write i) = some ((x.leave h).write i ⟨u.clock, text⟩) :=
    step?_eq_some.mpr (.write hri rfl)
  refine ⟨.call text :: .enter i :: (u.channel.listed.map .offer ++ [.leave, .write i]),
    (x.leave h).write i ⟨u.clock, text⟩, ?_, rfl, ?_, hxr, ?_⟩
  · have hcall : u.step? (.call text) = some (u.begin text) := rfl
    have hoffers : w.play? (u.channel.listed.map .offer) = some x := hx
    simp only [play?, play?_append, hcall, henter, hoffers, hleave, hwrite, Option.bind_some]
  · simp only [Channel.appendLine, hc]; rfl
  · simp only [Channel.appendLine, hc]; exact congrArg (· ++ _) hxw

/-- To end a subscription is to take it off the list and then to close it. -/
theorem play?_unsubscribe {k : Nat} {s : Subscription} (hh : u.holder = none)
    (hs : u.channel.subscriptions[k]? = some s) (hl : s.isListed = true) (ho : s.isOpen = true) :
    ∃ v, u.play? [.unlist k, .close k] = some v ∧ v.channel = u.channel.unsubscribe k := by
  have hs' : (u.channel.unlist k).subscriptions[k]? = some { s with isListed := false } := by
    simp [Channel.unlist, Channel.updateSubscription, hs]
  refine ⟨{ u with channel := u.channel.unsubscribe k : Usage }.note
    (fun m => { m with upTo := some u.recorded.length }) k, ?_, rfl⟩
  simp only [play?, step?_eq_some.mpr (.unlist hs hl hh), Option.bind_some]
  exact Option.bind_eq_some_iff.mpr ⟨_, step?_eq_some.mpr (.close hs' rfl ho), rfl⟩

/-- To take all lines that wait is to take one after the other. -/
theorem play?_drain {k : Nat} {s : Subscription} (hs : u.channel.subscriptions[k]? = some s) :
    ∃ v, u.play? (List.replicate s.waiting.length (.receive k)) = some v ∧
      v.channel = (u.channel.drain k).1 := by
  -- The channel changes on the way, so the statement is for every one of them.
  suffices H : ∀ (ls : List Line) {u : Usage} {s : Subscription},
      u.channel.subscriptions[k]? = some s → s.waiting = ls →
      ∃ v, u.play? (List.replicate ls.length (.receive k)) = some v ∧
        v.channel = u.channel.updateSubscription (fun s => { s with waiting := [] }) k by
    simpa only [Channel.drain, hs] using H s.waiting hs rfl
  clear hs
  intro ls
  induction ls with
  | nil =>
    intro u s hs hw
    refine ⟨u, rfl, ?_⟩
    have : u.channel.subscriptions.modify k (fun s => { s with waiting := [] }) =
        u.channel.subscriptions := by
      refine List.ext_getElem? fun j => ?_
      obtain ⟨_, _, _, _⟩ := s
      cases hw
      by_cases hj : k = j
      · subst hj; simp [hs]
      · simp [hj]
    rw [Channel.updateSubscription, this]
  | cons line rest ih =>
    intro u s hs hw
    obtain ⟨v, hv, hc⟩ := ih (u := { u with
      channel := u.channel.updateSubscription (fun s => { s with waiting := rest }) k : Usage }.note
        (fun m => { m with received := m.received ++ [line] }) k) (s := { s with waiting := rest })
      (by simp [note, Channel.updateSubscription, hs]) rfl
    refine ⟨v, ?_, hc.trans ?_⟩
    · rw [List.length_cons, List.replicate_succ, play?, step?_eq_some.mpr (.receive hs hw)]
      exact hv
    · simp only [note, Channel.updateSubscription, List.modify_modify_eq]
      rfl

end Usage

end LanguageClient.Log
