import LanguageClient.Proofs.Log.Usage

/-! # What a channel keeps, and what it passes on.

A channel keeps the last lines that were recorded, in that order, and it passes
on to a subscription exactly those that were recorded while the subscription was
listed. What `Follows` says of one subscription, every move keeps: a line is
appended to what it is to get and is pending for it, or it gets a pending line,
or somebody takes from what waits. A subscription is closed only after it was
taken off the list, and no line is pending for it then; so none is ever sent to
it. -/

namespace LanguageClient.Log

namespace Subscription

variable {line : Line} {s s' : Subscription}

theorem send?_eq_none : s.send? line = none ↔ s.isOpen = false := by
  simp only [send?]
  cases s.isOpen <;> simp
  split <;> simp

theorem isListed_of_send? (h : s.send? line = some s') : s'.isListed = s.isListed := by
  simp only [send?] at h
  split at h
  next => cases h
  next => split at h <;> cases h <;> rfl

end Subscription

namespace Channel

variable {c : Channel} {f : Subscription → Subscription} {i j : Nat} {s : Subscription}

/-! ### Parts of a channel -/

theorem lastN_suffix {α : Type} (n : Nat) (l : List α) : lastN n l <:+ l := List.drop_suffix _ _

theorem length_lastN {α : Type} (n : Nat) (l : List α) : (lastN n l).length = min n l.length := by
  rw [lastN, List.length_drop]
  omega

/-- The last elements behind one more are found from the last elements before. -/
theorem lastN_concat {α : Type} {n : Nat} (hn : 0 < n) (l : List α) (a : α) :
    lastN n (lastN n l ++ [a]) = lastN n (l ++ [a]) := by
  simp only [lastN, List.length_append, List.length_drop, List.length_singleton]
  rw [← List.drop_append_of_le_length (Nat.sub_le _ _), List.drop_drop]
  congr 1
  omega

theorem mem_listed : i ∈ c.listed ↔ ∃ s, c.subscriptions[i]? = some s ∧ s.isListed = true := by
  simp only [listed, List.mem_filter, List.mem_range, Option.any_eq_true]
  constructor
  · exact fun h => h.2
  · exact fun ⟨s, hs, hl⟩ => ⟨(List.getElem?_eq_some_iff.mp hs).1, s, hs, hl⟩

theorem updateSubscription_getElem? : (c.updateSubscription f i).subscriptions[j]? = some s ↔
    ∃ t, c.subscriptions[j]? = some t ∧ (if i = j then f t else t) = s := by
  simp only [updateSubscription, List.getElem?_modify]
  split <;> simp

theorem listed_updateSubscription
    (hf : ∀ {s}, c.subscriptions[i]? = some s → (f s).isListed = s.isListed) :
    (c.updateSubscription f i).listed = c.listed := by
  have hlength : (c.updateSubscription f i).subscriptions.length = c.subscriptions.length :=
    List.length_modify ..
  simp only [listed, hlength]
  refine List.filter_congr fun j _ => ?_
  simp only [updateSubscription, List.getElem?_modify]
  by_cases hij : i = j
  · subst hij
    cases hs : c.subscriptions[i]? with
    | none => rfl
    | some s => simp [hf hs]
  · simp [hij]

end Channel

namespace Usage

variable {u v : Usage} {m : Move} {moves : List Move}

/-! ### One subscription -/

/-- The line that is still to be passed on to a subscription. -/
def pending (k : Nat) (u : Usage) : List Line :=
  match u.holder with
  | some h => if k ∈ h.due then [h.line] else []
  | none => []

/-- What was seen of a subscription goes with the lines that were appended, but
for a line that is still pending. -/
structure Follows (appended pending : List Line) (s : Subscription) (m : Membership) : Prop where
  listed_iff : s.isListed = true ↔ m.upTo = none
  open_of_listed : s.isListed = true → s.isOpen = true
  room : s.waiting.length ≤ s.capacity
  taken : m.received ++ s.waiting = m.taken s.capacity
  since_le : m.since ≤ m.upTo.getD appended.length
  upTo_le : m.upTo.getD appended.length ≤ appended.length
  passed : m.offers.map (·.line) ++ pending = m.window appended

namespace Follows

variable {appended pending : List Line} {line : Line} {s s' : Subscription} {m : Membership}

theorem subscribe (appended : List Line) (capacity : Nat) :
    Follows appended [] { capacity } { since := appended.length } := by
  constructor <;> simp [Membership.taken, Membership.window]

/-- A line that is appended is pending for whoever is listed. -/
theorem append (h : Follows appended [] s m) (line : Line) :
    Follows (appended ++ [line]) (if s.isListed then [line] else []) s m := by
  have hw := h.passed
  have hs := h.since_le
  have hu := h.upTo_le
  simp only [List.append_nil, Membership.window] at hw
  -- A subscription that is still listed gets the line.
  cases hup : m.upTo with
  | none =>
    simp only [hup, Option.getD_none, List.take_length] at hw hs
    have hl := h.listed_iff.mpr hup
    refine ⟨h.listed_iff, h.open_of_listed, h.room, h.taken, ?_, ?_, ?_⟩
    · simp only [hup, Option.getD_none, List.length_append]; omega
    · simp [hup]
    · simp only [hl, if_true, hw, Membership.window, hup, Option.getD_none, List.take_length,
        List.drop_append_of_le_length hs]
  -- One that was taken off the list does not get it.
  | some n =>
    simp only [hup, Option.getD_some] at hw hs hu
    have hl : ¬s.isListed = true := fun hl => by simpa [hup] using h.listed_iff.mp hl
    refine ⟨h.listed_iff, h.open_of_listed, h.room, h.taken, ?_, ?_, ?_⟩
    · simpa only [hup, Option.getD_some] using hs
    · simp only [hup, Option.getD_some, List.length_append]; omega
    · simp only [hl, if_false, List.append_nil, hw, Membership.window, hup, Option.getD_some,
        Bool.false_eq_true, List.take_append_of_le_length hu]

/-- A line that is passed on is taken if there is room for it. -/
theorem offer (h : Follows appended [line] s m) (hs : s.send? line = some s') :
    Follows appended [] s' { m with offers := m.offers ++ [⟨line, s.waiting.length⟩] } := by
  have hp : (m.offers ++ [Offer.mk line s.waiting.length]).map (·.line) ++ [] = m.window appended := by
    simpa using h.passed
  have ht := h.taken
  simp only [Subscription.send?, Subscription.isFull, decide_eq_true_eq] at hs
  split at hs
  next => cases hs
  next =>
    split at hs
    next hfull =>
      cases hs
      have hdrop : ¬s.waiting.length < s.capacity := Nat.not_lt.mpr hfull
      exact { h with taken := by simpa [Membership.taken, hdrop] using ht, passed := hp }
    next hfull =>
      cases hs
      have hroom : s.waiting.length < s.capacity := Nat.not_le.mp hfull
      refine ⟨h.listed_iff, h.open_of_listed, ?_, ?_, h.since_le, h.upTo_le, hp⟩
      · rw [List.length_append]
        exact hroom
      · simp only [← List.append_assoc, ht]
        simp [Membership.taken, hroom]

theorem unlist (h : Follows appended [] s m) (hl : s.isListed = true) :
    Follows appended [] { s with isListed := false }
      { m with upTo := some appended.length } := by
  have hup := h.listed_iff.mp hl
  have hw := h.passed
  have hs := h.since_le
  simp only [Membership.window, hup, Option.getD_none] at hw hs
  exact ⟨by simp, nofun, h.room, h.taken, hs, Nat.le_refl _, hw⟩

theorem close (h : Follows appended pending s m) (hl : s.isListed = false) :
    Follows appended pending { s with isOpen := false } m :=
  { h with open_of_listed := fun hl' => by simp [hl] at hl' }

theorem receive {rest : List Line} (h : Follows appended pending s m)
    (hw : s.waiting = line :: rest) :
    Follows appended pending { s with waiting := rest }
      { m with received := m.received ++ [line] } := by
  have ht := h.taken
  have hr := h.room
  rw [hw] at ht hr
  exact { h with
    room := Nat.le_of_succ_le hr
    taken := by simpa [Membership.taken] using ht }

end Follows

/-! ### All of them, and the history -/

/-- What holds of a channel in use. -/
structure Keeps (u : Usage) : Prop where
  history : u.channel.lines = Channel.lastN u.channel.maxLines u.appended
  /-- Nobody has sent to a subscription that was closed, and nobody is going to:
  a line is only due to subscriptions that are listed. -/
  sound : ∀ {h}, u.holder = some h → h.failed = false ∧ ∀ k ∈ h.due, k ∈ u.channel.listed
  followed : u.memberships.length = u.channel.subscriptions.length
  follows : ∀ {k s m}, u.channel.subscriptions[k]? = some s → u.memberships[k]? = some m →
    Follows u.appended (u.pending k) s m

theorem length_appended : u.appended.length = u.recorded.length := List.length_map _

theorem appended_enter {i : Nat} {line : Line} :
    (u.enter i line).appended = u.appended ++ [line] := List.map_append

theorem pending_of_holder_eq_none {k : Nat} (h : u.holder = none) : u.pending k = [] := by
  rw [pending, h]

theorem pending_of_holder_eq_some {k : Nat} {h : Holder} (hh : u.holder = some h) :
    u.pending k = if k ∈ h.due then [h.line] else [] := by
  rw [pending, hh]

theorem keeps_start (name : String) (maxLines : Int) (debug : Bool) (console : Console)
    (file : Option LogFile) (now : Time) :
    Keeps (start (.make name maxLines debug console file) now) := by
  constructor <;> simp [start, Channel.make, appended, Channel.lastN]

namespace Keeps

/-- A move that concerns one subscription only. -/
theorem change {k : Nat} {f : Subscription → Subscription} {g : Membership → Membership}
    (hu : Keeps u) (hc : v.channel = u.channel.updateSubscription f k)
    (hm : v.memberships = u.memberships.modify k g) (hr : v.recorded = u.recorded)
    (hsound : ∀ {h}, v.holder = some h → h.failed = false ∧ ∀ j ∈ h.due, j ∈ v.channel.listed)
    (hp : ∀ j, k ≠ j → v.pending j = u.pending j)
    (hk : ∀ {s m}, u.channel.subscriptions[k]? = some s → Follows u.appended (u.pending k) s m →
      Follows u.appended (v.pending k) (f s) (g m)) : Keeps v where
  history := by rw [hc, appended, hr]; exact hu.history
  sound := hsound
  followed := by
    rw [hc, hm, List.length_modify]
    exact hu.followed.trans (List.length_modify ..).symm
  follows {j s m} hs hm' := by
    rw [hc] at hs
    rw [hm, List.getElem?_modify] at hm'
    obtain ⟨t, ht, rfl⟩ := Channel.updateSubscription_getElem?.mp hs
    obtain ⟨n, hn, rfl⟩ := Option.map_eq_some_iff.mp hm'
    rw [show v.appended = u.appended by rw [appended, hr]; rfl]
    by_cases hj : k = j
    · subst hj
      simpa using hk ht (hu.follows ht hn)
    · simpa [hj, hp j hj] using hu.follows ht hn

/-- Recording a line keeps what holds of a channel in use. -/
theorem enter {i : Nat} {line : Line} (hu : Keeps u) (hmax : 0 < u.channel.maxLines)
    (hh : u.holder = none) : Keeps (u.enter i line) where
  history := by
    have hl : (u.enter i line).channel.lines =
        Channel.lastN u.channel.maxLines (u.channel.lines ++ [line]) := rfl
    rw [hl, hu.history, appended_enter]
    exact Channel.lastN_concat hmax _ _
  sound := by rintro _ ⟨⟩; exact ⟨rfl, fun _ hk => hk⟩
  followed := hu.followed
  follows {k s m} hs hm := by
    have hp : (u.enter i line).pending k = if s.isListed then [line] else [] := by
      have hk : k ∈ u.channel.listed ↔ s.isListed = true := by
        rw [Channel.mem_listed]
        exact ⟨fun ⟨t, ht, hl⟩ => Option.some.inj (ht.symm.trans hs) ▸ hl, fun hl => ⟨s, hs, hl⟩⟩
      rw [show (u.enter i line).pending k = if k ∈ u.channel.listed then [line] else [] from rfl]
      simp only [hk]
    rw [appended_enter, hp]
    have hf := hu.follows hs hm
    rw [pending_of_holder_eq_none hh] at hf
    exact hf.append line

theorem subscribe (hu : Keeps u) (hh : u.holder = none) (capacity : Int) :
    Keeps { u with
      channel := u.channel.subscribe capacity
      memberships := u.memberships ++ [{ since := u.recorded.length }] } where
  history := hu.history
  sound := by rw [hh]; nofun
  followed := by simpa [Channel.subscribe] using hu.followed
  follows {k s m} hs hm := by
    have hp : u.pending k = [] := pending_of_holder_eq_none hh
    simp only [Channel.subscribe, List.getElem?_append, hu.followed] at hs hm
    split at hs
    next hlt =>
      rw [if_pos hlt] at hm
      exact hu.follows hs hm
    next hlt =>
      rw [if_neg hlt] at hm
      rw [List.getElem?_singleton, Option.ite_none_right_eq_some] at hs hm
      obtain ⟨-, ⟨⟩⟩ := hs
      obtain ⟨-, ⟨⟩⟩ := hm
      rw [← length_appended]
      exact hp ▸ .subscribe u.appended _

/-- A subscription that a line is due to is open. -/
theorem isOpen_of_due (hu : Keeps u) {k : Nat} {h : Holder} {s : Subscription}
    (hh : u.holder = some h) (hk : k ∈ h.due) (hs : u.channel.subscriptions[k]? = some s) :
    s.isOpen = true := by
  obtain ⟨t, ht, hl⟩ := Channel.mem_listed.mp ((hu.sound hh).2 k hk)
  cases hs.symm.trans ht
  have hlt : k < u.memberships.length := hu.followed ▸ (List.getElem?_eq_some_iff.mp hs).1
  exact (hu.follows hs (List.getElem?_eq_getElem hlt)).open_of_listed hl

/-- Once nothing is due, nothing is pending, whether the channel is held or not. -/
theorem leave {h : Holder} (hu : Keeps u) (hh : u.holder = some h) (hd : h.due = []) :
    Keeps (u.leave h) where
  history := hu.history
  sound := nofun
  followed := hu.followed
  follows {k s m} hs hm := by
    have hp : u.pending k = [] := by rw [pending_of_holder_eq_some hh, hd]; rfl
    have hf := hu.follows hs hm
    rw [hp] at hf
    exact hf

/-- Every move keeps what holds of a channel in use. -/
theorem step (hu : Keeps u) (hmax : 0 < u.channel.maxLines) (hs : Step u m v) : Keeps v := by
  cases hs with
  | enter hc hb hh => exact hu.enter hmax hh
  | subscribe capacity hh => exact hu.subscribe hh capacity
  -- An offer changes one subscription, which the line was due to.
  | @offer k h s s' hh hk hf hs hsend =>
    have hlist : (u.channel.updateSubscription (fun _ => s') k).listed = u.channel.listed :=
      Channel.listed_updateSubscription fun ht => by
        cases hs.symm.trans ht
        exact Subscription.isListed_of_send? hsend
    refine hu.change (k := k) (f := fun _ => s')
      (g := fun m => { m with offers := m.offers ++ [⟨h.line, s.waiting.length⟩] }) rfl rfl rfl ?_ ?_ ?_
    · rintro _ ⟨⟩
      refine ⟨hf, fun j hj => ?_⟩
      have := (hu.sound hh).2 j (List.mem_filter.mp hj).1
      rwa [← hlist] at this
    · intro j hj
      rw [pending_of_holder_eq_some hh]
      simp [pending, Usage.offer, note, Ne.symm hj]
    · intro t m ht hfollows
      cases hs.symm.trans ht
      rw [pending_of_holder_eq_some hh, if_pos hk] at hfollows
      have hp : (u.offer h k s (u.channel.updateSubscription (fun _ => s') k)).pending k = [] := by
        simp [pending, Usage.offer, note]
      rw [hp]
      exact hfollows.offer hsend
  -- Nothing is due to a closed subscription, so this cannot happen.
  | fail hh hk hf hs hsend =>
    have := hu.isOpen_of_due hh hk hs
    rw [Subscription.send?_eq_none.mp hsend] at this
    cases this
  | leave hh hd hf => exact hu.leave hh hd
  -- Nobody holds the channel, so nothing is pending.
  | @unlist k s hs hl hh =>
    refine hu.change (f := fun s => { s with isListed := false })
      (g := fun m => { m with upTo := some u.recorded.length }) rfl rfl rfl ?_ (fun _ _ => rfl) ?_
    · intro h h'
      rw [show u.holder = some h from h'] at hh
      cases hh
    · intro t m ht hf
      cases hs.symm.trans ht
      have hp : u.pending k = [] := pending_of_holder_eq_none hh
      rw [show ({ u with channel := u.channel.unlist k : Usage }.note _ k).pending k = [] from hp,
        ← length_appended]
      exact (hp ▸ hf).unlist hl
  | @close k s hs hl ho =>
    refine hu.change (f := fun s => { s with isOpen := false }) (g := id) rfl
      (List.modify_id ..).symm rfl ?_ (fun _ _ => rfl) ?_
    · intro h hh
      have hlist : (u.channel.close k).listed = u.channel.listed :=
        Channel.listed_updateSubscription fun _ => rfl
      exact hlist ▸ hu.sound hh
    · intro t m ht hf
      cases hs.symm.trans ht
      exact hf.close hl
  | @receive k s line rest hs hw =>
    refine hu.change (f := fun s => { s with waiting := rest })
      (g := fun m => { m with received := m.received ++ [line] }) rfl rfl rfl ?_ (fun _ _ => rfl) ?_
    · intro h hh
      have hlist : (u.channel.updateSubscription (fun s => { s with waiting := rest }) k).listed =
          u.channel.listed := Channel.listed_updateSubscription fun _ => rfl
      exact hlist ▸ hu.sound hh
    · intro t m ht hf
      cases hs.symm.trans ht
      exact hf.receive hw
  | _ => exact { hu with }

end Keeps

theorem Step.maxLines (hs : Step u m v) : v.channel.maxLines = u.channel.maxLines := by
  cases hs <;> rfl

/-- It holds after any moves on a new channel. -/
theorem keeps_of_play? {name : String} {maxLines : Int} {debug : Bool} {console : Console}
    {file : Option LogFile} {now : Time}
    (h : (start (.make name maxLines debug console file) now).play? moves = some u) :
    Keeps u ∧ u.channel.maxLines =
      if maxLines ≤ 0 then Channel.defaultMaxLines else maxLines.toNat := by
  have hpos : 0 < if maxLines ≤ 0 then Channel.defaultMaxLines else maxLines.toNat := by
    split
    · decide
    · omega
  refine play?_preserves (P := fun u => Keeps u ∧ u.channel.maxLines = _)
    (fun _ hu hs => ?_) h ⟨keeps_start .., rfl⟩
  exact ⟨hu.1.step (hu.2 ▸ hpos) hs, hs.maxLines.trans hu.2⟩

/-- Whatever is done with a channel, and in whatever order: it keeps the last lines
that were appended; a subscription has got, or is still to take, those of its time
that found room, in their order; and nobody has ever sent to one that was closed. -/
theorem keeps_and_passes_on {name : String} {maxLines : Int} {debug : Bool} {console : Console}
    {file : Option LogFile} {now : Time} {moves : List Move} {u : Usage}
    (h : (start (.make name maxLines debug console file) now).play? moves = some u) :
    u.channel.lines <:+ u.appended ∧
    u.channel.lines.length = min (if maxLines ≤ 0 then 1000 else maxLines.toNat) u.appended.length ∧
    -- A call appends its line once, and has done so as soon as it has held the channel.
    (u.recorded.map (·.call)).Nodup ∧
    (∀ r ∈ u.recorded, ∃ call, u.calls[r.call]? = some call ∧ call.line = r.line) ∧
    (∀ {i call}, u.calls[i]? = some call →
      (i ∈ u.recorded.map (·.call) ↔ call.stage ≠ .begun)) ∧
    (∀ {k s}, u.channel.subscriptions[k]? = some s → ∃ m, u.memberships[k]? = some m ∧
      m.offers.map (·.line) ++ u.pending k = m.window u.appended ∧
      m.received ++ s.waiting = m.taken s.capacity ∧
      (m.received ++ s.waiting).Sublist (m.window u.appended)) ∧
    (∀ {h}, u.holder = some h → h.failed = false ∧
      ∀ k ∈ h.due, ∃ s, u.channel.subscriptions[k]? = some s ∧ s.isOpen = true) := by
  obtain ⟨hu, hmax⟩ := keeps_of_play? h
  have hb := books_of_play? h
  have hlines := hu.history
  rw [hmax] at hlines
  refine ⟨hlines ▸ Channel.lastN_suffix _ _, hlines ▸ Channel.length_lastN _ _, hb.recorded_nodup,
    hb.line_of_recorded, hb.recorded_iff, ?_, ?_⟩
  · intro k s hs
    have hlt : k < u.memberships.length := hu.followed ▸ (List.getElem?_eq_some_iff.mp hs).1
    obtain hm := List.getElem?_eq_getElem hlt
    have hf := hu.follows hs hm
    refine ⟨_, hm, hf.passed, hf.taken, ?_⟩
    rw [hf.taken, ← hf.passed]
    exact (List.filter_sublist.map _).trans (List.sublist_append_left ..)
  · intro h hh
    refine ⟨(hu.sound hh).1, fun k hk => ?_⟩
    obtain ⟨s, hs, -⟩ := Channel.mem_listed.mp ((hu.sound hh).2 k hk)
    exact ⟨s, hs, hu.isOpen_of_due hh hk hs⟩

/-- Two calls that cross, with a subscriber that has room for one line, and a console
that fails before the second of them is written. -/
theorem crossing_calls_kept :
    ∃ u, (start (.make "c" 1 false .works none) ⟨0⟩).play? [.subscribe 1, .call "a", .call "b",
        .enter 1, .offer 0, .leave, .enter 0, .offer 0, .leave, .receive 0, .write 0,
        .console .fails, .write 1, .unlist 0, .close 0] = some u ∧
      u.appended = [⟨⟨0⟩, "b"⟩, ⟨⟨0⟩, "a"⟩] ∧ u.channel.lines <:+ u.appended ∧
      u.channel.lines.length = 1 ∧
      ∃ s m, u.channel.subscriptions[0]? = some s ∧ u.memberships[0]? = some m ∧
        s.isOpen = false ∧ m.received = [⟨⟨0⟩, "b"⟩] ∧ m.received ++ s.waiting = m.taken s.capacity ∧
        m.window u.appended = u.appended := by
  have hrun : ∃ u, (start (.make "c" 1 false .works none) ⟨0⟩).play? [.subscribe 1, .call "a",
        .call "b", .enter 1, .offer 0, .leave, .enter 0, .offer 0, .leave, .receive 0, .write 0,
        .console .fails, .write 1, .unlist 0, .close 0] = some u ∧
      u.appended = [⟨⟨0⟩, "b"⟩, ⟨⟨0⟩, "a"⟩] ∧ ∃ s m, u.channel.subscriptions[0]? = some s ∧
        u.memberships[0]? = some m ∧ s.isOpen = false ∧ m.received = [⟨⟨0⟩, "b"⟩] ∧
        m.window u.appended = u.appended :=
    ⟨_, rfl, rfl, _, _, rfl, rfl, rfl, rfl, rfl⟩
  obtain ⟨u, h, ha, s, m, hs, hm, ho, hr, hw⟩ := hrun
  obtain ⟨hlines, hlength, -, -, -, hfollows, -⟩ := keeps_and_passes_on h
  obtain ⟨m', hm', -, ht, -⟩ := hfollows hs
  cases hm.symm.trans hm'
  exact ⟨u, h, ha, hlines, hlength.trans (by rw [ha]; rfl), s, m, hs, hm, ho, hr, ht, hw⟩

end Usage

end LanguageClient.Log
