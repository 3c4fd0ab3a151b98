import LanguageClient.Proofs.Supervisor.Lifecycle
import LanguageClient.Proofs.Supervisor.Speaking

/-! # The order on the wire.

`Conversing` says of a whole system what `Task.Spoke` says of single threads: what has
been said is known wherever a thread stands. Every event keeps it, so that `wire_order`
holds of every run of a supervisor, whoever calls it and whatever the server does. -/

namespace LanguageClient.Supervisor

/-! ### What the others have said -/

section Others

variable {g : Settings} {lines new : List Line} {i j : Nat} {t u : Task} {s s' : State}

/-- Only who shuts the server down asks for that. -/
theorem Task.shuts_of_purpose {q : Purpose} (h : t.purpose? = some q) (hq : q = .shutdown ∨ q = .exit) :
    (∃ mode p, t = .start mode (.shutdown p)) ∨ ∃ p, t = .stop (.shutdown p) := by
  unfold Task.purpose? at h
  split at h
  · rcases hq with rfl | rfl <;> cases h
  · rcases hq with rfl | rfl <;> cases h
  · exact Or.inl ⟨_, _, rfl⟩
  · exact Or.inr ⟨_, rfl⟩
  · rcases hq with rfl | rfl <;> cases h
  · cases h

/-- Before the connection is known only the call that starts the server says anything. -/
theorem Task.attached_of_purpose (hf : t.Fits s i) (hspoke : t.Spoke lines s)
    (hrun : s.lifecycle = .running → s.attached = true) (hstart : t.isStarter = false)
    {q : Purpose} (h : t.purpose? = some q) : s.attached = true := by
  cases t with
  | start mode p =>
      rw [Task.isStarter_start (by rintro rfl; cases h)] at hstart
      cases hstart
  | stop p =>
      cases p with
      | shutdown p => exact hrun (hf (by simp)).2.1
      | _ => cases h
  | notify method params p =>
      cases p with
      | send => exact hspoke
      | check => cases h
  | _ => cases h

/-- While one call shuts the server down no other does. -/
theorem Tells.notMem_shutdown (ht : Tells g lines new t s s') (hf : t.Fits s i)
    (hown : (t.isStarter = false ∧ s.lifecycle = .starting) ∨
      s.lifecycle = .running ∧ (t.purpose? ≠ none → s.stopper ≠ some i))
    {q : Purpose} (hq : q = .shutdown ∨ q = .exit) : q ∉ purposes new := by
  intro hm
  have hp := ht.purposed q hm
  rcases Task.shuts_of_purpose hp hq with ⟨mode, p, rfl⟩ | ⟨p, rfl⟩
  · have hl : s.lifecycle = .starting := hf.2.1
    rcases hown with ⟨hstart, _⟩ | ⟨hr, _⟩
    · cases hstart
    · rw [hl] at hr
      cases hr
  · obtain ⟨hmine, hl, _⟩ := hf (by simp)
    rcases hown with ⟨_, hstarting⟩ | ⟨_, hother⟩
    · rw [hl] at hstarting
      cases hstarting
    · exact hother (by rw [hp]; simp) hmine

/-- **What holds where a thread stands still holds when another one has made a step.** -/
theorem Task.Spoke.aside (h : u.Spoke lines s) (hfu : u.Fits s j) (ht : Tells g lines new t s s')
    (hft : t.Fits s i) (hspoke : t.Spoke lines s) (hrun : s.lifecycle = .running → s.attached = true)
    (hstart : u.isStarter = true → t.isStarter = false) (hij : t.purpose? ≠ none → i ≠ j) :
    u.Spoke (lines ++ new) s' := by
  have hattached (ha : s.attached = true) : s'.attached = true := by
    rcases ht.attached with he | ⟨_, he, _⟩
    · exact he.trans ha
    · exact he
  cases u with
  | notify method params p =>
      cases p with
      | send => exact hattached h
      | check => trivial
  | watch p => trivial
  | done => trivial
  | stop p =>
      cases p with
      | shutdown q =>
          obtain ⟨hmine, hl, _⟩ := hfu (by simp)
          have hother : t.purpose? ≠ none → s.stopper ≠ some i := by
            intro hp hm
            rw [hmine] at hm
            exact hij hp (Option.some.inj hm).symm
          have hnone {q : Purpose} (hq : q = .shutdown ∨ q = .exit) : q ∉ purposes new :=
            ht.notMem_shutdown hft (Or.inr ⟨hl, hother⟩) hq
          exact ShutdownPoint.Spoke.append h (hnone (Or.inl rfl)) (hnone (Or.inr rfl))
      | _ => trivial
  | start mode p =>
      by_cases hp : p = .enter
      · subst hp
        trivial
      · have hother := hstart (Task.isStarter_start hp)
        -- as long as the connection is not known the others are silent
        have hsilent (ha : s.attached = false) : s'.attached = false ∧ t.purpose? = none ∧
            purposes new = [] := by
          have hnone : t.purpose? = none := by
            rw [Option.eq_none_iff_forall_ne_some]
            intro q hq
            rw [Task.attached_of_purpose hft hspoke hrun hother hq] at ha
            cases ha
          refine ⟨?_, hnone, ?_⟩
          · rcases ht.attached with he | ⟨hs, _⟩
            · exact he.trans ha
            · rw [hother] at hs
              cases hs
          · rw [List.eq_nil_iff_forall_not_mem]
            intro q hq
            have := ht.purposed q hq
            rw [hnone] at this
            cases this
        have hconn := ht.connected hother
        cases p with
        | enter => trivial
        | announceStarting _ | checkBinary | spawn =>
            obtain ⟨ha, hc⟩ := h
            exact ⟨(hsilent ha).1, hconn.mpr hc⟩
        | greet =>
            obtain ⟨ha, hpurposes, hissued⟩ := h
            obtain ⟨ha', hnone, hnew⟩ := hsilent ha
            refine ⟨ha', by rw [purposes_append, hpurposes, hnew]; rfl, ?_⟩
            intro c' hc'
            obtain ⟨c, hc, he⟩ := ht.issued hother (by rw [hnone]; simp) c' hc'
            exact he.trans (hissued c hc)
        | awaitGreeting id =>
            obtain ⟨ha, hpurposes, hid⟩ := h
            obtain ⟨ha', -, hnew⟩ := hsilent ha
            exact ⟨ha', by rw [purposes_append, hpurposes, hnew]; rfl, hid⟩
        | acknowledge info =>
            obtain ⟨ha, hpurposes, hgranted⟩ := h
            obtain ⟨ha', -, hnew⟩ := hsilent ha
            exact ⟨ha', by rw [purposes_append, hpurposes, hnew]; rfl, hgranted.append new⟩
        | publish info =>
            obtain ⟨ha, hpurposes, hack⟩ := h
            obtain ⟨ha', -, hnew⟩ := hsilent ha
            exact ⟨ha', by rw [purposes_append, hpurposes, hnew]; rfl, hack.append new⟩
        | shutdown q =>
            obtain ⟨ha, hq⟩ := h
            have hnone {q : Purpose} (hq : q = .shutdown ∨ q = .exit) : q ∉ purposes new :=
              ht.notMem_shutdown hft (Or.inl ⟨hother, hfu.2.1⟩) hq
            exact ⟨hattached ha, hq.append (hnone (Or.inl rfl)) (hnone (Or.inr rfl))⟩
        | _ => trivial

/-- Whoever shuts the server down holds the lock. -/
theorem Task.stopper_of_isStopping (hf : t.Fits s i) (h : t.isStopping = true) :
    s.stopper = some i := by
  unfold Task.isStopping at h
  split at h
  · exact (hf (by simp)).1
  · exact (hf (by simp)).1
  · cases h

end Others

/-! ### Runs -/

/-- What holds of a system and of the conversation that has led to it. -/
structure Conversing (g : Settings) (lines : List Line) (σ : System) : Prop where
  traced : Traced lines σ.state
  ordered : InOrder g lines
  published : σ.state.attached = true → Acknowledged lines
  running : σ.state.lifecycle = .running → σ.state.attached = true
  unused : σ.state.used = false → σ.state.attached = false ∧ σ.state.connection = none
  /-- As long as the server runs nobody has asked it to shut down but a call that is
  still doing so. -/
  asked : σ.state.lifecycle = .running → .shutdown ∈ purposes lines →
    ∃ (i : Nat) (t : Thread), σ.threads[i]? = some t ∧ t.task.isStopping = true
  spoke : ∀ (i : Nat) (t : Thread), σ.threads[i]? = some t → t.task.Spoke lines σ.state

theorem conversing_initial (g : Settings) : Conversing g [] {} where
  traced := traced_initial
  ordered := inOrder_initial g
  published := by simp
  running := by simp
  unused := fun _ => ⟨rfl, rfl⟩
  asked := by simp
  spoke := by simp

theorem Task.isEntry_spoke {t : Task} (h : t.isEntry = true) (lines : List Line) (s : State) :
    t.Spoke lines s := by
  rcases Task.isEntry_cases h with ⟨mode, rfl⟩ | rfl | ⟨method, params, rfl⟩ <;> trivial

/-- Listening keeps what holds, if threads stand where they stood and new ones stand
at an entry. -/
theorem Conversing.listen {g : Settings} {lines heard : List Line} {σ σ' : System} {es : List Effect}
    (h : Conversing g lines σ) (hinv : Invariant σ) (hl : Listens lines heard σ.state (σ'.state, es))
    (hq : Quiet σ.state σ'.state) (hsame : SameTasks σ σ')
    (hlen : σ.threads.length ≤ σ'.threads.length) :
    Conversing g (lines ++ (heard ++ written none es)) σ' := by
  have ht : Tells g lines (heard ++ written none es) .done σ.state σ'.state :=
    hl.tells h.ordered hq.attached fun hr => hq.lifecycle ▸ hr
  refine ⟨ht.traced, ht.ordered, ?_, ?_, ?_, ?_, ?_⟩
  · exact fun ha => (h.published (hq.attached ▸ ha)).append _
  · exact fun hr => hq.attached.trans (h.running (hq.lifecycle ▸ hr))
  · intro hu
    obtain ⟨ha, hc⟩ := h.unused (hq.used ▸ hu)
    exact ⟨hq.attached.trans ha, hl.connected.mpr hc⟩
  · intro hr hm
    -- Listening adds no purpose.
    have hm : .shutdown ∈ purposes lines := by
      rw [purposes_append, hl.silent, List.append_nil] at hm
      exact hm
    obtain ⟨i, t, hi, hstop⟩ := h.asked (hq.lifecycle ▸ hr) hm
    obtain ⟨u, hu⟩ : ∃ u, σ'.threads[i]? = some u :=
      ⟨_, List.getElem?_eq_getElem (Nat.lt_of_lt_of_le (List.getElem?_eq_some_iff.mp hi).1 hlen)⟩
    rcases hsame i u hu with ⟨hnone, _⟩ | ⟨t', ht', he⟩
    · rw [hi] at hnone
      cases hnone
    · obtain rfl := Option.some.inj (hi.symm.trans ht')
      exact ⟨i, u, hu, by rw [he]; exact hstop⟩
  · intro j u hu
    rcases hsame j u hu with ⟨_, he⟩ | ⟨v, hv, he⟩
    · exact Task.isEntry_spoke he _ _
    · rw [he]
      exact (h.spoke j v hv).aside (i := j) (hinv.fits j v hv) ht trivial trivial h.running (fun _ => rfl)
        fun hne => absurd rfl hne

/-- **A step of a thread keeps what holds.** -/
theorem Conversing.advance {g : Settings} {lines : List Line} {σ : System} {i : Nat} {t : Thread}
    {p : Progress} (h : Conversing g lines σ) (hinv : Invariant σ) (hi : σ.threads[i]? = some t)
    (hp : step g i t σ.state = some p) :
    Conversing g (lines ++ written t.task.purpose? p.effects) (σ.advance i t p) := by
  have hproper := step_proper hinv.sound (hinv.fits i t hi) hp
  have hinv' := hinv.advance hi hproper
  have hfit' := hproper.fits
  -- nobody but the one call that holds the lock can be shutting the server down
  have hunasked : t.task = .stop .look → σ.state.lifecycle = .running → .shutdown ∉ purposes lines := by
    intro hlook hr hm
    obtain ⟨k, u, hk, hstop⟩ := h.asked hr hm
    have hlooks := hinv.fits i t hi
    rw [hlook] at hlooks
    have hmine := (hlooks (by simp)).1
    rw [Task.stopper_of_isStopping (hinv.fits k u hk) hstop, Option.some.injEq] at hmine
    subst hmine
    obtain rfl := Option.some.inj (hk.symm.trans hi)
    rw [hlook] at hstop
    cases hstop
  obtain ⟨ht, hspoke⟩ := step_tells h.traced h.ordered (hinv.fits i t hi) (h.spoke i t hi) h.published
    h.running h.unused hunasked hp
  have hfits := hinv.fits i t hi
  refine ⟨ht.traced, ht.ordered, ?_, ?_, ?_, ?_, ?_⟩
  · intro ha
    rcases ht.attached with he | ⟨_, _, hack⟩
    · exact (h.published (he ▸ ha)).append _
    · exact hack.append _
  · intro hr
    rcases ht.running hr with hr' | ⟨ha, _⟩
    · have ha := h.running hr'
      rcases ht.attached with he | ⟨_, he, _⟩
      · exact he.trans ha
      · exact he
    · exact ha
  · intro hu
    have hu := hproper.turn.unused hu
    have hstart : t.task.isStarter = false := by
      by_contra hst
      rw [hfits.used (by simpa using hst)] at hu
      cases hu
    obtain ⟨ha, hc⟩ := h.unused hu
    refine ⟨?_, (ht.connected hstart).mpr hc⟩
    rcases ht.attached with he | ⟨hst, _⟩
    · exact he.trans ha
    · rw [hstart] at hst
      cases hst
  · intro hr hm
    have hrunning : σ.state.lifecycle = .running :=
      (ht.running hr).resolve_right fun hnot => hnot.2 hm
    -- the call that shuts the server down is this one, or it has not moved
    have hself (hstop : t.task.isStopping = true) : ∃ (j : Nat) (u : Thread),
        (σ.advance i t p).threads[j]? = some u ∧ u.task.isStopping = true := by
      rcases stopping_of_step hstop hp with hstop' | ⟨moved, hover⟩
      · exact ⟨i, _, System.getElem?_advance_self hi p, hstop'⟩
      · rw [hover] at hfit'
        have hl : p.state.lifecycle = .stopped := (hfit' (by simp)).2.1
        rw [show p.state.lifecycle = .running from hr] at hl
        cases hl
    rw [purposes_append, List.mem_append] at hm
    rcases hm with hm | hm
    · obtain ⟨k, u, hk, hstop⟩ := h.asked hrunning hm
      by_cases hki : k = i
      · subst hki
        obtain rfl := Option.some.inj (hk.symm.trans hi)
        exact hself hstop
      · exact ⟨k, u, System.getElem?_advance_of_ne hk hki t p, hstop⟩
    · rcases Task.shuts_of_purpose (ht.purposed _ hm) (Or.inl rfl) with ⟨mode, q, htask⟩ | ⟨q, htask⟩
      · rw [htask] at hfits
        have hl : σ.state.lifecycle = .starting := hfits.2.1
        rw [hl] at hrunning
        cases hrunning
      · exact hself (by rw [htask]; rfl)
  · intro j u hu
    rcases getElem?_set_append hu with ⟨rfl, rfl⟩ | ⟨hne, hj⟩ | ⟨_, hu⟩
    · exact hspoke
    · refine (h.spoke j u hj).aside (hinv.fits j u hj) ht hfits (h.spoke i t hi) h.running ?_
        fun _ => Ne.symm hne
      intro hst
      by_contra hb
      exact hne (hinv.unique j i u t hj hi hst (by simpa using hb))
    · obtain ⟨task, htask, rfl⟩ := List.mem_map.mp hu
      rw [hproper.started task htask]
      trivial

/-- **An event keeps what holds.** -/
theorem Conversing.happen {g : Settings} {lines : List Line} {σ : System} {e : Event} {r : Run}
    (h : Conversing g lines σ) (hinv : Invariant σ) (hr : (Run.begin σ).happen? g e = some r) :
    Conversing g (lines ++ (e.heard σ ++ written (e.purpose? σ) r.effects)) r.system ∧
      Invariant r.system := by
  -- Everything but an advance is calm, and shares this argument.
  have hcalm {σ' : System} {es : List Effect} {heard : List Line} (hstep : Step g σ es σ')
      (hl : Listens lines heard σ.state (σ'.state, es)) (hq : Quiet σ.state σ'.state)
      (hsame : SameTasks σ σ') :
      Conversing g (lines ++ (heard ++ written none es)) σ' ∧ Invariant σ' :=
    ⟨h.listen hinv hl hq hsame hstep.length_le, (hstep.invariant hinv).1⟩
  cases e with
  | call task cancelled hasty =>
      simp only [Run.happen?] at hr
      split at hr <;> cases hr
      next entry =>
        exact hcalm (.call task cancelled hasty entry) (h.traced.listens rfl rfl rfl) (Quiet.refl _)
          (sameTasks_of_call rfl entry)
  | observe =>
      cases hr
      exact hcalm .observe (h.traced.listens rfl rfl rfl) ⟨rfl, Or.inl rfl⟩ (sameTasks_of_eq rfl)
  | advance i =>
      simp only [Run.happen?] at hr
      split at hr
      · cases hr
      · next t hi =>
          obtain ⟨p, hp, rfl⟩ := Option.map_eq_some_iff.mp hr
          have hi : σ.threads[i]? = some t := hi
          have hpurpose : (Event.advance i).purpose? σ = t.task.purpose? := by
            rw [Event.purpose?, hi, Option.bind_some]
          rw [hpurpose]
          exact ⟨h.advance hinv hi hp, ((Step.advance hi hp).invariant hinv).1⟩
  | cancel i =>
      simp only [Run.happen?] at hr
      split at hr
      · cases hr
      · next t hi =>
          split at hr <;> cases hr
          next minds =>
            exact hcalm (.cancel hi minds) (h.traced.release t.task .cancelled)
              (State.release_calm _ _ _).quiet (sameTasks_of_set rfl hi rfl)
  | expire i =>
      simp only [Run.happen?] at hr
      split at hr
      · cases hr
      · next t hi =>
          cases hr
          exact hcalm (.expire hi) (h.traced.release t.task .deadlineExceeded)
            (State.release_calm _ _ _).quiet (sameTasks_of_set rfl hi rfl)
  | deed d =>
      cases hr
      exact hcalm (.deed d) (h.traced.deed d σ.threads) (d.act_calm _).quiet (sameTasks_of_eq rfl)

/-- Whatever happens, a conversation goes on in order. -/
theorem Conversing.converse {g : Settings} {lines more : List Line} {σ τ : System}
    {events : List Event} (h : Conversing g lines σ) (hinv : Invariant σ)
    (hc : converse? g events σ = some (τ, more)) : Conversing g (lines ++ more) τ ∧ Invariant τ := by
  induction events generalizing σ lines more with
  | nil =>
      cases hc
      rw [List.append_nil]
      exact ⟨h, hinv⟩
  | cons e events ih =>
      obtain ⟨r, hr, hc⟩ := Option.bind_eq_some_iff.mp hc
      obtain ⟨⟨υ, rest⟩, hrest, he⟩ := Option.map_eq_some_iff.mp hc
      cases he
      obtain ⟨h', hinv'⟩ := h.happen hinv hr
      have hlast := ih h' hinv' hrest
      rwa [List.append_assoc] at hlast

/-- **The protocol's order is kept on the wire**, in every run of a supervisor: whoever
calls it and in which order the calls take their steps, whatever the server sends, when
it exits, and however many writes it takes. Leaving refusals of the server's requests
aside, the client's messages begin with the greeting. The greeting, the acknowledgement,
the request to shut down and the farewell are each said at most once. The acknowledgement
comes behind a response that grants the greeting, and the farewell behind one that grants
the shutdown. No message that a caller passes, and no request to shut down, comes before
the acknowledgement. And nothing else is ever written. -/
theorem wire_order {g : Settings} {events : List Event} {σ : System} {lines : List Line}
    (h : converse? g events {} = some (σ, lines)) : InOrder g lines := by
  have := ((conversing_initial g).converse invariant_initial h).1.ordered
  rwa [List.nil_append] at this

/-- What a server answers that agrees to shut down. -/
def shutdownFrame : Bytes :=
  Frame.encode (utf8 "\x7b\"jsonrpc\":\"2.0\",\"id\":2,\"result\":null\x7d")

/-- A request of the server, and its agreement on the protocol behind it. -/
def askingFrames : Bytes :=
  Frame.encode (utf8 "\x7b\"jsonrpc\":\"2.0\",\"id\":7,\"method\":\"workspace/configuration\"\x7d") ++
    greetingFrame

/-- A server asks for something, agrees on the protocol, takes a notification whose
method is that of the farewell, and is shut down. -/
def servedEvents : List Event :=
  [.call (.start .run .enter) false false, .advance 0, .advance 0, .advance 0, .advance 0,
    .advance 0, .deed (.send (askingFrames.take 50)), .deed (.send (askingFrames.drop 50)), .advance 0,
    .advance 0, .advance 0, .advance 0, .call (.notify "exit" .absent .check) false false, .advance 2,
    .advance 2, .call (.stop .acquire) false false, .advance 3, .advance 3, .advance 3,
    .deed (.send shutdownFrame), .advance 3, .advance 3, .deed (.exit 0), .advance 3, .advance 3,
    .advance 3, .advance 3, .advance 3]

/-- How many lines of a conversation refuse a request. -/
def refusals (lines : List Line) : Nat :=
  lines.countP fun
    | .refused _ => true
    | _ => false

theorem served_conversed :
    ∃ p, converse? presentServer servedEvents {} = some p ∧
      (purposes p.2, refusals p.2) =
        ([.greeting, .acknowledgement, .passed "exit" .absent, .shutdown, .exit], 1) :=
  Option.map_eq_some_iff.mp (by decide +kernel)

/-- Everything that a client can say is said, and in order. -/
theorem served_in_order :
    ∃ σ lines, converse? presentServer servedEvents {} = some (σ, lines) ∧
      purposes lines = [.greeting, .acknowledgement, .passed "exit" .absent, .shutdown, .exit] ∧
      InOrder presentServer lines := by
  obtain ⟨⟨σ, lines⟩, hc, hsame⟩ := served_conversed
  exact ⟨σ, lines, hc, (Prod.mk.inj hsame).1, wire_order hc⟩

end LanguageClient.Supervisor
