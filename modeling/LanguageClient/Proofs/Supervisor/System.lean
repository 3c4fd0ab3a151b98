import LanguageClient.Proofs.Supervisor.Control

/-! # A supervisor at work.

A `System` is a supervisor together with every thread that was ever started on
it. In one `Step` somebody makes a call, a thread takes one step, a caller
gives up, the time of a thread runs out, or the server process does something
of its own accord. Which of these comes next is open, so that `Steps` ranges
over every interleaving of any number of calls. -/

namespace LanguageClient.Supervisor

/-- A supervisor and the threads that were started on it. A thread keeps its
number when it has returned. -/
structure System where
  state : State := {}
  threads : List Thread := []

/-- What the server process does of its own accord. -/
inductive Deed where
  | exit (code : Int)
  /-- It writes octets to its output. -/
  | send (bytes : Bytes)
  /-- Its output ends. -/
  | hangup
  /-- It takes so many more writes, or all of them. -/
  | accept (left : Option Nat)
  /-- It writes octets to its error output. -/
  | complain (bytes : Bytes)

def Deed.act : Deed → State → State × List Effect
  | .exit code => State.exit code
  | .send bytes => State.onConnection (Rpc.Connection.receive bytes)
  | .hangup => State.onConnection Rpc.Connection.hangup
  | .accept left => State.onConnection fun c => (limitWrites left c, [])
  | .complain bytes => State.receiveErrors bytes

def Task.isEntry : Task → Bool
  | .start _ .enter | .stop .acquire | .notify _ _ .check => true
  | _ => false

/-- A system after a step of thread `i`. -/
def System.advance (σ : System) (i : Nat) (t : Thread) (p : Progress) : System where
  state := p.state
  threads := σ.threads.set i { t with task := p.task } ++ p.started.map Thread.ofTask

/-- One step of a system, with what can be seen of it. -/
inductive Step (g : Settings) : System → List Effect → System → Prop where
  /-- Somebody makes a call. -/
  | call {σ : System} (task : Task) (cancelled hasty : Bool) (entry : task.isEntry = true) :
      Step g σ [] { σ with threads := σ.threads ++ [{ task, cancelled, hasty }] }
  /-- Somebody wants to be told of transitions. -/
  | observe {σ : System} :
      Step g σ [] { σ with state := { σ.state with observers := σ.state.observers + 1 } }
  /-- A thread goes on. -/
  | advance {σ : System} {i : Nat} {t : Thread} {p : Progress} (here : σ.threads[i]? = some t)
      (moves : step g i t σ.state = some p) :
      Step g σ p.effects (σ.advance i t p)
  /-- The caller of a thread gives up. -/
  | cancel {σ : System} {i : Nat} {t : Thread} (here : σ.threads[i]? = some t)
      (minds : t.task.isCancellable = true) :
      Step g σ (σ.state.release t.task .cancelled).2
        { state := (σ.state.release t.task .cancelled).1
          threads := σ.threads.set i { t with cancelled := true } }
  /-- The time of a thread runs out, perhaps before the thread first looks at it. -/
  | expire {σ : System} {i : Nat} {t : Thread} (here : σ.threads[i]? = some t) :
      Step g σ (σ.state.release t.task .deadlineExceeded).2
        { state := (σ.state.release t.task .deadlineExceeded).1
          threads := σ.threads.set i { t with expired := true } }
  /-- The process does something. -/
  | deed {σ : System} (d : Deed) :
      Step g σ (d.act σ.state).2 { σ with state := (d.act σ.state).1 }

/-- Goes on along a path: only a change of state is noted. -/
def visit (path : List Lifecycle) (next : Lifecycle) : List Lifecycle :=
  if path.getLast? = some next then path else path ++ [next]

/-- Any number of steps from one system to another, with the successive states
of the server, the first and the last included, and all that can be seen. -/
inductive Steps (g : Settings) (σ : System) : List Lifecycle → List Effect → System → Prop where
  | refl : Steps g σ [σ.state.lifecycle] [] σ
  | step {path : List Lifecycle} {es new : List Effect} {τ υ : System} :
      Steps g σ path es τ → Step g τ new υ →
        Steps g σ (visit path υ.state.lifecycle) (es ++ new) υ

/-- Two runs, one after the other. -/
theorem Steps.trans {g : Settings} {σ τ υ : System} {p q : List Lifecycle} {es new : List Effect}
    (h : Steps g σ p es τ) (h' : Steps g τ q new υ) : ∃ path, Steps g σ path (es ++ new) υ := by
  induction h' with
  | refl =>
      rw [List.append_nil]
      exact ⟨p, h⟩
  | step _ hstep ih =>
      obtain ⟨path, hpath⟩ := ih
      rw [← List.append_assoc]
      exact ⟨_, hpath.step hstep⟩

/-- How often a process was asked for. -/
def spawns (es : List Effect) : Nat :=
  es.countP fun
    | .spawned _ => true
    | _ => false

@[simp] theorem spawns_nil : spawns [] = 0 := rfl

@[simp] theorem spawns_append (es new : List Effect) : spawns (es ++ new) = spawns es + spawns new :=
  List.countP_append

/-! ### Threads -/

/-- A thread of a system in which thread `i` has become `t'` and others have
been started: thread `i` itself, an old one, or a new one. -/
theorem getElem?_set_append {ts new : List Thread} {i j : Nat} {t' u : Thread}
    (h : (ts.set i t' ++ new)[j]? = some u) :
    j = i ∧ u = t' ∨ j ≠ i ∧ ts[j]? = some u ∨ ts.length ≤ j ∧ u ∈ new := by
  by_cases hj : j < (ts.set i t').length
  · rw [List.getElem?_append_left hj] at h
    by_cases hij : i = j
    · subst hij
      rw [List.length_set] at hj
      rw [List.getElem?_set_self hj] at h
      exact Or.inl ⟨rfl, (Option.some.inj h).symm⟩
    · rw [List.getElem?_set_ne hij] at h
      exact Or.inr (Or.inl ⟨Ne.symm hij, h⟩)
  · rw [List.getElem?_append_right (Nat.le_of_not_lt hj)] at h
    rw [List.length_set] at hj
    exact Or.inr (Or.inr ⟨Nat.le_of_not_lt hj, List.mem_of_getElem? h⟩)

theorem System.getElem?_advance_self {σ : System} {i : Nat} {t : Thread} (hi : σ.threads[i]? = some t)
    (p : Progress) : (σ.advance i t p).threads[i]? = some { t with task := p.task } := by
  have hlt := (List.getElem?_eq_some_iff.mp hi).1
  rw [System.advance, List.getElem?_append_left (by rwa [List.length_set]), List.getElem?_set_self hlt]

theorem System.getElem?_advance_of_ne {σ : System} {i j : Nat} {u : Thread}
    (hj : σ.threads[j]? = some u) (hne : j ≠ i) (t : Thread) (p : Progress) :
    (σ.advance i t p).threads[j]? = some u := by
  have hlt := (List.getElem?_eq_some_iff.mp hj).1
  rw [System.advance, List.getElem?_append_left (by rwa [List.length_set]),
    List.getElem?_set_ne (Ne.symm hne), hj]

/-! ### What a step is -/

/-- A deed of the process is calm. -/
theorem Deed.act_calm (d : Deed) (s : State) : Calm s (d.act s) := by
  cases d with
  | exit code => exact State.exit_calm code s
  | send bytes => exact State.onConnection_calm (Rpc.Connection.receive bytes) s
  | hangup => exact State.onConnection_calm Rpc.Connection.hangup s
  | accept left => exact State.onConnection_calm (fun c => (limitWrites left c, [])) s
  | complain bytes => exact State.receiveErrors_calm bytes s

/-- The threads of one system stand where those of another stood, and new ones
stand at an entry. -/
def SameTasks (σ σ' : System) : Prop :=
  ∀ (j : Nat) (u : Thread), σ'.threads[j]? = some u →
    σ.threads[j]? = none ∧ u.task.isEntry = true ∨ ∃ t, σ.threads[j]? = some t ∧ u.task = t.task

theorem sameTasks_of_eq {σ σ' : System} (h : σ'.threads = σ.threads) : SameTasks σ σ' :=
  fun _ u hu => Or.inr ⟨u, h ▸ hu, rfl⟩

/-- A thread that is told something stands where it stood. -/
theorem sameTasks_of_set {σ σ' : System} {i : Nat} {t t' : Thread}
    (h : σ'.threads = σ.threads.set i t') (hi : σ.threads[i]? = some t) (ht : t'.task = t.task) :
    SameTasks σ σ' := by
  intro j u hu
  rw [h, ← List.append_nil (σ.threads.set i t')] at hu
  rcases getElem?_set_append hu with ⟨rfl, rfl⟩ | ⟨_, hj⟩ | ⟨_, hn⟩
  · exact Or.inr ⟨t, hi, ht⟩
  · exact Or.inr ⟨u, hj, rfl⟩
  · cases hn

/-- A new call stands at an entry. -/
theorem sameTasks_of_call {σ σ' : System} {t : Thread} (h : σ'.threads = σ.threads ++ [t])
    (entry : t.task.isEntry = true) : SameTasks σ σ' := by
  intro j u hu
  rw [h] at hu
  by_cases hj : j < σ.threads.length
  · rw [List.getElem?_append_left hj] at hu
    exact Or.inr ⟨u, hu, rfl⟩
  · have hj : σ.threads.length ≤ j := Nat.le_of_not_lt hj
    rw [List.getElem?_append_right hj] at hu
    rw [List.mem_singleton.mp (List.mem_of_getElem? hu)]
    exact Or.inl ⟨List.getElem?_eq_none hj, entry⟩

/-- **A step is calm and leaves all threads where they stand, or it is a step of
one of them.** -/
theorem Step.calm_or_advances {g : Settings} {σ σ' : System} {es : List Effect}
    (h : Step g σ es σ') :
    Calm σ.state (σ'.state, es) ∧ SameTasks σ σ' ∨
      ∃ i t p, σ.threads[i]? = some t ∧ step g i t σ.state = some p ∧ es = p.effects ∧
        σ' = σ.advance i t p := by
  cases h with
  | call task cancelled hasty entry =>
      exact Or.inl ⟨Calm.refl _, sameTasks_of_call rfl entry⟩
  | observe => exact Or.inl ⟨⟨⟨rfl, Or.inl rfl⟩, by simp⟩, sameTasks_of_eq rfl⟩
  | advance here moves => exact Or.inr ⟨_, _, _, here, moves, rfl, rfl⟩
  | cancel here minds => exact Or.inl ⟨State.release_calm _ _ _, sameTasks_of_set rfl here rfl⟩
  | expire here => exact Or.inl ⟨State.release_calm _ _ _, sameTasks_of_set rfl here rfl⟩
  | deed d => exact Or.inl ⟨d.act_calm _, sameTasks_of_eq rfl⟩

/-- No thread is ever forgotten. -/
theorem Step.length_le {g : Settings} {σ σ' : System} {es : List Effect} (h : Step g σ es σ') :
    σ.threads.length ≤ σ'.threads.length := by
  cases h <;> simp [System.advance]

/-! ### Playing a run

A run can be played by saying what happens in which order. -/

/-- What can happen to a system. -/
inductive Event where
  | call (task : Task) (cancelled hasty : Bool)
  | observe
  | advance (i : Nat)
  | cancel (i : Nat)
  | expire (i : Nat)
  | deed (d : Deed)

/-- A system and how it came to be. -/
structure Run where
  system : System
  path : List Lifecycle
  effects : List Effect := []

namespace Run

def begin (σ : System) : Run := { system := σ, path := [σ.state.lifecycle] }

def extend (r : Run) (σ : System) (new : List Effect) : Run where
  system := σ
  path := visit r.path σ.state.lifecycle
  effects := r.effects ++ new

/-- A run after an event, `none` if that cannot happen now. -/
def happen? (g : Settings) (r : Run) : Event → Option Run
  | .call task cancelled hasty =>
    if task.isEntry then
      some (r.extend { r.system with threads := r.system.threads ++ [{ task, cancelled, hasty }] } [])
    else none
  | .observe =>
    some (r.extend { r.system with
      state := { r.system.state with observers := r.system.state.observers + 1 } } [])
  | .advance i =>
    match r.system.threads[i]? with
    | none => none
    | some t => (step g i t r.system.state).map fun p => r.extend (r.system.advance i t p) p.effects
  | .cancel i =>
    match r.system.threads[i]? with
    | none => none
    | some t =>
      if t.task.isCancellable then
        let (state, new) := r.system.state.release t.task .cancelled
        some (r.extend ⟨state, r.system.threads.set i { t with cancelled := true }⟩ new)
      else none
  | .expire i =>
    match r.system.threads[i]? with
    | none => none
    | some t =>
      let (state, new) := r.system.state.release t.task .deadlineExceeded
      some (r.extend ⟨state, r.system.threads.set i { t with expired := true }⟩ new)
  | .deed d =>
    let (state, new) := d.act r.system.state
    some (r.extend { r.system with state } new)

def play? (g : Settings) : List Event → Run → Option Run
  | [], r => some r
  | e :: es, r => (r.happen? g e).bind (play? g es)

variable {g : Settings} {σ : System} {r r' : Run}

/-- What happens to a run is a step of its system. -/
theorem happen?_steps {e : Event} (hs : Steps g σ r.path r.effects r.system)
    (h : r.happen? g e = some r') : Steps g σ r'.path r'.effects r'.system := by
  cases e with
  | call task cancelled hasty =>
      simp only [happen?] at h
      split at h <;> cases h
      next he => exact hs.step (.call task cancelled hasty he)
  | observe =>
      cases h
      exact hs.step .observe
  | advance i =>
      simp only [happen?] at h
      split at h
      · cases h
      · next t ht =>
          obtain ⟨p, hp, rfl⟩ := Option.map_eq_some_iff.mp h
          exact hs.step (.advance ht hp)
  | cancel i =>
      simp only [happen?] at h
      split at h
      · cases h
      · next t ht =>
          split at h <;> cases h
          next hc => exact hs.step (.cancel ht hc)
  | expire i =>
      simp only [happen?] at h
      split at h
      · cases h
      · next t ht =>
          cases h
          exact hs.step (.expire ht)
  | deed d =>
      cases h
      exact hs.step (.deed d)

/-- A run that can be played is one of steps. -/
theorem play?_steps {events : List Event} (hs : Steps g σ r.path r.effects r.system)
    (h : r.play? g events = some r') : Steps g σ r'.path r'.effects r'.system := by
  induction events generalizing r with
  | nil =>
      cases h
      exact hs
  | cons e events ih =>
      obtain ⟨r₁, he, hrest⟩ := Option.bind_eq_some_iff.mp h
      exact ih (happen?_steps hs he) hrest

/-- **What was played is a run.** -/
theorem steps_of_play? {events : List Event} (h : (begin σ).play? g events = some r) :
    Steps g σ r.path r.effects r.system :=
  play?_steps Steps.refl h

end Run

end LanguageClient.Supervisor
