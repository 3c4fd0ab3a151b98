import LanguageClient.Proofs.Supervisor.System
import LanguageClient.Rehearsal.Scene

/-! # A scene is one of the runs.

Playing a scene decides who moves next. Whatever it decides, it only makes steps
that `Supervisor.Step` allows (`play_follows`, `call_follows`), so that what
holds in every interleaving holds of every scene. -/

namespace LanguageClient.Rehearsal

open Supervisor

def Scene.system (sc : Scene) : System := ⟨sc.state, sc.threads⟩

/-- A scene comes after another: the supervisor got from one to the other by a
run, and the effects of that run were seen. -/
structure Follows (sc sc' : Scene) : Prop where
  settings : sc'.settings = sc.settings
  run : ∃ path es, Steps sc.settings sc.system path es sc'.system ∧
    effects sc'.seen.reverse = effects sc.seen.reverse ++ es

theorem Follows.refl (sc : Scene) : Follows sc sc :=
  ⟨rfl, _, [], Steps.refl, by simp⟩

theorem Follows.trans {a b c : Scene} (h : Follows a b) (h' : Follows b c) : Follows a c := by
  obtain ⟨hsettings, path, es, hs, hseen⟩ := h
  obtain ⟨hsettings', path', es', hs', hseen'⟩ := h'
  rw [hsettings] at hs'
  obtain ⟨path'', hpath⟩ := hs.trans hs'
  refine ⟨hsettings'.trans hsettings, path'', es ++ es', hpath, ?_⟩
  rw [hseen', hseen, List.append_assoc]

/-- The server only reads: nothing happens to the supervisor. -/
theorem Follows.of_eq {sc sc' : Scene} (hsettings : sc'.settings = sc.settings)
    (hsystem : sc'.system = sc.system)
    (hseen : effects sc'.seen.reverse = effects sc.seen.reverse) : Follows sc sc' := by
  have hs : Steps sc.settings sc.system [sc.state.lifecycle] [] sc'.system := by
    rw [hsystem]
    exact Steps.refl
  refine ⟨hsettings, _, [], hs, ?_⟩
  rw [hseen, List.append_nil]

theorem effects_map (es : List Supervisor.Effect) : effects (es.map .effect) = es := by
  unfold effects
  rw [List.filterMap_map]
  exact List.filterMap_some

theorem effects_record (es : List Supervisor.Effect) (sc : Scene) :
    effects (sc.record es).seen.reverse = effects sc.seen.reverse ++ es := by
  have h : (sc.record es).seen.reverse = sc.seen.reverse ++ es.map .effect := by
    simp [Scene.record]
  rw [h, effects, List.filterMap_append]
  exact congrArg (_ ++ ·) (effects_map es)

/-- A step of the supervisor whose effects are recorded. -/
theorem follows_record {sc sc' : Scene} {es : List Supervisor.Effect}
    (hsettings : sc'.settings = sc.settings) (hseen : sc'.seen = sc.seen)
    (hs : Step sc.settings sc.system es sc'.system) : Follows sc (sc'.record es) := by
  refine ⟨hsettings, _, es, Steps.refl.step hs, ?_⟩
  rw [effects_record, hseen]

namespace Scene

variable {sc sc' : Scene}

/-! ### Moves -/

theorem fork_follows {task : Task} {cancelled hasty : Bool} (he : task.isEntry = true) (sc : Scene) :
    Follows sc (sc.fork { task, cancelled, hasty }) := by
  refine ⟨rfl, _, [], Steps.refl.step (.call task cancelled hasty he), ?_⟩
  rw [List.append_nil]
  rfl

theorem deed_follows (d : Deed) (sc : Scene) : Follows sc (sc.act d.act) :=
  follows_record rfl rfl (.deed d)

theorem stepThreads?_follows (h : sc.stepThreads? = some sc') : Follows sc sc' := by
  obtain ⟨⟨t, i⟩, hmem, hstep⟩ := List.exists_of_findSome?_eq_some h
  obtain ⟨p, hp, rfl⟩ := Option.map_eq_some_iff.mp hstep
  exact follows_record rfl rfl (.advance (List.mem_zipIdx_iff_getElem?.mp hmem) hp)

theorem passTime?_follows (h : sc.passTime? = some sc') : Follows sc sc' := by
  obtain ⟨⟨t, i⟩, hmem, hpass⟩ := List.exists_of_findSome?_eq_some h
  simp only at hpass
  split at hpass <;> cases hpass
  exact follows_record rfl rfl (Step.expire (t := t) (List.mem_zipIdx_iff_getElem?.mp hmem))

/-- One caller after the other gives up; nobody stands elsewhere for it. -/
theorem cancel_follows (ts : List Thread) (k : Nat) (sc : Scene)
    (h : ∀ j, ts[j]? = sc.threads[k + j]?) :
    Follows sc ((ts.zipIdx k).foldl
      (fun sc (t, i) =>
        if t.task.isCancellable then sc.release i { t with cancelled := true } .cancelled else sc)
      sc) := by
  induction ts generalizing k sc with
  | nil => exact Follows.refl sc
  | cons t ts ih =>
      -- The thread at the front, and those behind it, are still as they were listed.
      have ht : sc.threads[k]? = some t := (h 0).symm
      have hlater : ∀ j, ts[j]? = sc.threads[k + 1 + j]? := by
        intro j
        rw [Nat.add_assoc, Nat.add_comm 1 j]
        exact h (j + 1)
      rw [List.zipIdx_cons, List.foldl_cons]
      simp only
      split
      · next hminds =>
          have hstep : Follows sc (sc.release k { t with cancelled := true } .cancelled) :=
            follows_record rfl rfl (Step.cancel (t := t) ht hminds)
          refine hstep.trans (ih (k + 1) _ ?_)
          intro j
          have hne : k ≠ k + 1 + j := by omega
          rw [hlater j]
          exact (List.getElem?_set_ne hne).symm
      · exact ih (k + 1) sc hlater

theorem cancelAll_follows (sc : Scene) : Follows sc sc.cancelAll := by
  apply cancel_follows
  intro j
  rw [Nat.zero_add]

theorem readMessage?_follows (h : sc.readMessage? = some sc') : Follows sc sc' := by
  unfold readMessage? at h
  simp only at h
  split at h <;> cases h
  refine Follows.of_eq rfl rfl ?_
  simp [effects]

/-- An action of the script is a sequence of events. -/
theorem perform_follows (a : Action) (sc : Scene) : Follows sc (sc.perform a) := by
  cases a with
  | send message => exact deed_follows (.send (Frame.encode message)) sc
  | exit code => exact deed_follows (.exit code) sc
  | hangup => exact deed_follows .hangup sc
  | deafen => exact deed_follows (.accept (some 0)) sc
  | interrupt i =>
      cases i with
      | stop => exact fork_follows rfl sc
      | cancel => exact cancelAll_follows sc

theorem stepServer?_follows (h : sc.stepServer? = some sc') : Follows sc sc' := by
  unfold stepServer? at h
  split at h <;> cases h
  next a agenda _ _ =>
    have hread : Follows sc { sc with agenda } := Follows.of_eq rfl rfl rfl
    exact hread.trans (perform_follows a _)

/-! ### Plays -/

/-- Whoever moves, it is a step. -/
theorem move?_follows (h : sc.move? = some sc') : Follows sc sc' := by
  unfold move? moveNow? at h
  rcases Option.or_eq_some_iff.mp h with h | ⟨_, h⟩
  · rcases Option.or_eq_some_iff.mp h with h | ⟨_, h⟩
    · exact readMessage?_follows h
    · rcases Option.or_eq_some_iff.mp h with h | ⟨_, h⟩
      · exact stepThreads?_follows h
      · exact stepServer?_follows h
  · exact passTime?_follows h

/-- **Playing a scene is a run of its supervisor.** -/
theorem play_follows (n : Nat) (sc : Scene) : Follows sc (sc.play n) := by
  induction n generalizing sc with
  | zero => exact Follows.refl sc
  | succ n ih =>
      unfold play
      split
      · exact Follows.refl sc
      · next sc' h => exact (move?_follows h).trans (ih sc')

/-- **A call that is played to its end is a run**, too. -/
theorem call_follows {task : Task} {cancelled hasty : Bool} (he : task.isEntry = true)
    (sc : Scene) : Follows sc (sc.call { task, cancelled, hasty }).1 :=
  (fork_follows he sc).trans (play_follows enough _)

end Scene

end LanguageClient.Rehearsal
