import LanguageClient.Activation
import LanguageClient.Rehearsal.Scene

/-! # Stages.

A stage rehearses activations: each of them has a scene of its own, in which
the same script is followed, and what is seen in all of them is kept in one
order. -/

namespace LanguageClient.Rehearsal

open Supervisor

/-- The scenes of several activations. -/
structure Stage where
  /-- What every scene begins as, except for its binary. -/
  opening : Scene
  scenes : List Scene := []
  /-- What was seen, the last first. -/
  seen : List Sight := []

namespace Stage

/-- Something is said that belongs to no scene. -/
def say (r : Report) (st : Stage) : Stage := { st with seen := .effect (.report r) :: st.seen }

/-- Does something in a scene, and notes what is seen there. -/
def within (i : Nat) (f : Scene → Scene) (st : Stage) : Stage :=
  match st.scenes[i]? with
  | none => st
  | some sc =>
    let after := f sc
    { st with
      scenes := st.scenes.set i after
      seen := (after.seenSince sc).reverse ++ st.seen }

/-- The scene of the last activation that got so far. -/
def current? (st : Stage) : Option Scene := st.scenes.getLast?

def withinCurrent (f : Scene → Scene) (st : Stage) : Stage := st.within (st.scenes.length - 1) f

def call (i : Nat) (t : Thread) (st : Stage) : Stage × Option Error :=
  let result := (st.scenes[i]?.bind fun sc => let (sc, j) := sc.call t; sc.result? j).join
  (st.within i fun sc => (sc.call t).1, result)

/-- Supervisors on a stage, by the number of their scene. -/
def servers : Servers Stage Nat where
  supervise binary st :=
    ({ st with scenes := st.scenes ++ [{ st.opening with settings := { st.opening.settings with binary } }] },
      st.scenes.length)
  start i mode st := st.call i { task := .start mode .enter }
  stop i st := (st.call i { task := .stop .acquire }).1
  notify i method params st := st.call i { task := .notify method (.json params) .check }
  state i st := (st.scenes[i]?.map (·.state.lifecycle)).getD .stopped

/-- What was seen since an earlier state of the stage, in order. -/
def seenSince (st before : Stage) : List Sight :=
  (st.seen.take (st.seen.length - before.seen.length)).reverse

def kills (st : Stage) : Nat := (st.scenes.map (·.kills)).foldl (· + ·) 0

end Stage

end LanguageClient.Rehearsal
