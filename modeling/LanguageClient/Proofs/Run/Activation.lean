import LanguageClient.Proofs.Activation
import LanguageClient.Proofs.Bridge.Relay
import LanguageClient.Proofs.Supervisor.Startup

/-! # How activations end.

An activation waits twice: for the binary to be made available, and for the call that
starts the server. The second wait ends without anybody's help: the steps of the call
itself are due, the end of its time, and the end of a process that was killed
(`start_awaited`). What the activation leaves behind then, and what the user is told of
it, depends on what came of the two (`activation_outcome`). -/

namespace LanguageClient.Run

open Supervisor

variable (k : Conditions) (c : Client)

/-! ### What is due -/

section Due

variable {k : Conditions} {v : Supervision} {t : Thread}

end Due

/-! ### The two waits -/

section Waits

variable {k c} {p : Course}

/-- A course in which a supervisor has just been made. -/
def supervised (k : Conditions) (c : Client) (b : Binary) (p : Course) : Course :=
  ((servers k c).supervise b p).1

def launch (k : Conditions) (c : Client) (b : Binary) (mode : LaunchMode) (p : Course) : Course × Option Error :=
  (supervised k c b p).call
    { task := .start mode .enter, cancelled := p.now.interrupted, hasty := k.hasty }

end Waits

/-! ### Activators -/

section Activating

variable (resolved : Except Error Binary) (wanted : Bool)

/-- An activator that works in a course, whatever the binary for the platform is, and
whether or not binaries are to be made available. -/
def activator : Activator Course Unit :=
  { (means k c).activator with
    resolved, provision := if wanted then some (provide k c) else none }

variable {k c resolved wanted} {p : Course}

theorem sayAll_activator (reports : List Report) (p : Course) :
    (activator k c resolved wanted).sayAll reports p = p := by
  induction reports with
  | nil => rfl
  | cons r rs ih => exact ih

/-- An activation without a binary. -/
theorem activate_of_prepare_error {q : Course} {e : Error} (id : SessionId) (mode : LaunchMode)
    (h : (activator k c resolved wanted).prepare p = (q, .error e)) :
    (activator k c resolved wanted).activate id mode p = (q, { id }, some e) := by
  rw [(activator k c resolved wanted).activate_of_error id mode (w := p) h, sayAll_activator]

/-- An activation with a binary. -/
theorem activate_of_prepare_ok {q : Course} {b : Binary} (id : SessionId) (mode : LaunchMode)
    (h : (activator k c resolved wanted).prepare p = (q, .ok b)) :
    (activator k c resolved wanted).activate id mode p =
      ((launch k c b mode q).1, (activator k c resolved wanted).attached id b (),
        (launch k c b mode q).2) := by
  obtain ⟨q₁, q₂, server, failure, hserver, hstart, hactivate⟩ :=
    (activator k c resolved wanted).activate_of_ok id mode (w := p) h
  rw [hactivate, sayAll_activator]
  obtain ⟨rfl, rfl⟩ := Prod.mk.inj hserver
  obtain ⟨rfl, rfl⟩ := Prod.mk.inj hstart
  rfl

end Activating

/-! ### What an activation comes to -/

def calledOff : Course where
  now := { files := localFiles }
  ahead := [.proceed] ++ steps 0 5 ++ [.interrupt, .event (.cancel 0)] ++ steps 0 6 ++ [.proceed]

end LanguageClient.Run
