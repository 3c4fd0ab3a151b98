import LanguageClient.Rpc.Frame
import LanguageClient.Rpc.Message

/-! # Connections.

A connection reads frames from one stream and writes frames to another.
Requests get the ids 1, 2, 3, … and wait for the response with their id;
notifications go to the handler for their method, or to the one registered
for `*`; requests of the server are refused. Once closed, a connection stays
closed.

Every operation is a step from one settled state to the next: it does what it
was asked for, and then the read loop and the waiting calls go on until
nothing can move. What can be seen from outside is returned as effects. -/

namespace LanguageClient.Rpc

inductive Params where
  | absent
  /-- A JSON value, written already. -/
  | json (bytes : Bytes)
  /-- A value that has no JSON form. -/
  | unencodable (reason : String)
  deriving DecidableEq, Repr

def Params.encode : Params → Except Error (Option Bytes)
  | .absent => .ok none
  | .json bytes => .ok (some bytes)
  | .unencodable reason => .error (.context "marshal message" (.plain reason))

/-- The parameters for a value, by its tokens, or for none. -/
def Params.ofTokens : Option (List Json.Token) → Params
  | none => .absent
  | some ts => .json (Json.compact ts)

/-- A call that was sent and has not returned. -/
structure Waiting where
  id : Nat
  /-- The response, once it has been dispatched. -/
  response : Option Message := none
  /-- Why the caller gave up, once it has. -/
  abandoned : Option Condition := none

/-- How a call ended. -/
inductive Outcome where
  | response (m : Message)
  | failed (e : Error)

/-- What an operation did that can be seen from outside. -/
inductive Effect where
  /-- Octets of one frame that were written. -/
  | wrote (frame : Bytes)
  /-- A notification reached the handler registered under a label. -/
  | notified (label method : String) (params : Option Bytes)
  /-- A waiting call returned. -/
  | returned (id : Nat) (outcome : Outcome)

/-- A handler for notifications: a label for it, or none if there is nothing
to be called. -/
abbrev Handler := Option String

structure Connection where
  /-- How many ids were given out. -/
  issued : Nat := 0
  /-- The ids whose response is still expected. -/
  pending : List Nat := []
  waiting : List Waiting := []
  handlers : List (String × Handler) := []
  closed : Bool := false
  /-- Why the connection was closed, if it was not by request. -/
  reason : Option Error := none
  /-- Whether something is to be closed with the connection. -/
  hasCloser : Bool := true
  closes : Nat := 0
  /-- What was received and not read yet. -/
  stream : Bytes := []
  /-- Whether nothing more will be received. -/
  ended : Bool := false
  /-- Whether the read loop has been asked to end. -/
  loopCancelled : Bool := false
  /-- Whether the read loop has ended. -/
  loopDone : Bool := false
  writer : Frame.Writer := {}

namespace Connection

/-! ### Closing -/

/-- Closes the connection, once. -/
def shutdown (reason : Option Error) (c : Connection) : Connection :=
  if c.closed then c
  else
    { c with
      closed := true, reason, pending := []
      closes := c.closes + (if c.hasCloser then 1 else 0) }

/-- What closing gives whoever asks for it: the error, if there is one, of closing what is
closed with the connection. Nothing is closed twice. -/
def closeError (failure : Option Error) (c : Connection) : Option Error :=
  if c.closed || !c.hasCloser then none else failure

/-! ### Sending -/

def send (m : Outgoing) (c : Connection) : Connection × List Effect × Option Error :=
  let r := Frame.write c.writer m.bytes
  ({ c with writer := r.writer },
    (if r.written.isEmpty then [] else [.wrote r.written]),
    r.error)

/-! ### Receiving -/

/-- The handler for a method. A method with a handler of its own never falls
back to `*`, even if there is nothing to be called. -/
def handlerFor (c : Connection) (method : String) : Handler :=
  match c.handlers.lookup method with
  | some h => h
  | none => (c.handlers.lookup "*").join

/-- Hands a response to the call that waits for it. -/
def deliver (m : Message) (c : Connection) : Connection :=
  match m.intId with
  | none => c
  | some id =>
    if c.pending.any fun p => (p : Int) = id then
      { c with
        pending := c.pending.filter fun p => (p : Int) ≠ id
        waiting := c.waiting.map fun w => if (w.id : Int) = id then { w with response := some m } else w }
    else c

def dispatch (m : Message) (c : Connection) : Connection × List Effect :=
  match m.kind with
  | .response | .error => (c.deliver m, [])
  | .notification =>
    match c.handlerFor m.method with
    | some label => (c, [.notified label m.method m.params])
    | none => (c, [])
  | .request =>
    let (c, effects, _) := c.send (.refusal (m.id.getD []) m.method)
    (c, effects)

/-- What the read loop does before it reads: it ends if it was asked to, or if
the connection is closed. -/
def loopTop (c : Connection) : Connection :=
  if c.loopCancelled then { c.shutdown (some (.condition .cancelled)) with loopDone := true }
  else if c.closed then { c with loopDone := true }
  else c

/-- Whether a read error only says that more has to be received. -/
def isBlocked (c : Connection) : Frame.ReadError → Bool
  | .endOfStream | .missingBody | .shortBody => !c.ended
  | _ => false

/-- One round of the read loop; `none` if it has ended or has to wait. -/
def readStep (c : Connection) : Option (Connection × List Effect) :=
  if c.loopDone then none
  else
    let r := Frame.read c.stream
    match r.outcome with
    | .error e =>
      if c.isBlocked e then none
      else
        let c := { c with stream := r.rest }
        if e = .missingLength then some (c.loopTop, [])
        else some ({ c.shutdown (some e.toError) with loopDone := true }, [])
    | .ok body =>
      let c := { c with stream := r.rest }
      match parse body with
      | .error _ => some (c.loopTop, [])
      | .ok m =>
        let (c, effects) := c.dispatch m
        some (c.loopTop, effects)

/-- Runs the read loop until it has to wait. Every round takes at least one
octet off the stream or ends the loop, so the length of the stream bounds the
rounds. -/
def readAll : Nat → Connection → Connection × List Effect
  | 0, c => (c, [])
  | fuel + 1, c =>
    match c.readStep with
    | none => (c, [])
    | some (c, effects) =>
      let (c, more) := readAll fuel c
      (c, effects ++ more)

/-! ### Waiting calls -/

/-- The ways in which a waiting call may return now. A response stands in front:
it came before the connection was closed, since none is delivered behind that. -/
def ready (c : Connection) (w : Waiting) : List Outcome :=
  (w.response.toList.map .response) ++
    (w.abandoned.toList.map fun e => .failed (.condition e)) ++
    (if c.closed then [.failed (.condition .connectionClosed)] else [])

/-- Lets every call that can return do so, oldest first. -/
def settleCalls (c : Connection) : Connection × List Effect :=
  let finished := c.waiting.filterMap fun w => (c.ready w).head?.map fun o => (w.id, o)
  let isFinished (id : Nat) : Bool := finished.any (·.1 == id)
  ({ c with
      waiting := c.waiting.filter fun w => !isFinished w.id
      pending := c.pending.filter fun id => !isFinished id },
    finished.map fun (id, o) => .returned id o)

/-- Lets everything go on until nothing can move. -/
def settle (c : Connection) : Connection × List Effect :=
  let (c, read) := readAll (c.stream.length + 2) c
  let (c, returned) := c.settleCalls
  (c, read ++ returned)

/-! ### Operations -/

/-- Registers a handler for a method, replacing an earlier one. -/
def handle (method : String) (h : Handler) (c : Connection) : Connection :=
  { c with handlers := (method, h) :: c.handlers.filter (·.1 != method) }

/-- Starts a call. It fails at once if the connection is closed or the request
cannot be sent; otherwise it waits under the id returned. -/
def call (method : String) (params : Params) (abandoned : Option Condition) (c : Connection) :
    Connection × List Effect × Except Error Nat :=
  if c.closed then (c, [], .error (.condition .connectionClosed))
  else
    let id := c.issued + 1
    let c := { c with issued := id }
    let fail (e : Error) : Except Error Nat := .error (.context ("send " ++ method) e)
    match params.encode with
    | .error e => (c, [], fail e)
    | .ok params =>
      let (c, effects, failure) := c.send (.request id method params)
      match failure with
      | some e => (c, effects, fail e)
      | none =>
        let c := { c with
          pending := c.pending ++ [id], waiting := c.waiting ++ [({ id, abandoned } : Waiting)] }
        let (c, returned) := c.settleCalls
        (c, effects ++ returned, .ok id)

def notify (method : String) (params : Params) (abandoned : Option Condition) (c : Connection) :
    Connection × List Effect × Option Error :=
  if c.closed then (c, [], some (.condition .connectionClosed))
  else
    match abandoned with
    | some e => (c, [], some (.condition e))
    | none =>
      match params.encode with
      | .error e => (c, [], some e)
      | .ok params => c.send (.notification method params)

/-- The caller of a waiting call gives up. -/
def abandon (id : Nat) (why : Condition) (c : Connection) : Connection × List Effect :=
  settle { c with
    waiting := c.waiting.map fun w => if w.id = id then { w with abandoned := some why } else w }

def receive (bytes : Bytes) (c : Connection) : Connection × List Effect :=
  settle { c with stream := c.stream ++ bytes }

/-- The stream ends. -/
def hangup (c : Connection) : Connection × List Effect := settle { c with ended := true }

/-- Asks the read loop to end; it notices behind the next frame. -/
def cancelLoop (c : Connection) : Connection := { c with loopCancelled := true }

/-- Closes the connection by request. -/
def close (c : Connection) : Connection × List Effect := (c.shutdown none).settle

end Connection

/-- What a call gives its caller: an error of the server is an error, and a
result that cannot be read is one too. -/
def Outcome.read (d : Json.Decoder α) (zero : α) (method : String) : Outcome → Except Error α
  | .failed e => .error e
  | .response m =>
    match m.error with
    | some e => .error (.rpc e)
    | none =>
      match m.result with
      | none => .ok zero
      | some result =>
        match Json.Decoder.run d zero result with
        | .ok v => .ok v
        | .error e => .error (.context ("unmarshal " ++ method ++ " result") (.json e))

/-- What a call that has no use for a result gives its caller. -/
def Outcome.done : Outcome → Except Error Unit
  | .failed e => .error e
  | .response m =>
    match m.error with
    | some e => .error (.rpc e)
    | none => .ok ()

end LanguageClient.Rpc
