import LanguageClient.Status.Model
import LanguageClient.Proofs.Log.History
import Mathlib.Data.List.DropRight

/-! # What the status view remembers of its messages.

`Updates` says what one message changes, and `Reflects` what is known after many: of most
things what was said of them last, of lines and notices the last few, and the lines only
since the list was emptied. -/

namespace LanguageClient.Status

open Log.Channel (lastN)

namespace Message

@[simp] def line? : Message → Option String
  | .line l => some l.display
  | _ => none

@[simp] def notice? : Message → Option String
  | .notice text => some text
  | _ => none

@[simp] def state? : Message → Option (Option Lifecycle)
  | .state s _ => some s
  | _ => none

/-- The error of a message about the server or about its activation, if there was one. -/
@[simp] def error? : Message → Option Error
  | .state _ e => e
  | .activated _ _ e => e
  | _ => none

/-- The session and the program of an activation. -/
@[simp] def activation? : Message → Option (Bytes × String)
  | .activated sessionId binaryPath _ => some (sessionId, binaryPath)
  | _ => none

@[simp] def size? : Message → Option (Int × Int)
  | .resized width height => some (width, height)
  | _ => none

@[simp] def now? : Message → Option Log.Time
  | .tick now => some now
  | _ => none

@[simp] def isSpin : Message → Bool
  | .spin => true
  | _ => false

/-- Whether a key was pressed that ends the view. -/
def IsQuit : Message → Prop
  | .key name => name = "q" ∨ name = "ctrl+c"
  | _ => False

/-- Whether a key was pressed that empties the list of lines. -/
@[simp] def isClear : Message → Bool
  | .key name => name = "c"
  | _ => false

end Message

def latest? {α : Type} (f : Message → Option α) (ms : List Message) : Option α :=
  (ms.filterMap f).getLast?

/-- The messages since the list of lines was emptied. -/
def sinceClear (ms : List Message) : List Message := ms.rtakeWhile fun x => !x.isClear

section Sequences

variable {α : Type} {f : Message → Option α} {ms : List Message} {x : Message}

theorem filterMap_concat : (ms ++ [x]).filterMap f = ms.filterMap f ++ (f x).toList := by
  rw [List.filterMap_append]
  cases h : f x <;> simp [h]

theorem latest?_concat : latest? f (ms ++ [x]) = (f x).or (latest? f ms) := by
  rw [latest?, filterMap_concat]
  cases f x <;> simp [latest?]

/-- If the last few are kept all the time, the last few of all are kept. -/
theorem lastN_filterMap_concat {n : Nat} (hn : 0 < n) :
    ((f x).map fun a => lastN n (lastN n (ms.filterMap f) ++ [a])).getD (lastN n (ms.filterMap f)) =
      lastN n ((ms ++ [x]).filterMap f) := by
  rw [filterMap_concat]
  cases f x with
  | none => rw [Option.toList_none, List.append_nil]; rfl
  | some a => exact Log.Channel.lastN_concat hn (ms.filterMap f) a

theorem sinceClear_concat : sinceClear (ms ++ [x]) = if x.isClear then [] else sinceClear ms ++ [x] := by
  rw [sinceClear, List.rtakeWhile_concat]
  cases x.isClear <;> rfl

theorem mem_of_mem_sinceClear (h : x ∈ sinceClear ms) : x ∈ ms :=
  (List.rtakeWhile_suffix _ _).mem h

end Sequences

namespace Model

variable {m n : Model} {ms : List Message} {x : Message}

structure Updates (m : Model) (x : Message) (n : Model) : Prop where
  channelName : n.channelName = m.channelName
  startedAt : n.startedAt = m.startedAt
  lines : n.lines = if x.isClear then [] else
    (x.line?.map fun l => lastN maxLines (m.lines ++ [l])).getD m.lines
  notices : n.notices = (x.notice?.map fun t => lastN maxNotices (m.notices ++ [t])).getD m.notices
  state : n.state = x.state?.getD m.state
  lastError : n.lastError = x.error?.or m.lastError
  activating : n.activating = (m.activating && x.activation?.isNone)
  activation : (n.sessionId, n.binaryPath) = x.activation?.getD (m.sessionId, m.binaryPath)
  size : (n.width, n.height) = x.size?.getD (m.width, m.height)
  now : n.now = x.now?.getD m.now
  frame : n.frame = if x.isSpin then (m.frame + 1) % frames.length else m.frame

/-- An update changes what its message is about, and nothing else. -/
theorem update_updates (m : Model) (x : Message) : Updates m x (m.update x).1 := by
  cases x with
  | key name =>
      have hkey : (m.update (.key name)).1 = if name = "c" then { m with lines := [] } else m := by
        simp only [update, isQuitKey, isClearKey]
        grind
      rw [hkey]
      by_cases hc : name = "c"
      · constructor <;> simp [hc]
      · constructor <;> simp [hc]
  | _ => constructor <;> simp [update]

/-- The view is asked to end by its keys, and by nothing else. -/
theorem update_quit_iff : (m.update x).2 = some .quit ↔ x.IsQuit := by
  cases x with
  | key name =>
      simp only [update, isQuitKey, isClearKey, Message.IsQuit]
      grind
  | _ => exact iff_of_false nofun id

/-- What is known after a sequence of messages. -/
structure Reflects (name : String) (start : Log.Time) (ms : List Message) (m : Model) : Prop where
  channelName : m.channelName = name
  startedAt : m.startedAt = start
  lines : m.lines = lastN maxLines ((sinceClear ms).filterMap Message.line?)
  notices : m.notices = lastN maxNotices (ms.filterMap Message.notice?)
  state : m.state = (latest? Message.state? ms).getD (some .stopped)
  lastError : m.lastError = latest? Message.error? ms
  activating : m.activating = (latest? Message.activation? ms).isNone
  activation : (m.sessionId, m.binaryPath) = (latest? Message.activation? ms).getD ([], "")
  size : (m.width, m.height) = (latest? Message.size? ms).getD (0, 24)
  now : m.now = (latest? Message.now? ms).getD start
  frame : m.frame = ms.countP Message.isSpin % frames.length

theorem reflects_start (channelName : String) (now : Log.Time) :
    Reflects channelName now [] (start channelName now) :=
  ⟨rfl, rfl, rfl, rfl, rfl, rfl, rfl, rfl, rfl, rfl, rfl⟩

namespace Reflects

variable {name : String} {start : Log.Time}

/-- One more message is reflected in the model. -/
theorem update (h : Reflects name start ms m) (hx : Updates m x n) :
    Reflects name start (ms ++ [x]) n where
  channelName := hx.channelName.trans h.channelName
  startedAt := hx.startedAt.trans h.startedAt
  lines := by
    rw [hx.lines, h.lines, sinceClear_concat]
    split
    · rfl
    · exact lastN_filterMap_concat (by decide)
  notices := by
    rw [hx.notices, h.notices]
    exact lastN_filterMap_concat (by decide)
  state := by rw [hx.state, h.state, latest?_concat, Option.getD_or]
  lastError := by rw [hx.lastError, h.lastError, latest?_concat]
  activating := by rw [hx.activating, h.activating, latest?_concat, Option.isNone_or, Bool.and_comm]
  activation := by rw [hx.activation, h.activation, latest?_concat, Option.getD_or]
  size := by rw [hx.size, h.size, latest?_concat, Option.getD_or]
  now := by rw [hx.now, h.now, latest?_concat, Option.getD_or]
  frame := by
    rw [hx.frame, h.frame, List.countP_append, List.countP_singleton]
    split
    · exact Nat.mod_add_mod _ _ _
    · rfl

/-- A line that is shown came with a message. -/
theorem exists_of_mem_lines (h : Reflects name start ms m) {text : String}
    (ht : text ∈ m.lines) : ∃ l, .line l ∈ ms ∧ l.display = text := by
  rw [h.lines] at ht
  obtain ⟨x, hx, hline⟩ := List.mem_filterMap.mp (List.mem_of_mem_drop ht)
  cases x with
  | line l => exact ⟨l, mem_of_mem_sinceClear hx, Option.some_inj.mp hline⟩
  | _ => cases hline

end Reflects

def run (m : Model) (ms : List Message) : Model := ms.foldl (fun m x => (m.update x).1) m

theorem run_reflects (channelName : String) (now : Log.Time) (ms : List Message) :
    Reflects channelName now ms ((start channelName now).run ms) := by
  induction ms using List.reverseRecOn with
  | nil => exact reflects_start channelName now
  | append_singleton ms x ih =>
      rw [run, List.foldl_concat]
      exact ih.update (update_updates _ x)

/-- The model is a fold of its messages: it has the last 500 lines since they were cleared, the
last 5 notices, the state and the error that were said last, and it is activating until it is
told of an activation. It asks to be ended for the keys that end it, and for nothing else. -/
theorem fold_of_messages (channelName : String) (now : Log.Time) (ms : List Message) :
    let m := (start channelName now).run ms
    (m.lines <:+ (sinceClear ms).filterMap Message.line? ∧
      m.lines.length = min 500 ((sinceClear ms).filterMap Message.line?).length) ∧
    (m.notices <:+ ms.filterMap Message.notice? ∧
      m.notices.length = min 5 (ms.filterMap Message.notice?).length) ∧
    m.state = ((ms.filterMap Message.state?).getLast?).getD (some .stopped) ∧
    m.lastError = (ms.filterMap Message.error?).getLast? ∧
    (m.activating = true ↔ ∀ sessionId binaryPath e, .activated sessionId binaryPath e ∉ ms) ∧
    ∀ x, (m.update x).2 = some .quit ↔ x.IsQuit := by
  intro m
  have h : Reflects channelName now ms m := run_reflects channelName now ms
  -- The last lines since the last clear, at most as many as are kept.
  refine ⟨?_, ?_, h.state, h.lastError, ?_, fun x => update_quit_iff⟩
  · rw [h.lines]
    exact ⟨Log.Channel.lastN_suffix _ _, Log.Channel.length_lastN _ _⟩
  · rw [h.notices]
    exact ⟨Log.Channel.lastN_suffix _ _, Log.Channel.length_lastN _ _⟩
  rw [h.activating, latest?, Option.isNone_iff_eq_none, List.getLast?_eq_none_iff,
    List.filterMap_eq_nil_iff]
  constructor
  · intro hnone sessionId binaryPath e hmem
    cases hnone _ hmem
  · intro hnone x hx
    cases x with
    | activated sessionId binaryPath e => exact absurd hx (hnone sessionId binaryPath e)
    | _ => rfl

end Model

end LanguageClient.Status
