import LanguageClient.Proofs.Log.Records
import Mathlib.Data.List.Flatten

/-! # What gets to the log file.

Somebody uses a channel that has a log file. The console takes what is written or does
not, as it likes, and the log file refuses what it likes. The file stands behind the
console: a record gets there exactly if the console has taken it and the file does not
refuse it, and what was lost on the console is not written later. Nothing of this is ever
noticed by whoever appends, and the history has every line.

`perform` is what one call leads to, said once more in `Performs`; `attempts` is what was to
be written in a sequence of calls, found from the calls alone. -/

namespace LanguageClient.Log

/-- What can be asked of a channel, and what can happen to it. -/
inductive Operation where
  | append (now : Time) (text : String)
  | debug (now : Time) (text : String)
  /-- The console takes what is written in another way from now on. -/
  | console (how : Console)
  /-- So does the log file. -/
  | file (how : LogFile)
  | subscribe (capacity : Int)
  | unsubscribe (subscription : Nat)
  | drain (subscription : Nat)

namespace Operation

def line? : Operation → Option Line
  | .append now text => some ⟨now, text⟩
  | _ => none

def console? : Operation → Option Console
  | .console how => some how
  | _ => none

/-- How the log file is from now on. -/
def file? : Operation → Option LogFile
  | .file how => some how
  | _ => none

/-- The record that is to be written, on a channel of a name, with debugging or without. -/
def record? (name : String) (debugging : Bool) : Operation → Option Record
  | .append now text => some { time := now, level := .info, message := text, channel := some name }
  | .debug now text =>
    if debugging then
      some { time := now, level := .debug, message := text, channel := some name }
    else none
  | _ => none

end Operation

/-- A record that was to be written, and how the console and the log file were then. -/
structure Attempt where
  console : Console
  file : LogFile
  record : Record

/-- What is to be written in a sequence of operations. -/
def attempts (name : String) (debugging : Bool) : Console → LogFile → List Operation → List Attempt
  | _, _, [] => []
  | console, file, op :: ops =>
    ((op.record? name debugging).map (Attempt.mk console file)).toList ++
      attempts name debugging (op.console?.getD console) (op.file?.getD file) ops

theorem consoleText_append (out more : List Output) :
    consoleText (out ++ more) = consoleText out ++ consoleText more := by
  simp [consoleText]

theorem fileText_append (out more : List Output) :
    fileText (out ++ more) = fileText out ++ fileText more := by
  simp [fileText]

/-- Records one behind the other. -/
def joined (tried : List Attempt) : String := String.join (tried.map (·.record.written))

theorem joined_append (tried more : List Attempt) :
    joined (tried ++ more) = joined tried ++ joined more := by
  simp [joined]

/-- Elements that each put out something can only be left out unnoticed if none of them is. -/
theorem flatMap_filter_eq_iff {α β : Type} {p : α → Bool} {f : α → List β} (hf : ∀ x, f x ≠ [])
    (l : List α) : (l.filter p).flatMap f = l.flatMap f ↔ ∀ x ∈ l, p x = true := by
  induction l with
  | nil => simp
  | cons x l ih =>
      rw [List.flatMap_cons, List.forall_mem_cons]
      by_cases hx : p x = true
      · rw [List.filter_cons_of_pos hx, List.flatMap_cons, List.append_right_inj]
        exact ih.trans (and_iff_right hx).symm
      · rw [List.filter_cons_of_neg hx]
        constructor
        · intro h
          -- what is left of the rest is no longer than the rest
          have hle : ((l.filter p).flatMap f).length ≤ (l.flatMap f).length :=
            (List.filter_sublist.flatMap f).length_le
          have hlength := congrArg List.length h
          have hpos := List.length_pos_iff.mpr (hf x)
          rw [List.length_append] at hlength
          omega
        · rintro ⟨h, -⟩
          exact absurd h hx

/-- Only all of the records are as much as all of them, for no record is empty. -/
theorem joined_filter_eq_iff {tried : List Attempt} {got : Attempt → Bool} :
    joined (tried.filter got) = joined tried ↔ ∀ a ∈ tried, got a = true := by
  have hnonempty (a : Attempt) : a.record.written.toList ≠ [] := by
    rw [Record.written_eq]
    exact List.concat_ne_nil '\n' a.record.body
  rw [← String.toList_inj, joined, joined, String.toList_join, String.toList_join, List.flatMap_map,
    List.flatMap_map]
  exact flatMap_filter_eq_iff hnonempty tried

namespace Channel

variable {c d : Channel} {line : Line} {op : Operation} {ops : List Operation}

def perform (c : Channel) : Operation → Channel × List Output
  | .append now text => c.appendLine now text
  | .debug now text => (c, c.debugLine now text)
  | .console how => ({ c with console := how }, [])
  | .file how => ({ c with file := c.file.map fun _ => how }, [])
  | .subscribe capacity => (c.subscribe capacity, [])
  | .unsubscribe i => (c.unsubscribe i, [])
  | .drain i => ((c.drain i).1, [])

def performAll (c : Channel) : List Operation → Channel × List Output
  | [] => (c, [])
  | op :: ops =>
    let (c, out) := c.perform op
    let (c, more) := c.performAll ops
    (c, out ++ more)

/-- No subscription that lines are passed on to is closed. -/
def Sound (c : Channel) : Prop := ∀ s ∈ c.subscriptions, s.isListed = true → s.isOpen = true

/-! ### Appending -/

theorem sound_updateSubscription {f : Subscription → Subscription} (hc : c.Sound) (i : Nat)
    (hf : ∀ s, c.subscriptions[i]? = some s → (f s).isListed = true → (f s).isOpen = true) :
    (c.updateSubscription f i).Sound := by
  intro s hs
  obtain ⟨j, hj⟩ := List.getElem?_of_mem hs
  obtain ⟨t, ht, rfl⟩ := updateSubscription_getElem?.mp hj
  split
  next hij =>
    subst hij
    exact hf t ht
  next => exact hc t (List.mem_of_getElem? ht)

/-- A line can be passed on to a subscription that is listed. -/
theorem exists_pass? (hc : c.Sound) {i : Nat} (hi : i ∈ c.listed) (line : Line) :
    ∃ subscriptions, c.pass? line i = some { c with subscriptions } ∧
      ({ c with subscriptions } : Channel).Sound ∧
      ({ c with subscriptions } : Channel).listed = c.listed := by
  obtain ⟨s, hs, hlisted⟩ := mem_listed.mp hi
  -- A subscription that is listed is open, so that it can be passed a line.
  have hopen : s.isOpen = true := hc s (List.mem_of_getElem? hs) hlisted
  cases hsend : s.send? line with
  | none =>
      rw [Subscription.send?_eq_none.mp hsend] at hopen
      cases hopen
  | some s' =>
      have hlisted' : s'.isListed = s.isListed := Subscription.isListed_of_send? hsend
      have hopen' : s'.isOpen = true := by
        simp only [Subscription.send?, hopen] at hsend
        grind
      refine ⟨(c.updateSubscription (fun _ => s') i).subscriptions, ?_, ?_, ?_⟩
      · rw [pass?, hs, Option.bind_some, hsend]
        rfl
      · exact sound_updateSubscription hc i fun _ _ _ => hopen'
      · apply listed_updateSubscription
        intro t ht
        cases hs.symm.trans ht
        exact hlisted'

/-- A line is recorded on a channel that is sound, and only the history and the subscriptions
change. -/
theorem exists_record? (hc : c.Sound) (line : Line) :
    ∃ subscriptions, c.record? line = some { c.remember line with subscriptions } ∧
      ({ c with subscriptions } : Channel).Sound := by
  have hall : ∀ (ks : List Nat) (c : Channel), c.Sound → (∀ k ∈ ks, k ∈ c.listed) →
      ∃ subscriptions, ks.foldlM (fun c i => c.pass? line i) c = some { c with subscriptions } ∧
        ({ c with subscriptions } : Channel).Sound := by
    intro ks
    induction ks with
    | nil =>
        intro c hc _
        exact ⟨c.subscriptions, rfl, hc⟩
    | cons k ks ih =>
        intro c hc hks
        obtain ⟨hk, hks⟩ := List.forall_mem_cons.mp hks
        obtain ⟨subscriptions, hpass, hsound, hlisted⟩ := exists_pass? hc hk line
        rw [List.foldlM_cons, hpass]
        exact ih _ hsound (hlisted ▸ hks)
  exact hall c.listed (c.remember line) hc fun k hk => hk

/-! ### One operation, and many -/

/-- What an operation leads to. -/
structure Performs (c : Channel) (op : Operation) (d : Channel) (out : List Output) : Prop where
  sound : d.Sound
  name : d.name = c.name
  debug : d.debug = c.debug
  file : d.file = c.file.map fun how => op.file?.getD how
  maxLines : d.maxLines = c.maxLines
  console : d.console = op.console?.getD c.console
  lines : d.lines = (op.line?.map fun line => lastN c.maxLines (c.lines ++ [line])).getD c.lines
  out : out = ((op.record? c.name c.debug).map fun r => c.output r.written).getD []

/-- Every operation does what is said of it, and keeps the channel sound. -/
theorem perform_performs (hc : c.Sound) (op : Operation) :
    Performs c op (c.perform op).1 (c.perform op).2 := by
  -- Operations on anything else leave the file as it is.
  have hfile : c.file = c.file.map fun how => how := Option.map_id'.symm
  cases op with
  | append now text =>
      obtain ⟨subscriptions, hrecord, hsound⟩ := exists_record? hc ⟨now, text⟩
      have happend : c.perform (.append now text) =
          ({ c.remember ⟨now, text⟩ with subscriptions }, c.write ⟨now, text⟩) := by
        simp only [perform, appendLine, hrecord]
        rfl
      rw [happend]
      exact ⟨hsound, rfl, rfl, hfile, rfl, rfl, rfl, rfl⟩
  | debug now text =>
      refine ⟨hc, rfl, rfl, hfile, rfl, rfl, rfl, ?_⟩
      simp only [perform, debugLine, Operation.record?]
      split <;> rfl
  | console how => exact ⟨hc, rfl, rfl, hfile, rfl, rfl, rfl, rfl⟩
  | file how => exact ⟨hc, rfl, rfl, rfl, rfl, rfl, rfl, rfl⟩
  | subscribe capacity =>
      refine ⟨?_, rfl, rfl, hfile, rfl, rfl, rfl, rfl⟩
      intro s hs
      rcases List.mem_append.mp hs with hs | hs
      · exact hc s hs
      · rw [List.mem_singleton.mp hs]
        exact fun _ => rfl
  | unsubscribe i =>
      refine ⟨?_, rfl, rfl, hfile, rfl, rfl, rfl, rfl⟩
      -- It is taken off the list first, and closed after that.
      have hunlisted : (c.unlist i).Sound := by
        apply sound_updateSubscription hc
        rintro s hs ⟨⟩
      apply sound_updateSubscription hunlisted
      intro s hs hlisted
      obtain ⟨t, ht, rfl⟩ := updateSubscription_getElem?.mp hs
      rw [if_pos rfl] at hlisted
      cases hlisted
  | drain i =>
      have hdrain : c.perform (.drain i) = (c, []) ∨ c.perform (.drain i) =
          (c.updateSubscription (fun s => { s with waiting := [] }) i, []) := by
        simp only [perform, drain]
        split
        · exact .inl rfl
        · exact .inr rfl
      rcases hdrain with hdrain | hdrain
      · rw [hdrain]
        exact ⟨hc, rfl, rfl, hfile, rfl, rfl, rfl, rfl⟩
      · rw [hdrain]
        refine ⟨?_, rfl, rfl, hfile, rfl, rfl, rfl, rfl⟩
        apply sound_updateSubscription hc
        intro s hs
        exact hc s (List.mem_of_getElem? hs)

/-- The console has a text if it takes what is written. -/
theorem consoleText_output (text : String) :
    consoleText (c.output text) = if c.console = .works then text else "" := by
  cases hc : c.console <;> cases hf : c.fileTakes text <;> simp [output, hc, hf, consoleText]

/-- The file has a text if the console took it first, and then the file does. -/
theorem fileText_output {file : LogFile} (hfile : c.file = some file) (text : String) :
    fileText (c.output text) = if c.console = .works ∧ file.takes text = true then text else "" := by
  cases hc : c.console <;> cases hf : file.takes text <;>
    simp [output, fileTakes, hc, hfile, hf, fileText]

/-- What is written of a sequence of operations, on an output that gets the records it gets
when each of them is written. -/
theorem text_performAll {text : List Output → String} {got : Attempt → Bool} (hnil : text [] = "")
    (happend : ∀ out more, text (out ++ more) = text out ++ text more)
    (houtput : ∀ (c : Channel) (file : LogFile) (r : Record), c.file = some file →
      text (c.output r.written) = if got ⟨c.console, file, r⟩ then r.written else "")
    (hc : c.Sound) {file : LogFile} (hfile : c.file = some file) (ops : List Operation) :
    text (c.performAll ops).2 =
      joined ((attempts c.name c.debug c.console file ops).filter got) := by
  induction ops generalizing c file with
  | nil => exact hnil
  | cons op ops ih =>
      have h := perform_performs hc op
      have hfile' := h.file
      rw [hfile, Option.map_some] at hfile'
      have hrest := ih h.sound hfile'
      rw [h.name, h.debug, h.console] at hrest
      show text ((c.perform op).2 ++ ((c.perform op).1.performAll ops).2) = _
      rw [happend, hrest, h.out, attempts, List.filter_append, joined_append]
      congr 1
      cases op.record? c.name c.debug with
      | none => exact hnil
      | some r =>
          show text (c.output r.written) = _
          rw [houtput c file r hfile]
          by_cases hgot : got ⟨c.console, file, r⟩ = true <;> simp [joined, hgot]

/-- The history gets every line. -/
theorem lines_performAll (hc : c.Sound) (hmax : 0 < c.maxLines) (past : List Line)
    (hpast : c.lines = lastN c.maxLines past) (ops : List Operation) :
    (c.performAll ops).1.lines = lastN c.maxLines (past ++ ops.filterMap Operation.line?) := by
  induction ops generalizing c past with
  | nil =>
      rw [List.filterMap_nil, List.append_nil]
      exact hpast
  | cons op ops ih =>
      have h := perform_performs hc op
      -- One operation adds at most one line, and drops what there is no room for.
      have hlines : (c.perform op).1.lines =
          lastN (c.perform op).1.maxLines (past ++ op.line?.toList) := by
        rw [h.lines, h.maxLines]
        cases op.line? with
        | none =>
            rw [Option.toList_none, List.append_nil]
            exact hpast
        | some line =>
            rw [Option.map_some, Option.getD_some, hpast]
            exact lastN_concat hmax past line
      show ((c.perform op).1.performAll ops).1.lines = _
      rw [ih h.sound (h.maxLines ▸ hmax) _ hlines, h.maxLines, List.append_assoc]
      congr 2
      cases hline : op.line? <;> simp [hline]

end Channel

/-- A record gets to the log file exactly if the console took it and the file did not refuse
it, so that the file has them all only if both took them all; the console has what it took,
and the history has every line that was appended, as far as it goes back. -/
theorem file_behind_console (name : String) (maxLines : Int) (debugging : Bool)
    (console : Console) (file : LogFile) (ops : List Operation) :
    let c := Channel.make name maxLines debugging console (some file)
    let tried := attempts c.name debugging console file ops
    fileText (c.performAll ops).2 =
      joined (tried.filter fun a => a.console = .works ∧ a.file.takes a.record.written = true) ∧
    consoleText (c.performAll ops).2 = joined (tried.filter fun a => a.console = .works) ∧
    (fileText (c.performAll ops).2 = joined tried ↔
      ∀ a ∈ tried, a.console = .works ∧ a.file.takes a.record.written = true) ∧
    (c.performAll ops).1.lines <:+ ops.filterMap Operation.line? ∧
    (c.performAll ops).1.lines.length =
      min (if maxLines ≤ 0 then 1000 else maxLines.toNat) (ops.filterMap Operation.line?).length := by
  intro c tried
  have hsound : c.Sound := nofun
  have hmax : 0 < c.maxLines := by
    show 0 < if maxLines ≤ 0 then Channel.defaultMaxLines else maxLines.toNat
    split
    · decide
    · omega
  -- The file has what both the console and the file take.
  have hfile : fileText (c.performAll ops).2 = joined (tried.filter fun a =>
      a.console = .works ∧ a.file.takes a.record.written = true) := by
    refine Channel.text_performAll rfl fileText_append (fun c file r hfile => ?_) hsound rfl ops
    simp only [Channel.fileText_output hfile, decide_eq_true_eq]
  have hlines : (c.performAll ops).1.lines = Channel.lastN c.maxLines (ops.filterMap Operation.line?) :=
    Channel.lines_performAll hsound hmax [] List.drop_nil.symm ops
  refine ⟨hfile, ?_, ?_, ?_, ?_⟩
  · refine Channel.text_performAll rfl consoleText_append (fun c file r hfile => ?_) hsound rfl ops
    simp only [Channel.consoleText_output, decide_eq_true_eq]
  · rw [hfile, joined_filter_eq_iff]
    simp only [decide_eq_true_eq]
  · rw [hlines]
    exact Channel.lastN_suffix _ _
  · rw [hlines]
    exact Channel.length_lastN _ _

/-- A record that a failing console does not take never gets to the log file, which refuses
nothing; what was appended before and after it does. -/
theorem file_misses_record :
    let c := Channel.make "c" 0 false .works (some ⟨fun _ => true⟩)
    let ops : List Operation := [.append ⟨0⟩ "a", .console .fails, .append ⟨5⟩ "b", .console .works,
      .append ⟨9⟩ "d"]
    fileText (c.performAll ops).2 = c.entry ⟨⟨0⟩, "a"⟩ ++ c.entry ⟨⟨9⟩, "d"⟩ ∧
    fileText (c.performAll ops).2 ≠ String.join ((ops.filterMap Operation.line?).map c.entry) := by
  decide +kernel

end LanguageClient.Log
