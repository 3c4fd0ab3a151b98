import LanguageClient.Proofs.Log.History
import Mathlib.Data.List.Sort

/-! # In which order lines stand.

A call looks at the clock before it takes hold of the channel, and writes after
it has let go. So two calls that are under way at the same time may get past each
other, between any two of these moves. A call that had returned before another one
began cannot: its time is no later, it was recorded first, and it was written
first. `Ordered` says so of what was seen, and every move keeps it as long as the
clock does not go back. If no two calls overlap, this orders all of them. -/

namespace LanguageClient.Log

/-- If of two members one always stands before the other where they are related,
so do these two. -/
theorem pair_sublist {α : Type} {R : α → α → Prop} {l : List α} {a b : α}
    (hl : l.Pairwise fun x y => ¬R y x) (hab : R a b) (ha : a ∈ l) (hb : b ∈ l) (hne : a ≠ b) :
    [a, b].Sublist l := by
  induction l with
  | nil => cases ha
  | cons x l ih =>
    obtain ⟨hx, hl⟩ := List.pairwise_cons.mp hl
    obtain rfl | ha' := List.mem_cons.mp ha
    · have hb := (List.mem_cons.mp hb).resolve_left (Ne.symm hne)
      exact (List.singleton_sublist.mpr hb).cons_cons _
    · obtain rfl | hb := List.mem_cons.mp hb
      · exact absurd hab (hx a ha')
      · exact (ih hl ha' hb).cons _

/-- Whether something of it got to the log file. -/
def Writing.inFile (w : Writing) : Bool :=
  w.output.any fun
    | .file _ => true
    | .console _ => false

/-- A log file that refuses nothing. -/
def LogFile.TakesAll (f : LogFile) : Prop := ∀ text, f.takes text = true

namespace Usage

variable {u v : Usage} {m : Move} {moves : List Move}

/-- A call had returned before another one began. -/
def Precedes (u : Usage) (i j : Nat) : Prop := ∃ call, u.calls[j]? = some call ∧ i ∈ call.earlier

/-- What was written and not lost. -/
def taken (u : Usage) : List Writing := u.written.filter (!·.output.isEmpty)

/-- What the log file has of it. -/
def filed (u : Usage) : List Writing := u.written.filter (·.inFile)

theorem taken_sublist_written : (u.taken.map (·.call)).Sublist (u.written.map (·.call)) :=
  List.filter_sublist.map _

/-! ### One call after another -/

theorem precedes_become {i j k : Nat} {stage : Stage} :
    (u.become i stage).Precedes j k ↔ u.Precedes j k := by
  constructor
  · rintro ⟨_, hc, he⟩
    obtain ⟨call, hc', rfl⟩ := calls_become.mp hc
    exact ⟨call, hc', by split at he <;> exact he⟩
  · rintro ⟨call, hc, he⟩
    exact ⟨_, calls_become.mpr ⟨call, hc, rfl⟩, by split <;> exact he⟩

theorem lines_become {i : Nat} {stage : Stage} :
    (u.become i stage).calls.map (·.line) = u.calls.map (·.line) := by
  refine List.ext_getElem? fun j => ?_
  simp only [become, List.getElem?_map, List.getElem?_modify]
  cases u.calls[j]? with
  | none => rfl
  | some call => by_cases h : i = j <;> simp [h]

theorem mem_finished {i : Nat} :
    i ∈ u.finished ↔ ∃ call, u.calls[i]? = some call ∧ call.stage = .returned := by
  simp only [finished, List.mem_filter, List.mem_range, Option.any_eq_true, decide_eq_true_eq]
  constructor
  · exact fun h => h.2
  · exact fun ⟨call, hc, hs⟩ => ⟨(List.getElem?_eq_some_iff.mp hc).1, call, hc, hs⟩

theorem precedes_begin {text : String} {i j : Nat} (h : (u.begin text).Precedes i j) :
    u.Precedes i j ∨ j = u.calls.length ∧ i ∈ u.finished := by
  obtain ⟨call, hc, he⟩ := h
  obtain hc | ⟨hj, rfl⟩ := calls_begin.mp hc
  · exact .inl ⟨call, hc, he⟩
  · exact .inr ⟨hj, he⟩

/-- A call that begins precedes none of those that are there already. -/
theorem pairwise_begin {text : String} {l : List Nat} (hl : l.Pairwise fun i j => ¬u.Precedes j i)
    (hlt : ∀ i ∈ l, i < u.calls.length) : l.Pairwise fun i j => ¬(u.begin text).Precedes j i := by
  refine hl.imp_of_mem fun {i j} hi _ hn hp => ?_
  obtain hp | ⟨hlen, -⟩ := precedes_begin hp
  · exact hn hp
  · exact absurd (hlt i hi) (by omega)

/-- What holds of calls as long as the clock does not go back. -/
structure Ordered (u : Usage) : Prop where
  past : ∀ line ∈ u.calls.map (·.line), line.time.ms ≤ u.clock.ms
  times : (u.calls.map (·.line)).Pairwise fun a b => a.time.ms ≤ b.time.ms
  returned : ∀ {i j}, u.Precedes i j →
    i < j ∧ ∃ call, u.calls[i]? = some call ∧ call.stage = .returned
  recorded : (u.recorded.map (·.call)).Pairwise fun i j => ¬u.Precedes j i
  written : (u.written.map (·.call)).Pairwise fun i j => ¬u.Precedes j i

theorem ordered_start (c : Channel) (now : Time) : Ordered (start c now) := by
  constructor <;> simp [start, Precedes]

namespace Ordered

/-- A call that begins comes after those that had returned, and nothing comes after it. -/
theorem begin (h : Ordered u) (hb : Books u) (text : String) : Ordered (u.begin text) where
  past line hl := by
    obtain hl | hl := List.mem_append.mp (List.map_append ▸ hl)
    · exact h.past line hl
    · rw [List.mem_singleton.mp hl]
      exact le_refl _
  times := by
    simp only [Usage.begin, List.map_append, List.pairwise_append]
    refine ⟨h.times, List.pairwise_singleton .., fun a ha b hb => ?_⟩
    rw [List.mem_singleton.mp hb]
    exact h.past a ha
  returned {i j} hp := by
    obtain hp | ⟨rfl, hi⟩ := precedes_begin hp
    · obtain ⟨hlt, call, hc, hr⟩ := h.returned hp
      exact ⟨hlt, call, calls_begin.mpr (.inl hc), hr⟩
    · obtain ⟨call, hc, hr⟩ := mem_finished.mp hi
      exact ⟨(List.getElem?_eq_some_iff.mp hc).1, call, calls_begin.mpr (.inl hc), hr⟩
  recorded := pairwise_begin h.recorded fun _ => hb.lt_of_recorded
  written := pairwise_begin h.written fun _ => hb.lt_of_written

theorem become {i : Nat} {call : Call} {stage : Stage} (h : Ordered u)
    (hc : u.calls[i]? = some call) (hs : call.stage ≠ .returned) : Ordered (u.become i stage) where
  past := by rw [lines_become]; exact h.past
  times := by rw [lines_become]; exact h.times
  returned {j k} hp := by
    obtain ⟨hlt, c, hcj, hr⟩ := h.returned (precedes_become.mp hp)
    refine ⟨hlt, c, calls_become.mpr ⟨c, hcj, if_neg fun hij => ?_⟩, hr⟩
    subst hij
    cases hc.symm.trans hcj
    exact hs hr
  recorded := h.recorded.imp fun hn hp => hn (precedes_become.mp hp)
  written := h.written.imp fun hn hp => hn (precedes_become.mp hp)

/-- A call that has not returned precedes none. -/
theorem not_precedes {i j : Nat} {call : Call} (h : Ordered u) (hc : u.calls[i]? = some call)
    (hs : call.stage ≠ .returned) : ¬u.Precedes i j := fun hp => by
  obtain ⟨-, c, hci, hr⟩ := h.returned hp
  cases hc.symm.trans hci
  exact hs hr

/-- Where a call comes to stand last, it stands behind none that it precedes. -/
theorem pairwise_concat {i : Nat} {call : Call} {l : List Nat} (h : Ordered u)
    (hc : u.calls[i]? = some call) (hs : call.stage ≠ .returned)
    (hl : l.Pairwise fun i j => ¬u.Precedes j i) :
    (l ++ [i]).Pairwise fun i j => ¬u.Precedes j i := by
  refine List.pairwise_append.mpr ⟨hl, List.pairwise_singleton .., fun j _ k hk => ?_⟩
  rw [List.mem_singleton.mp hk]
  exact h.not_precedes hc hs

/-- Every move keeps the calls in order, if the clock never goes back. -/
theorem step (h : Ordered u) (hb : Books u) (hs : Step u m v)
    (hm : ∀ ms, m = .tick ms → 0 ≤ ms) : Ordered v := by
  cases hs with
  | tick ms =>
    have hms := hm ms rfl
    exact { h with past := fun line hl => (h.past line hl).trans (Int.le_add_of_nonneg_right hms) }
  | call text => exact h.begin hb text
  -- The line is recorded last, and no call that comes earlier is left to be recorded.
  | @enter i call hc hbegun hh =>
    have hs : call.stage ≠ .returned := by rw [hbegun]; decide
    have hadd : Ordered { u with
        channel := u.channel.remember call.line
        holder := some { call := i, line := call.line, due := u.channel.listed }
        recorded := u.recorded ++ [⟨i, call.line⟩] } :=
      { h with recorded := List.map_append ▸ h.pairwise_concat hc hs h.recorded }
    exact hadd.become hc hs
  | @fail k holder s hh hk hf hs hsend =>
    obtain ⟨call, hc, hcs⟩ := hb.holding hh hf
    have hfail : Ordered { u with holder := some { holder with failed := true } } := { h with }
    exact hfail.become hc (by rw [hcs]; decide)
  | leave hh hd hf =>
    obtain ⟨call, hc, hcs⟩ := hb.holding hh hf
    have hleave : Ordered { u with holder := none } := { h with }
    exact hleave.become hc (by rw [hcs]; decide)
  | @write i call hc hrec =>
    have hs : call.stage ≠ .returned := by rw [hrec]; decide
    have hadd : Ordered { u with
        written := u.written ++ [⟨i, call.line, u.channel.write call.line⟩] } :=
      { h with written := List.map_append ▸ h.pairwise_concat hc hs h.written }
    exact hadd.become hc hs
  | _ => exact { h with }

end Ordered

/-! ### What is put out -/

/-- What is put out of an entry that is not lost, with or without the log file. -/
def outputOf (c : Channel) (line : Line) (inFile : Bool) : List Output :=
  .console (c.entry line) :: (if inFile then [.file (c.entry line)] else [])

theorem write_eq (c : Channel) (line : Line) :
    c.write line = [] ∨ c.write line = outputOf c line (c.fileTakes (c.entry line)) := by
  simp only [Channel.write, Channel.output, outputOf]
  cases c.console <;> simp

theorem Step.entry (hs : Step u m v) : v.channel.entry = u.channel.entry := by
  cases hs <;> rfl

/-- What was written is lost or is the entry of a line, in one piece. -/
def Spoken (u : Usage) : Prop :=
  ∀ w ∈ u.written, w.output = [] ∨ ∃ inFile, w.output = outputOf u.channel w.line inFile

/-- What was put out stays what the calls have written, whoever moves. -/
theorem Spoken.step (h : Spoken u) (hs : Step u m v) : Spoken v := by
  have hout (line : Line) (b : Bool) : outputOf v.channel line b = outputOf u.channel line b := by
    simp only [outputOf, hs.entry]
  simp only [Spoken, hout]
  cases hs with
  | write hc hr =>
    intro w hw
    obtain hw | hw := List.mem_append.mp hw
    · exact h w hw
    · rw [List.mem_singleton.mp hw]
      exact (write_eq ..).imp_right fun h => ⟨_, h⟩
  | _ => exact h

/-- Whoever gets some of the entries gets whole entries, in the order in which they were
written. -/
theorem text_outputs {text : List Output → String} {gets : Writing → Bool} (hnil : text [] = "")
    (happend : ∀ a b, text (a ++ b) = text a ++ text b)
    (hentry : ∀ w ∈ u.written, text w.output = if gets w then u.channel.entry w.line else "") :
    text u.outputs = String.join ((u.written.filter gets).map fun w => u.channel.entry w.line) := by
  rw [outputs]
  generalize u.written = ws at hentry
  induction ws with
  | nil => simpa using hnil
  | cons w ws ih =>
    obtain ⟨hw, hws⟩ := List.forall_mem_cons.mp hentry
    rw [List.flatMap_cons, happend, ih hws, hw]
    by_cases hg : gets w = true <;> simp [hg]

/-- The console has the entries of what was written and not lost, in order. -/
theorem Spoken.consoleText (h : Spoken u) :
    consoleText u.outputs = String.join (u.taken.map fun w => u.channel.entry w.line) := by
  refine text_outputs rfl (fun a b => ?_) fun w hw => ?_
  · simp [Log.consoleText]
  · obtain hw | ⟨inFile, hw⟩ := h w hw
    · simp [hw, Log.consoleText]
    · cases inFile <;> simp [hw, outputOf, Log.consoleText]

/-- The log file has those of them that it took. -/
theorem Spoken.fileText (h : Spoken u) :
    fileText u.outputs = String.join (u.filed.map fun w => u.channel.entry w.line) := by
  refine text_outputs rfl (fun a b => ?_) fun w hw => ?_
  · simp [Log.fileText]
  · obtain hw | ⟨inFile, hw⟩ := h w hw
    · simp [hw, Writing.inFile, Log.fileText]
    · cases inFile <;> simp [hw, Writing.inFile, outputOf, Log.fileText]

theorem filed_sublist_taken (u : Usage) : u.filed.Sublist u.taken := by
  apply List.monotone_filter_right
  intro w hw
  cases hout : w.output with
  | nil => simp [Writing.inFile, hout] at hw
  | cons => rfl

/-- There is a log file, it refuses nothing, and it has refused nothing. -/
structure Willing (u : Usage) : Prop where
  file : ∃ f, u.channel.file = some f ∧ f.TakesAll
  written : ∀ w ∈ u.written, w.output = [] ∨ w.inFile = true

/-- A file that takes all it is given goes on doing so. -/
theorem Willing.step (h : Willing u) (hs : Step u m v) (hm : ∀ f, m = .file f → f.TakesAll) :
    Willing v := by
  obtain ⟨⟨f, hf, htakes⟩, hw⟩ := h
  cases hs with
  | file how => exact ⟨⟨how, by simp [hf], hm how rfl⟩, hw⟩
  | @write i call hc hr =>
    refine ⟨⟨f, hf, htakes⟩, fun w hmem => ?_⟩
    obtain hmem | hmem := List.mem_append.mp hmem
    · exact hw w hmem
    · rw [List.mem_singleton.mp hmem]
      refine (write_eq u.channel call.line).imp_right fun hout => ?_
      have htaken : u.channel.fileTakes (u.channel.entry call.line) = true := by
        rw [Channel.fileTakes, hf]
        exact htakes _
      simp [Writing.inFile, hout, outputOf, htaken]
  | _ => exact ⟨⟨f, hf, htakes⟩, hw⟩

/-- Such a file has all that the console has. -/
theorem Willing.filed (h : Willing u) : u.filed = u.taken := by
  refine List.filter_congr fun w hw => ?_
  obtain hout | hin := h.written w hw
  · simp [Writing.inFile, hout]
  · cases hout : w.output with
    | nil => simp [Writing.inFile, hout] at hin
    | cons => simp [hin]

/-! ### Calls that do not overlap -/

/-- Of any two calls that got to the channel, one had returned before the other began. -/
def Successive (u : Usage) : Prop :=
  ∀ {i j}, i ∈ u.recorded.map (·.call) → j ∈ u.recorded.map (·.call) → i ≠ j →
    u.Precedes i j ∨ u.Precedes j i

/-- The entry of the history that was written. -/
def recording (w : Writing) : Recording := ⟨w.call, w.line⟩

theorem recording_mem (hb : Books u) {w : Writing} (hw : w ∈ u.written) :
    recording w ∈ u.recorded := by
  obtain ⟨call, hc, hl⟩ := hb.line_of_written w hw
  have hr : call.stage = .returned :=
    hb.returned_of_written hc (List.mem_map_of_mem (f := (·.call)) hw)
  have hmem : w.call ∈ u.recorded.map (·.call) := (hb.recorded_iff hc).mpr (by rw [hr]; decide)
  obtain ⟨r, hr, hcall⟩ := List.mem_map.mp hmem
  obtain ⟨call', hc', hl'⟩ := hb.line_of_recorded r hr
  rw [hcall] at hc'
  cases hc.symm.trans hc'
  have : recording w = r := by
    cases r
    simp_all [recording]
  rwa [this]

namespace Ordered

/-- A call that had returned before another one began is stamped no later. -/
theorem time_le {i j : Nat} {a b : Call} (h : Ordered u) (hp : u.Precedes i j)
    (ha : u.calls[i]? = some a) (hb : u.calls[j]? = some b) :
    a.line.time.ms ≤ b.line.time.ms := by
  have hlt := (h.returned hp).1
  have ha' : (u.calls.map (·.line))[i]? = some a.line := by rw [List.getElem?_map, ha]; rfl
  have hb' : (u.calls.map (·.line))[j]? = some b.line := by rw [List.getElem?_map, hb]; rfl
  obtain ⟨hi, hai⟩ := List.getElem?_eq_some_iff.mp ha'
  obtain ⟨hj, hbj⟩ := List.getElem?_eq_some_iff.mp hb'
  exact hai ▸ hbj ▸ List.pairwise_iff_getElem.mp h.times i j hi hj hlt

/-- Calls that do not overlap stand in their order wherever none stands behind one
that it precedes. -/
theorem pairwise_precedes {l : List Nat} (hs : Successive u)
    (hl : l.Pairwise fun i j => ¬u.Precedes j i) (hn : l.Nodup)
    (hr : l ⊆ u.recorded.map (·.call)) : l.Pairwise u.Precedes :=
  (hl.and hn).imp_of_mem fun hi hj ⟨hp, hne⟩ => (hs (hr hi) (hr hj) hne).resolve_right hp

/-- If calls follow each other, times never decrease in the history. -/
theorem appended_pairwise (h : Ordered u) (hb : Books u) (hs : Successive u) :
    u.appended.Pairwise fun a b => a.time.ms ≤ b.time.ms := by
  have hp := List.pairwise_map.mp
    (pairwise_precedes hs h.recorded hb.recorded_nodup (List.Subset.refl _))
  refine List.pairwise_map.mpr (hp.imp_of_mem fun {r r'} hr hr' hp => ?_)
  obtain ⟨a, ha, hal⟩ := hb.line_of_recorded r hr
  obtain ⟨b, hb, hbl⟩ := hb.line_of_recorded r' hr'
  rw [← hal, ← hbl]
  exact h.time_le hp ha hb

/-- If calls follow each other, what was written stands in the order of the history. -/
theorem taken_sublist (h : Ordered u) (hb : Books u) (hs : Successive u) :
    (u.taken.map (·.line)).Sublist u.appended := by
  -- Calls that precede each other have ascending numbers.
  have hlt {l : List Recording} (hl : (l.map (·.call)).Pairwise u.Precedes) :
      l.Pairwise fun a b => a.call < b.call :=
    (List.pairwise_map.mp hl).imp fun hp => (h.returned hp).1
  have hsub : u.taken.map recording ⊆ u.recorded := fun r hr => by
    obtain ⟨w, hw, rfl⟩ := List.mem_map.mp hr
    exact recording_mem hb (List.mem_of_mem_filter hw)
  have hcalls : (u.taken.map recording).map (·.call) = u.taken.map (·.call) := List.map_map
  -- Both the history and what was written are in the order of the calls.
  have hordered : ((u.taken.map recording).map (·.call)).Pairwise u.Precedes := by
    rw [hcalls]
    refine pairwise_precedes hs (h.written.sublist taken_sublist_written)
      (taken_sublist_written.nodup hb.written_nodup) ?_
    rw [← hcalls]
    exact List.map_subset _ hsub
  have hrecorded := pairwise_precedes hs h.recorded hb.recorded_nodup (List.Subset.refl _)
  have hanti : Std.Antisymm fun a b : Recording => a.call < b.call :=
    ⟨fun _ _ hab hba => absurd hab (Nat.lt_asymm hba)⟩
  have hnodup : (u.taken.map recording).Nodup :=
    List.Nodup.of_map _ (hcalls ▸ taken_sublist_written.nodup hb.written_nodup)
  -- Two lists in one order, one of them inside the other.
  have hrecordings := List.sublist_of_subperm_of_pairwise (List.subperm_of_subset hnodup hsub)
    (hlt hordered) (hlt hrecorded)
  have hlines := hrecordings.map (·.line)
  rw [List.map_map] at hlines
  exact hlines

end Ordered

theorem ordered_of_play? {c : Channel} {now : Time} (h : (start c now).play? moves = some u)
    (hclock : ∀ ms, .tick ms ∈ moves → 0 ≤ ms) : Ordered u ∧ Books u ∧ Spoken u := by
  refine play?_preserves (P := fun u => Ordered u ∧ Books u ∧ Spoken u)
    (fun hm ⟨ho, hb, hw⟩ hs => ?_) h ⟨ordered_start c now, books_start c now, nofun⟩
  exact ⟨ho.step hb hs fun ms he => hclock ms (he ▸ hm), hb.step hs, hw.step hs⟩

/-- If the clock does not go back, a call that had returned before another one began is
before it everywhere: in time, in the history, and in what is put out, as far as that is
not lost. So if no two calls overlap, the times in the history do not decrease, and what
is put out is entries of lines that were appended, in the same order. The log file has
some of these entries, in that order too, and all of them if it refuses nothing. -/
theorem in_order {name : String} {maxLines : Int} {debug : Bool} {console : Console}
    {file : Option LogFile} {now : Time} {moves : List Move} {u : Usage}
    (h : (start (.make name maxLines debug console file) now).play? moves = some u)
    (hclock : ∀ ms, .tick ms ∈ moves → 0 ≤ ms) :
    (∃ before, u.appended = before ++ u.channel.lines) ∧
    consoleText u.outputs = String.join (u.taken.map fun w => u.channel.entry w.line) ∧
    fileText u.outputs = String.join (u.filed.map fun w => u.channel.entry w.line) ∧
    u.filed.Sublist u.taken ∧
    ((∃ f, file = some f ∧ f.TakesAll) → (∀ f, .file f ∈ moves → f.TakesAll) →
      fileText u.outputs = consoleText u.outputs) ∧
    (∀ {i j}, u.Precedes i j →
      (∀ {a b}, u.calls[i]? = some a → u.calls[j]? = some b →
        a.line.time.ms ≤ b.line.time.ms) ∧
      (j ∈ u.recorded.map (·.call) → [i, j].Sublist (u.recorded.map (·.call))) ∧
      (i ∈ u.taken.map (·.call) → j ∈ u.taken.map (·.call) →
        [i, j].Sublist (u.taken.map (·.call)))) ∧
    (Successive u →
      (u.channel.lines.Pairwise fun a b => a.time.ms ≤ b.time.ms) ∧
      (u.taken.map (·.line)).Sublist u.appended) := by
  obtain ⟨ho, hb, hw⟩ := ordered_of_play? h hclock
  have hlines := (keeps_of_play? h).1.history
  refine ⟨?_, hw.consoleText, hw.fileText, u.filed_sublist_taken, fun hfile hmoves => ?_,
    fun {i j} hp => ⟨ho.time_le hp, fun hj => ?_, fun hi hj => ?_⟩, fun hs =>
    ⟨?_, ho.taken_sublist hb hs⟩⟩
  · rw [hlines]
    exact ⟨_, (List.take_append_drop _ _).symm⟩
  · have hwilling : Willing u := play?_preserves
      (fun hm hu hs => hu.step hs fun f hf => hmoves f (hf ▸ hm)) h ⟨hfile, nofun⟩
    rw [hw.fileText, hw.consoleText, hwilling.filed]
  · obtain ⟨hlt, call, hc, hr⟩ := ho.returned hp
    have hi : i ∈ u.recorded.map (·.call) := (hb.recorded_iff hc).mpr (by rw [hr]; decide)
    exact pair_sublist ho.recorded hp hi hj hlt.ne
  · exact pair_sublist (ho.written.sublist taken_sublist_written) hp hi hj (ho.returned hp).1.ne
  · rw [hlines]
    exact (ho.appended_pairwise hb hs).sublist (List.drop_sublist ..)

/-- Two calls that cross are recorded in one order, and written in the other; the
first line of the history is the later one. And what is written to a console that
fails is lost, in the log file too, although it stands in the history. -/
theorem crossing_calls_out_of_order :
    (∃ u, (start (.make "c" 0 false .works none) ⟨0⟩).play? [.call "a", .tick 5, .call "b",
        .enter 1, .leave, .enter 0, .leave, .write 0, .write 1] = some u ∧
      u.channel.lines = [⟨⟨5⟩, "b"⟩, ⟨⟨0⟩, "a"⟩] ∧
      (¬u.channel.lines.Pairwise fun a b => a.time.ms ≤ b.time.ms) ∧
      u.outputs = [.console (u.channel.entry ⟨⟨0⟩, "a"⟩), .console (u.channel.entry ⟨⟨5⟩, "b"⟩)] ∧
      consoleText u.outputs ≠ String.join (u.channel.lines.map u.channel.entry)) ∧
    ∃ u, (start (.make "c" 0 false .fails (some ⟨fun _ => true⟩)) ⟨0⟩).play? [.call "a", .enter 0, .leave,
        .write 0] = some u ∧
      u.channel.lines = [⟨⟨0⟩, "a"⟩] ∧ u.outputs = [] := by
  refine ⟨⟨_, rfl, rfl, by decide, rfl, ?_⟩, _, rfl, rfl, rfl⟩
  decide

/-- Two calls that do not overlap, of the first of which nothing is put out. -/
theorem successive_calls_in_order :
    ∃ u, (start (.make "c" 0 false .fails none) ⟨0⟩).play? [.call "a", .enter 0, .leave, .write 0,
        .tick 5, .console .works, .call "b", .enter 1, .leave, .write 1] = some u ∧
      u.channel.lines = [⟨⟨0⟩, "a"⟩, ⟨⟨5⟩, "b"⟩] ∧
      (u.channel.lines.Pairwise fun a b => a.time.ms ≤ b.time.ms) ∧
      [0, 1].Sublist (u.recorded.map (·.call)) ∧
      u.taken.map (·.line) = [⟨⟨5⟩, "b"⟩] ∧
      consoleText u.outputs = String.join (u.taken.map fun w => u.channel.entry w.line) := by
  have hrun : ∃ u, (start (.make "c" 0 false .fails none) ⟨0⟩).play? [.call "a", .enter 0, .leave,
        .write 0, .tick 5, .console .works, .call "b", .enter 1, .leave, .write 1] = some u ∧
      u.channel.lines = [⟨⟨0⟩, "a"⟩, ⟨⟨5⟩, "b"⟩] ∧ u.taken.map (·.line) = [⟨⟨5⟩, "b"⟩] ∧
      u.recorded.map (·.call) = [0, 1] ∧ u.Precedes 0 1 :=
    ⟨_, rfl, rfl, rfl, rfl, _, rfl, by decide⟩
  obtain ⟨u, h, hl, ht, hr, hp⟩ := hrun
  obtain ⟨-, htext, -, -, -, hpairs, hsuccessive⟩ := in_order h (by simp)
  have hs : Successive u := fun {i j} hi hj hne => by
    simp only [hr, List.mem_cons, List.not_mem_nil, or_false] at hi hj
    obtain ⟨rfl | rfl, rfl | rfl⟩ := And.intro hi hj
    · exact absurd rfl hne
    · exact .inl hp
    · exact .inr hp
    · exact absurd rfl hne
  exact ⟨u, h, hl, (hsuccessive hs).1, (hpairs hp).2.1 (by rw [hr]; decide), ht, htext⟩

end Usage

end LanguageClient.Log
