import Mathlib.Data.List.Perm.Basic
import Mathlib.Data.List.Pairwise
import LanguageClient.Proofs.Json.Members
import LanguageClient.Rpc.Message

/-! # The order of the members does not count.

A record is read member by member, each by the reader of its name. Readers of different
names write different fields, so two members with different names may change places
(`Commutes`), members no reader is for leave no trace, and the white space before a value
is no part of it (`Unspaced`). So what is read from a message is a matter of its members
alone: two objects with the same known members in any order, spaced in any way and with
any others among them, are the same message (`parse_depends_on_members`).

Names count as different if they stay so when letter case is dropped. Two members of one
name do not change places: the later one is read on top of what the earlier one left. -/

namespace LanguageClient.Json.Decoder

variable {α : Type} {fields : List (FieldReader α)}

/-! ### Members, one by one -/

/-- The reader of a member with this name, as it is spelled. -/
def readerOf? (fields : List (FieldReader α)) (name : Bytes) : Option (FieldReader α) :=
  fields.find? fun f => Text.sameName f.name.toList (unquote name).toList

/-- What one more member makes of what has been read. -/
def noteMember (fields : List (FieldReader α)) (r : Option α) (m : Bytes × List Token) : Option α :=
  match readerOf? fields m.1 with
  | none => r
  | some f => r.bind fun current => f.update current m.2

/-- Behind a member that could not be read nothing is read. -/
@[simp] theorem noteMember_none (m : Bytes × List Token) : noteMember fields none m = none := by
  unfold noteMember
  split <;> rfl

theorem foldl_noteMember_none (ms : List (Bytes × List Token)) :
    ms.foldl (noteMember fields) none = none := by
  induction ms with
  | nil => rfl
  | cons m ms ih =>
      rw [List.foldl_cons, noteMember_none, ih]

/-- A record is read by one member after the other. -/
theorem membersInto_eq_foldl (current : α) (ms : List (Bytes × List Token)) :
    membersInto fields current ms = ms.foldl (noteMember fields) (some current) := by
  induction ms generalizing current with
  | nil => rfl
  | cons m ms ih =>
      rw [List.foldl_cons, membersInto, noteMember, readerOf?]
      cases fields.find? fun f => Text.sameName f.name.toList (unquote m.1).toList with
      | none => exact ih current
      | some f =>
          dsimp only [Option.bind_some]
          cases f.update current m.2 with
          | none => exact (foldl_noteMember_none ms).symm
          | some next => exact ih next

/-! ### Members nobody reads -/

/-- Members without a reader leave no trace. -/
theorem foldl_noteMember_filter (r : Option α) (ms : List (Bytes × List Token)) :
    (ms.filter fun m => (readerOf? fields m.1).isSome).foldl (noteMember fields) r =
      ms.foldl (noteMember fields) r := by
  induction ms generalizing r with
  | nil => rfl
  | cons m ms ih =>
      rw [List.filter_cons, List.foldl_cons]
      split
      · exact ih _
      · next hunknown =>
          have hskip : noteMember fields r m = r := by
            unfold noteMember
            split
            · rfl
            · next f hf => exact absurd (by rw [hf]; rfl) hunknown
          rw [hskip]
          exact ih r

/-! ### The order -/

/-- Two readers that may change places. -/
def Commutes (f g : FieldReader α) : Prop :=
  ∀ current a b, ((f.update current a).bind fun next => g.update next b) =
    (g.update current b).bind fun next => f.update next a

instance : Std.Symm (Commutes (α := α)) := ⟨fun _ _ h current a b => (h current b a).symm⟩

/-- Readers of two fields commute. -/
theorem commutes_of_fields {β γ : Type} {name name' : String} {get : α → β} {set : α → β → α}
    {get' : α → γ} {set' : α → γ → α} {d : Decoder β} {d' : Decoder γ}
    (hget : ∀ r y, get (set' r y) = get r) (hget' : ∀ r x, get' (set r x) = get' r)
    (hset : ∀ r x y, set' (set r x) y = set (set' r y) x) :
    Commutes ⟨name, fun r ts => (d (get r) ts).map (set r)⟩
      ⟨name', fun r ts => (d' (get' r) ts).map (set' r)⟩ := by
  intro current a b
  dsimp only
  cases ha : d (get current) a with
  | none =>
      cases hb : d' (get' current) b with
      | none => rfl
      | some y => simp [hget, ha]
  | some x =>
      cases hb : d' (get' current) b with
      | none => simp [hget', hb]
      | some y => simp [hget, hget', ha, hb, hset]

/-- Whether two names are the same but for letter case. -/
def SameName (name name' : Bytes) : Prop :=
  Text.sameName (unquote name).toList (unquote name').toList = true

instance (name name' : Bytes) : Decidable (SameName name name') := inferInstanceAs (Decidable (_ = _))

theorem SameName.symm {name name' : Bytes} (h : SameName name name') : SameName name' name := by
  simp only [SameName, Text.sameName, beq_iff_eq] at h ⊢
  exact Eq.symm h

/-- Two names of one field are the same but for letter case. -/
theorem sameName_of_readerOf? {name name' : Bytes} {f : FieldReader α}
    (h : readerOf? fields name = some f) (h' : readerOf? fields name' = some f) :
    SameName name name' := by
  have hname := List.find?_some h
  have hname' := List.find?_some h'
  simp only [SameName, Text.sameName, beq_iff_eq] at hname hname' ⊢
  rw [← hname, hname']

/-- Members of different names may change places. -/
theorem noteMember_comm (hfields : fields.Pairwise Commutes) {m m' : Bytes × List Token}
    (h : ¬ SameName m.1 m'.1) (r : Option α) :
    noteMember fields (noteMember fields r m) m' = noteMember fields (noteMember fields r m') m := by
  cases r with
  | none => rw [noteMember_none, noteMember_none, noteMember_none]
  | some current =>
      unfold noteMember
      cases hf : readerOf? fields m.1 with
      | none => rfl
      | some f =>
          cases hg : readerOf? fields m'.1 with
          | none => rfl
          | some g =>
              have hne : f ≠ g := by
                rintro rfl
                exact h (sameName_of_readerOf? hf hg)
              exact hfields.forall (List.mem_of_find?_eq_some hf) (List.mem_of_find?_eq_some hg) hne
                current m.2 m'.2

/-- **The order of members with different names does not count.** -/
theorem foldl_noteMember_perm (hfields : fields.Pairwise Commutes) {ms ms' : List (Bytes × List Token)}
    (h : ms.Perm ms') (hnames : ms.Pairwise fun a b => ¬ SameName a.1 b.1) (r : Option α) :
    ms.foldl (noteMember fields) r = ms'.foldl (noteMember fields) r := by
  apply h.foldl_eq'
  intro a ha b hb r
  by_cases hab : a = b
  · rw [hab]
  · have hsymm : Std.Symm fun a b : Bytes × List Token => ¬ SameName a.1 b.1 :=
      ⟨fun _ _ hab hba => hab hba.symm⟩
    exact noteMember_comm hfields (hnames.forall ha hb hab) r

/-! ### White space before a value -/

/-- A decoder that does not look at the white space before a value. -/
def Unspaced (d : Decoder α) : Prop := ∀ current space ts, d current (respace space ts) = d current ts

theorem unspaced_raw : Unspaced raw := by
  intro current space ts
  exact congrArg (fun bs => some (some bs)) (fragment_respace space ts)

theorem unspaced_text : Unspaced text := by
  intro current space ts
  match ts with
  | [] | [_] | _ :: _ :: _ => rfl

theorem unspaced_record : Unspaced (record fields) := by
  intro current space ts
  cases ts <;> rfl

theorem Unspaced.optional {d : Decoder α} (hd : Unspaced d) (zero : α) : Unspaced (d.optional zero) := by
  intro current space ts
  have hnull : isNull (respace space ts) = isNull ts := by
    match ts with
    | [] | [_] | _ :: _ :: _ => rfl
  rw [Decoder.optional, Decoder.optional, hnull, hd]

/-- White space between tokens makes no difference to what is read of members. -/
theorem foldl_noteMember_unspaced (hfields : ∀ f ∈ fields, Unspaced f.update) (r : Option α)
    (ms : List (Bytes × List Token)) :
    (ms.map unspaced).foldl (noteMember fields) r = ms.foldl (noteMember fields) r := by
  have hnote : ∀ r m, noteMember fields r (unspaced m) = noteMember fields r m := by
    intro r m
    unfold noteMember
    rw [unspaced]
    cases hf : readerOf? fields m.1 with
    | none => rfl
    | some f =>
        have hupdate := hfields f (List.mem_of_find?_eq_some hf)
        simp only [hupdate _ [] m.2]
  rw [List.foldl_map]
  congr 1
  funext r m
  exact hnote r m

end LanguageClient.Json.Decoder

namespace LanguageClient.Rpc

open Json (Member ObjectText IsObject parse? maxDepth unspaced)
open Json.Decoder

/-! ### Messages -/

/-- The members of a message are read into fields of their own. -/
theorem commutes_memberReaders : memberReaders.Pairwise Commutes := by
  simp only [memberReaders, List.pairwise_cons, List.forall_mem_cons, List.not_mem_nil, false_implies,
    implies_true, and_true, List.Pairwise.nil]
  refine ⟨⟨?_, ?_, ?_, ?_, ?_⟩, ⟨?_, ?_, ?_, ?_⟩, ⟨?_, ?_, ?_⟩, ⟨?_, ?_⟩, ?_⟩
  all_goals exact commutes_of_fields (fun _ _ => rfl) (fun _ _ => rfl) (fun _ _ _ => rfl)

theorem unspaced_memberReaders : ∀ f ∈ memberReaders, Unspaced f.update := by
  have hfield : ∀ {β : Type} {get : Members → β} {set : Members → β → Members} {d : Json.Decoder β},
      Unspaced d → Unspaced fun r ts => (d (get r) ts).map (set r) := by
    intro β get set d hd current space ts
    exact congrArg (Option.map (set current)) (hd _ space ts)
  simp only [memberReaders, List.forall_mem_cons, List.not_mem_nil, false_implies, implies_true, and_true]
  refine ⟨?_, ?_, ?_, ?_, ?_, ?_⟩
  · exact hfield unspaced_text
  · exact hfield unspaced_text
  · exact hfield unspaced_raw
  · exact hfield unspaced_raw
  · exact hfield unspaced_raw
  · exact hfield (unspaced_record.optional _)

/-- How deep the members of a message may be nested. -/
def memberDepth : Nat := maxDepth - 1

def isKnown (m : Member) : Bool := (readerOf? memberReaders m.name).isSome

section
variable {ms ms' : List Member} {raw raw' : Bytes}

/-- The record that is read from the members of a message. -/
def readMembers (ms : List Member) : Option Members :=
  (ms.map (Member.tokens memberDepth)).foldl (noteMember memberReaders) (some {})

/-- What is read from a message is read from its members. -/
theorem run_of_objectText (h : ObjectText memberDepth ms raw) :
    membersDecoder.run {} raw = (readMembers ms).elim (.error .mismatch) .ok := by
  obtain ⟨ts, hparse, ⟨brace, rest, rfl, hbrace⟩, hmembers⟩ := Json.parse?_of_objectText h
  have hread : membersDecoder {} (brace :: rest) = readMembers ms := by
    rw [readMembers, ← hmembers, foldl_noteMember_unspaced unspaced_memberReaders,
      ← membersInto_eq_foldl, membersDecoder, record, hbrace]
  have hdepth : memberDepth + 1 = maxDepth := rfl
  rw [hdepth] at hparse
  rw [run, hparse]
  dsimp only
  rw [hread]
  cases readMembers ms <;> rfl

/-- Known members make a message, in any order. -/
theorem readMembers_congr (hnames : ms.Pairwise fun a b => ¬ SameName a.name b.name)
    (hmembers : (ms.filter isKnown).Perm (ms'.filter isKnown)) : readMembers ms = readMembers ms' := by
  have hknown : ∀ ms : List Member, readMembers ms = readMembers (ms.filter isKnown) := by
    intro ms
    have hfilter : (fun m : Bytes × List Json.Token => (readerOf? memberReaders m.1).isSome) ∘
        Member.tokens memberDepth = isKnown := by
      funext m
      rw [Function.comp_apply, Member.tokens, isKnown]
    rw [readMembers, readMembers, ← foldl_noteMember_filter, List.filter_map, hfilter]
  rw [hknown ms, hknown ms', readMembers, readMembers]
  apply foldl_noteMember_perm commutes_memberReaders (hmembers.map _)
  exact List.pairwise_map.mpr (hnames.filter _)

/-- Texts of which the same is read are the same message. -/
theorem parse_congr (h : membersDecoder.run {} raw = membersDecoder.run {} raw') :
    (parse raw').toOption = (parse raw).toOption.map fun m => { m with raw := raw' } := by
  rw [parse, parse, h]
  cases membersDecoder.run {} raw' with
  | error e => rfl
  | ok m =>
      dsimp only
      split
      · rfl
      · cases classify m <;> rfl

end

/-- **A message is its members.** Every object has members of one spelling, and two
objects whose known members are the same but for their order, with white space anywhere
between them and members of unknown names added or left out, are both refused or both the
same message: of one kind, with the same method and error, and with the same id,
parameters and result, octet for octet. The names of the members have to differ in more
than letter case. -/
theorem parse_depends_on_members :
    (∀ raw ts, parse? (some maxDepth) raw = some ts → IsObject ts →
      ∃! ms, ObjectText memberDepth ms raw) ∧
    ∀ ms ms' raw raw', ObjectText memberDepth ms raw → ObjectText memberDepth ms' raw' →
      (ms.Pairwise fun a b => ¬ SameName a.name b.name) →
      (ms.filter isKnown).Perm (ms'.filter isKnown) →
      (parse raw').toOption = (parse raw).toOption.map fun m => { m with raw := raw' } := by
  constructor
  · intro raw ts hparse hobject
    have hms := Json.objectText_of_parse? (n := memberDepth) hparse hobject
    exact ⟨_, hms, fun ms' hms' => hms'.unique hms⟩
  · intro ms ms' raw raw' h h' hnames hmembers
    apply parse_congr
    rw [run_of_objectText h, run_of_objectText h', readMembers_congr hnames hmembers]

/-- What is read of an object shows what its members are. -/
theorem objectText_of_read {ms : List Member} {raw : Bytes}
    (h : (parse? (some maxDepth) raw).map (fun ts =>
      (ts.head?.map Json.Token.kind, (Json.members ts).map Member.ofTokens)) =
        some (some .openObject, ms)) : ObjectText memberDepth ms raw := by
  obtain ⟨ts, hparse, hread⟩ := Option.map_eq_some_iff.mp h
  obtain ⟨hkind, rfl⟩ := Prod.mk.inj hread
  obtain ⟨t, ht, hopens⟩ := Option.map_eq_some_iff.mp hkind
  obtain ⟨rest, rfl⟩ := List.head?_eq_some_iff.mp ht
  exact Json.objectText_of_parse? hparse ⟨t, rest, rfl, hopens⟩

/-- A request, with names in other letters. -/
def denseRequest : Bytes := utf8 "\x7b\"jsonrpc\":\"2.0\",\"Method\":\"m\",\"ID\":[1, 2],\"params\":\x7b\x7d\x7d"

def denseMembers : List Member := [
  ⟨utf8 "\"jsonrpc\"", utf8 "\"2.0\""⟩, ⟨utf8 "\"Method\"", utf8 "\"m\""⟩,
  ⟨utf8 "\"ID\"", utf8 "[1, 2]"⟩, ⟨utf8 "\"params\"", utf8 "\x7b\x7d"⟩]

/-- The same one, spaced and in another order, with a member that is not known. -/
def looseRequest : Bytes :=
  utf8 " \x7b \"params\" : \x7b\x7d, \"x\":[null] ,\"ID\": [1, 2],\n\"jsonrpc\":\"2.0\", \"Method\": \"m\" \x7d\n"

def looseMembers : List Member := [
  ⟨utf8 "\"params\"", utf8 "\x7b\x7d"⟩, ⟨utf8 "\"x\"", utf8 "[null]"⟩, ⟨utf8 "\"ID\"", utf8 "[1, 2]"⟩,
  ⟨utf8 "\"jsonrpc\"", utf8 "\"2.0\""⟩, ⟨utf8 "\"Method\"", utf8 "\"m\""⟩]

/-- The same members in another order, with white space and one that nobody knows, are the same request. -/
theorem loose_request_parses :
    ObjectText memberDepth denseMembers denseRequest ∧ ObjectText memberDepth looseMembers looseRequest ∧
    (denseMembers.Pairwise fun a b => ¬ SameName a.name b.name) ∧
    (denseMembers.filter isKnown).Perm (looseMembers.filter isKnown) ∧
    (∃! ms, ObjectText memberDepth ms looseRequest) ∧
    (parse looseRequest).toOption =
      (parse denseRequest).toOption.map (fun m => { m with raw := looseRequest }) ∧
    (parse denseRequest).toOption.map (fun m => (m.kind, m.method, m.id)) =
      some (.request, "m", some (utf8 "[1, 2]")) := by
  have hdense : ObjectText memberDepth denseMembers denseRequest := objectText_of_read (by decide +kernel)
  have hloose : ObjectText memberDepth looseMembers looseRequest := objectText_of_read (by decide +kernel)
  have hnames : denseMembers.Pairwise fun a b => ¬ SameName a.name b.name := by decide +kernel
  have hmembers : (denseMembers.filter isKnown).Perm (looseMembers.filter isKnown) := by decide +kernel
  obtain ⟨hunique, hsame⟩ := parse_depends_on_members
  obtain ⟨ts, hparse, hobject, -⟩ := Json.parse?_of_objectText hloose
  refine ⟨hdense, hloose, hnames, hmembers, ?_, ?_, by decide +kernel⟩
  · exact hunique looseRequest ts hparse hobject
  · exact hsame denseMembers looseMembers denseRequest looseRequest hdense hloose hnames hmembers

end LanguageClient.Rpc
