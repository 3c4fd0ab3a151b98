import LanguageClient.Config.Load
import LanguageClient.Config.Yaml
import LanguageClient.Proofs.Config.Source
import LanguageClient.Proofs.Config.Validity
import Mathlib.Data.List.Nodup

/-! # The entry with the least priority number is in effect.

`Config.get` reads a configuration by key, as `assign` writes it: applying entries
for different keys gives every one of these keys its value and changes no other
(`get_applyAll`). What comes of the winning entries is said without reference to
the order in which they were found (`Describes`), and `load_lowest_wins` says that
this is what loading gives, whatever the order of the sources and of what they
hold, and however files are understood. -/

namespace LanguageClient.Config

/-! ### Fields -/

def get (c : Config) : Key → Setting
  | .installRoot => .text c.installRoot
  | .baseName => .text c.baseName
  | .languageId => .text c.languageId
  | .extensions => .texts c.extensions
  | .releaseBaseUrl => .text c.releaseBaseUrl
  | .manifestPath => .text c.manifestPath
  | .version => .text c.version
  | .downloadTimeout => .duration c.downloadTimeout
  | .startTimeout => .duration c.startTimeout
  | .stopTimeout => .duration c.stopTimeout
  | .debug => .boolean c.debug
  | .logFile => .text c.log.file
  | .logMaxSize => .number c.log.maxSizeMb
  | .logMaxBackups => .number c.log.maxBackups
  | .logMaxAge => .number c.log.maxAgeDays
  | .logCompress => .boolean c.log.compress

/-- An entry for a known key with a value that the key takes. -/
def Entry.WellTyped (e : Entry) : Prop := ∃ k : Key, k.name = e.key ∧ k.Takes e.value

/-- Nothing but its keys and the entries they come from is in a configuration. -/
theorem ext_get {c d : Config} (hget : ∀ k, c.get k = d.get k) (hsources : c.sources = d.sources) :
    c = d := by
  -- Every field but the sources is the value of a key.
  have hroot := hget .installRoot
  have hbase := hget .baseName
  have hlanguage := hget .languageId
  have hextensions := hget .extensions
  have hurl := hget .releaseBaseUrl
  have hmanifest := hget .manifestPath
  have hversion := hget .version
  have hdownload := hget .downloadTimeout
  have hstart := hget .startTimeout
  have hstop := hget .stopTimeout
  have hdebug := hget .debug
  have hfile := hget .logFile
  have hsize := hget .logMaxSize
  have hbackups := hget .logMaxBackups
  have hage := hget .logMaxAge
  have hcompress := hget .logCompress
  obtain ⟨_, _, _, _, _, _, _, _, _, _, ⟨_, _, _, _, _⟩, _, _⟩ := c
  obtain ⟨_, _, _, _, _, _, _, _, _, _, ⟨_, _, _, _, _⟩, _, _⟩ := d
  simp_all [get]

/-- A value can be assigned to a key exactly if it is of the key's type. -/
theorem exists_assign {c : Config} {k : Key} {v : Setting} :
    (∃ d, c.assign k v = some d) ↔ k.Takes v := by
  cases k <;> cases v <;> simp [assign, Key.Takes]

/-- **An assignment changes its key and no other.** -/
theorem get_assign {c d : Config} {k : Key} {v : Setting} (h : c.assign k v = some d) :
    ∀ j, d.get j = if j = k then v else c.get j := by
  intro j
  cases k <;> cases v <;> cases h <;> cases j <;> rfl

/-! ### Entries -/

theorem Key.ofName?_eq_some {s : String} {k : Key} : ofName? s = some k ↔ k.name = s := by
  constructor
  · intro h
    simpa using List.find?_some h
  · rintro rfl
    exact ofName?_name k

/-- An entry is applied by assigning its value to the key that it names. -/
theorem apply_eq_ok {c d : Config} {e : Entry} :
    c.apply e = .ok d ↔ ∃ k : Key, k.name = e.key ∧ c.assign k e.value = some d := by
  unfold Config.apply
  split
  · next hnone =>
      refine ⟨nofun, ?_⟩
      rintro ⟨k, hk, -⟩
      cases hnone.symm.trans (Key.ofName?_eq_some.mpr hk)
  · next k hsome =>
      constructor
      · intro h
        split at h <;> cases h
        next hassign => exact ⟨k, Key.ofName?_eq_some.mp hsome, hassign⟩
      · rintro ⟨j, hj, hassign⟩
        cases hsome.symm.trans (Key.ofName?_eq_some.mpr hj)
        rw [hassign]

theorem exists_apply {c : Config} {e : Entry} : (∃ d, c.apply e = .ok d) ↔ e.WellTyped := by
  constructor
  · rintro ⟨d, h⟩
    obtain ⟨k, hk, hassign⟩ := apply_eq_ok.mp h
    exact ⟨k, hk, exists_assign.mp ⟨d, hassign⟩⟩
  · rintro ⟨k, hk, htakes⟩
    obtain ⟨d, hd⟩ := exists_assign.mpr htakes
    exact ⟨d, apply_eq_ok.mpr ⟨k, hk, hd⟩⟩

theorem applyAll_cons (c : Config) (e : Entry) (es : List Entry) :
    c.applyAll (e :: es) = c.apply e >>= fun d => d.applyAll es := List.foldlM_cons

/-- Entries can be applied if and only if each of them can. -/
theorem exists_applyAll {c : Config} {es : List Entry} :
    (∃ d, c.applyAll es = .ok d) ↔ ∀ e ∈ es, e.WellTyped := by
  induction es generalizing c with
  | nil => exact ⟨fun _ => nofun, fun _ => ⟨c, rfl⟩⟩
  | cons e es ih =>
      rw [applyAll_cons, List.forall_mem_cons]
      constructor
      · rintro ⟨d, h⟩
        obtain ⟨c', hc', h⟩ := bind_eq_ok h
        exact ⟨exists_apply.mp ⟨c', hc'⟩, ih.mp ⟨d, h⟩⟩
      · rintro ⟨he, hes⟩
        obtain ⟨c', hc'⟩ := exists_apply.mpr he
        rw [hc']
        exact ih.mpr hes

/-- **Applying gives every key of an entry its value and changes no other key.** -/
theorem get_applyAll {c d : Config} {es : Snapshot} (hes : es.Distinct) (h : c.applyAll es = .ok d)
    (k : Key) : (∀ e ∈ es, e.key = k.name → d.get k = e.value) ∧
      ((∀ e ∈ es, e.key ≠ k.name) → d.get k = c.get k) := by
  induction es generalizing c with
  | nil =>
      cases h
      exact ⟨nofun, fun _ => rfl⟩
  | cons e es ih =>
      obtain ⟨hne, hes⟩ := List.pairwise_cons.mp hes
      rw [applyAll_cons] at h
      obtain ⟨c', hc', h⟩ := bind_eq_ok h
      obtain ⟨j, hj, hassign⟩ := apply_eq_ok.mp hc'
      obtain ⟨hset, hkept⟩ := ih hes h
      have hget := get_assign hassign k
      constructor
      · intro x hx hxk
        rcases List.mem_cons.mp hx with rfl | hx
        · -- no later entry is for this key
          rw [hkept fun y hy hyk => hne y hy (hxk.trans hyk.symm), hget,
            if_pos (Key.name_inj (hxk.symm.trans hj.symm))]
        · exact hset x hx hxk
      · intro hother
        obtain ⟨he, hother⟩ := List.forall_mem_cons.mp hother
        have hkj : k ≠ j := by
          rintro rfl
          exact he hj.symm
        rw [hkept hother, hget, if_neg hkj]

/-! ### Configurations -/

/-- The configuration that the winning entries describe: a key has the value of its
entry, or the built-in one if there is none. -/
structure Describes (env : Environment) (won : Entry → Prop) (c : Config) : Prop where
  given : ∀ e k, won e → e.key = k.name → c.get k = e.value
  standard : ∀ k : Key, (∀ e, won e → e.key ≠ k.name) → c.get k = (builtin env).get k
  sources : ∀ e, e ∈ c.sources ↔ won e
  distinct : c.sources.Distinct
  ordered : c.sources.Pairwise fun a b => a.key ≤ b.key

variable {decode : Decoder} {fs : FileSystem} {env : Environment} {won : Entry → Prop} {c d : Config}

/-- Entries describe at most one configuration. -/
theorem Describes.unique (hc : Describes env won c) (hd : Describes env won d) : c = d := by
  apply ext_get
  · intro k
    by_cases hset : ∃ e, won e ∧ e.key = k.name
    · obtain ⟨e, he, hk⟩ := hset
      rw [hc.given e k he hk, hd.given e k he hk]
    · have hnone : ∀ e, won e → e.key ≠ k.name := fun e he hk => hset ⟨e, he, hk⟩
      rw [hc.standard k hnone, hd.standard k hnone]
  · apply Snapshot.eq_of_ordered hc.distinct hd.distinct hc.ordered hd.ordered
    intro e
    rw [hc.sources, hd.sources]

/-- What was applied, with the entries as its sources. -/
theorem describes_applyAll {es : Snapshot} (hes : es.Distinct)
    (hordered : es.Pairwise fun a b => a.key ≤ b.key) (h : (builtin env).applyAll es = .ok c) :
    Describes env (· ∈ es) { c with sources := es } where
  given := by
    intro e k he hk
    exact (get_applyAll hes h k).1 e he hk
  standard := by
    intro k hnone
    exact (get_applyAll hes h k).2 hnone
  sources := fun _ => Iff.rfl
  distinct := hes
  ordered := hordered

/-- Entries make a configuration exactly if they are well typed, it is the one they describe, and it is
valid. -/
theorem ofEntries_eq_ok {es : Snapshot} (hes : es.Distinct)
    (hordered : es.Pairwise fun a b => a.key ≤ b.key) :
    ofEntries env es = .ok c ↔
      (∀ e ∈ es, e.WellTyped) ∧ Describes env (· ∈ es) c ∧ c.validate = .ok () := by
  constructor
  · intro h
    obtain ⟨d, hd, h⟩ := bind_eq_ok h
    have htyped := exists_applyAll.mp ⟨d, hd⟩
    dsimp only at h
    split at h
    · cases h
    · next hvalid =>
        cases h
        exact ⟨htyped, describes_applyAll hes hordered hd, hvalid⟩
  · rintro ⟨htyped, hdescribes, hvalid⟩
    obtain ⟨d, hd⟩ := exists_applyAll.mpr htyped
    -- Applying gives some configuration, and only one is described by the entries.
    have hsame := hdescribes.unique (describes_applyAll hes hordered hd)
    rw [ofEntries, hd]
    subst hsame
    dsimp only [bind, Except.bind]
    rw [hvalid]
    rfl

/-! ### Sources -/

/-- An entry of one of the sources. -/
def Offered (decode : Decoder) (fs : FileSystem) (sources : List Source) (e : Entry) : Prop :=
  ∃ s ∈ sources, s.Gives decode fs e

/-- The entry with the least priority number for its key. -/
def Wins (decode : Decoder) (fs : FileSystem) (sources : List Source) : Entry → Prop :=
  Snapshot.Least (Offered decode fs sources)

theorem offered_cons {s : Source} {rest : List Source} {order : Iteration} {found : Snapshot}
    (h : s.load decode fs order = .ok found) (e : Entry) :
    Offered decode fs (s :: rest) e ↔ e ∈ order.entries s found ∨ Offered decode fs rest e := by
  have hmem : e ∈ order.entries s found ↔ s.Gives decode fs e :=
    (order.entries_perm s found).mem_iff.trans (((s.load_spec decode fs order).2.1 found h).2 e)
  simp [Offered, hmem]

/-- The order of the sources makes no difference to what they offer. -/
theorem offered_perm {sources sources' : List Source} (h : sources'.Perm sources) :
    Offered decode fs sources' = Offered decode fs sources := by
  funext e
  simp only [Offered, h.mem_iff]

/-- **Going through the sources keeps the best entry of every key.** -/
theorem winners_holds {order : Iteration} {sources : List Source} {won r : Snapshot}
    {P : Entry → Prop} (h : winners decode fs order sources won = .ok r) (hwon : won.Holds P) :
    r.Holds fun e => P e ∨ Offered decode fs sources e := by
  induction sources generalizing won P with
  | nil =>
      cases h
      exact hwon.congr (by simp [Offered])
  | cons s rest ih =>
      rw [winners] at h
      split at h
      · cases h
      · next found hload =>
          apply (ih h (hwon.merge _)).congr
          intro e
          rw [offered_cons hload, or_assoc]

/-- The winning entries can be found if and only if all sources can be read. -/
theorem exists_winners {order : Iteration} {sources : List Source} {won : Snapshot} :
    (∃ r, winners decode fs order sources won = .ok r) ↔ ∀ s ∈ sources, s.Readable decode fs := by
  induction sources generalizing won with
  | nil => exact ⟨fun _ => nofun, fun _ => ⟨won, rfl⟩⟩
  | cons s rest ih =>
      rw [winners, List.forall_mem_cons, ← (s.load_spec decode fs order).1]
      split
      · next e hload =>
          refine ⟨nofun, ?_⟩
          rintro ⟨⟨found, hfound⟩, -⟩
          cases hload.symm.trans hfound
      · next found hload =>
          rw [ih]
          exact ⟨fun hrest => ⟨⟨found, hload⟩, hrest⟩, And.right⟩

/-- Sources of one priority are of one kind. -/
theorem Source.name_of_priority {s t : Source} (h : s.priority = t.priority) : s.name = t.name := by
  cases s <;> cases t <;> first | rfl | cases h

/-- No source gives two entries for one key. -/
theorem Source.Gives.unique {s : Source} {a b : Entry} (hs : s.Readable decode fs)
    (ha : s.Gives decode fs a) (hb : s.Gives decode fs b) (hk : a.key = b.key) : a = b := by
  obtain ⟨found, hfound⟩ := (s.load_spec decode fs .asGiven).1.mpr hs
  obtain ⟨hdistinct, hmem⟩ := (s.load_spec decode fs .asGiven).2.1 found hfound
  exact hdistinct.eq_of_key ((hmem a).mpr ha) ((hmem b).mpr hb) hk

/-- Of sources of different kinds, no two give entries of one priority. -/
theorem offered_unique {sources : List Source} (hread : ∀ s ∈ sources, s.Readable decode fs)
    (hkinds : (sources.map Source.name).Nodup) (a b : Entry) (ha : Offered decode fs sources a)
    (hb : Offered decode fs sources b) (hk : a.key = b.key) (hp : a.priority = b.priority) : a = b := by
  obtain ⟨s, hs, ha⟩ := ha
  obtain ⟨t, ht, hb⟩ := hb
  -- The priority of an entry tells the kind of its source, and each kind is there once.
  have hname : s.name = t.name := by
    apply Source.name_of_priority
    rw [← ha.priority, hp, hb.priority]
  have hst : s = t := List.inj_on_of_nodup_map hkinds hs ht hname
  subst hst
  exact ha.unique (hread s hs) hb hk

/-- The entries that are applied, in the order in which this is done. -/
theorem winners_sorted {order : Iteration} {sources : List Source} {r : Snapshot}
    (hkinds : (sources.map Source.name).Nodup) (h : winners decode fs order sources [] = .ok r) :
    (order.won r).sorted.Distinct ∧ (∀ e, e ∈ (order.won r).sorted ↔ Wins decode fs sources e) := by
  have hholds : r.Holds (Offered decode fs sources) :=
    (winners_holds h Snapshot.holds_nil).congr fun e => by simp
  have hperm := order.won_perm r
  constructor
  · apply Snapshot.Distinct.sorted
    exact (List.Perm.pairwise_iff fun hab => Ne.symm hab) hperm |>.mpr hholds.distinct
  · intro e
    rw [Snapshot.mem_sorted, hperm.mem_iff]
    exact hholds.mem_iff (offered_unique (exists_winners.mp ⟨r, h⟩) hkinds)

/-- **Loading succeeds with the configuration that the winning entries describe**, if
these can be had, each has a value its key takes, and the configuration is valid. -/
theorem loadIn_eq_ok {sources : List Source} (hkinds : (sources.map Source.name).Nodup)
    (order : Iteration) : loadIn order decode fs env sources = .ok c ↔
      (∀ s ∈ sources, s.Readable decode fs) ∧ (∀ e, Wins decode fs sources e → e.WellTyped) ∧
        Describes env (Wins decode fs sources) c ∧ c.validate = .ok () := by
  have hstep : ∀ r, winners decode fs order sources [] = .ok r →
      (ofEntries env (order.won r).sorted = .ok c ↔
        (∀ e, Wins decode fs sources e → e.WellTyped) ∧
          Describes env (Wins decode fs sources) c ∧ c.validate = .ok ()) := by
    intro r hr
    obtain ⟨hdistinct, hmem⟩ := winners_sorted hkinds hr
    have hwins : (· ∈ (order.won r).sorted) = Wins decode fs sources := funext fun e => propext (hmem e)
    rw [ofEntries_eq_ok hdistinct (Snapshot.pairwise_sorted _), hwins]
    simp only [hmem]
  constructor
  · intro h
    obtain ⟨r, hr, h⟩ := bind_eq_ok h
    exact ⟨exists_winners.mp ⟨r, hr⟩, (hstep r hr).mp h⟩
  · rintro ⟨hread, hrest⟩
    obtain ⟨r, hr⟩ : ∃ r, winners decode fs order sources [] = .ok r := exists_winners.mpr hread
    rw [loadIn, hr]
    exact (hstep r hr).mpr hrest

/-- If all sources can be read, their order shows in nothing, not even in an error. -/
theorem loadIn_perm {sources sources' : List Source} (hkinds : (sources.map Source.name).Nodup)
    (hperm : sources'.Perm sources) (hread : ∀ s ∈ sources, s.Readable decode fs)
    (order order' : Iteration) :
    loadIn order' decode fs env sources' = loadIn order decode fs env sources := by
  have hkinds' : (sources'.map Source.name).Nodup := (hperm.map _).nodup_iff.mpr hkinds
  have hread' : ∀ s ∈ sources', s.Readable decode fs := fun s hs => hread s (hperm.mem_iff.mp hs)
  obtain ⟨r, hr⟩ : ∃ r, winners decode fs order sources [] = .ok r := exists_winners.mpr hread
  obtain ⟨r', hr'⟩ : ∃ r', winners decode fs order' sources' [] = .ok r' := exists_winners.mpr hread'
  obtain ⟨hd, hmem⟩ := winners_sorted hkinds hr
  obtain ⟨hd', hmem'⟩ := winners_sorted hkinds' hr'
  -- The same entries with different keys, sorted by key, are the same list.
  have hsame : (order'.won r').sorted = (order.won r).sorted := by
    apply Snapshot.eq_of_ordered hd' hd (Snapshot.pairwise_sorted _) (Snapshot.pairwise_sorted _)
    intro e
    rw [hmem, hmem', Wins, Wins, offered_perm hperm]
  rw [loadIn, loadIn, hr, hr']
  change ofEntries env (order'.won r').sorted = ofEntries env (order.won r).sorted
  rw [hsame]

/-- **The entry with the least priority number wins.** For sources of different kinds,
listed and gone through in any order: loading succeeds if and only if every source
can be read, every winning entry has a known key and a value of its type, and what
they describe is valid. It then gives what they describe, and the same for every
order; if only the sources can be read, errors do not depend on the order either.
What a source gives, when it can be read and what is wrong otherwise is said of the
source itself; loading it agrees with that in any order. -/
theorem load_lowest_wins (decode : Decoder) (fs : FileSystem) (env : Environment) (sources : List Source)
    (hkinds : (sources.map Source.name).Nodup) :
    ∀ (order : Iteration) (sources' : List Source), sources'.Perm sources →
      ((∃ c, loadIn order decode fs env sources' = .ok c) ↔
        (∀ s ∈ sources, s.Readable decode fs) ∧ (∀ e, Wins decode fs sources e → e.WellTyped) ∧
          ∃ c, Describes env (Wins decode fs sources) c ∧ c.validate = .ok ()) ∧
      (∀ c, loadIn order decode fs env sources' = .ok c →
        Describes env (Wins decode fs sources) c) ∧
      (loadIn order decode fs env sources').toOption = (load decode fs env sources).toOption ∧
      ((∀ s ∈ sources, s.Readable decode fs) →
        loadIn order decode fs env sources' = load decode fs env sources) ∧
      ∀ s ∈ sources,
        ((∃ found, s.load decode fs order = .ok found) ↔ s.Readable decode fs) ∧
        (∀ found, s.load decode fs order = .ok found → ∀ e, e ∈ found ↔ s.Gives decode fs e) ∧
        ∀ e, s.load decode fs order = .error e → s.Fails decode fs e := by
  intro order sources' hperm
  have hkinds' : (sources'.map Source.name).Nodup := (hperm.map _).nodup_iff.mpr hkinds
  -- What it takes to load, said without the order of sources and entries.
  have hok : ∀ c, loadIn order decode fs env sources' = .ok c ↔
      (∀ s ∈ sources, s.Readable decode fs) ∧ (∀ e, Wins decode fs sources e → e.WellTyped) ∧
        Describes env (Wins decode fs sources) c ∧ c.validate = .ok () := by
    intro c
    rw [loadIn_eq_ok hkinds' order, Wins, Wins, offered_perm hperm]
    simp only [hperm.mem_iff]
  refine ⟨?_, ?_, ?_, ?_, ?_⟩
  · simp only [hok, exists_and_left]
  · intro c hc
    exact ((hok c).mp hc).2.2.1
  · have hsame : ∀ c, loadIn order decode fs env sources' = .ok c ↔
        load decode fs env sources = .ok c := by
      intro c
      rw [hok, load, loadIn_eq_ok hkinds .asGiven]
    -- Two results that succeed together, with the same value, agree as options.
    cases hleft : loadIn order decode fs env sources' with
    | ok c => rw [(hsame c).mp hleft]
    | error e =>
        cases hright : load decode fs env sources with
        | ok c => cases hleft.symm.trans ((hsame c).mpr hright)
        | error e' => rfl
  · intro hread
    exact loadIn_perm hkinds hperm hread .asGiven order
  · intro s _
    obtain ⟨hreadable, hgives, hfails⟩ := s.load_spec decode fs order
    exact ⟨hreadable, fun found h => (hgives found h).2, hfails⟩

/-! ### Three layers -/

/-- A file with values for some keys. -/
def layered : FileSystem :=
  { entries := [(["c.yaml"], .file (utf8 "version: v1\ndebug: true\nstop_timeout: 5s\n") 0o644)] }

/-- The file, a flag and variables; two keys are set more than once. -/
def threeLayers : List Source :=
  [.file "/c.yaml", .flags [⟨"version", "lsp-version", .text "v3"⟩],
    .environment [("GBNF_VERSION", "v2"), ("GBNF_DEBUG", "false")]]

def flagEntry : Entry := ⟨"version", .text "v3", "flags", "--lsp-version", 1⟩

def variableEntry : Entry := ⟨"debug", .boolean false, "env", "GBNF_DEBUG", 2⟩

def fileEntry : Entry := ⟨"stop_timeout", .duration (.ofSeconds 5), "file", "/c.yaml", 3⟩

theorem sorted_layers : Snapshot.sorted [fileEntry, flagEntry, variableEntry] =
    [variableEntry, fileEntry, flagEntry] := by
  have hdistinct : Snapshot.Distinct [fileEntry, flagEntry, variableEntry] := by
    unfold Snapshot.Distinct
    decide
  have hdistinct' : Snapshot.Distinct [variableEntry, fileEntry, flagEntry] := by
    unfold Snapshot.Distinct
    decide
  apply Snapshot.eq_of_ordered hdistinct.sorted hdistinct' (Snapshot.pairwise_sorted _) (by decide)
  intro e
  rw [Snapshot.mem_sorted]
  simp only [List.mem_cons, List.not_mem_nil, or_false]
  tauto

theorem load_layers : ((load FileContent.ofYaml? layered [("HOME", "/h")] threeLayers).toOption.map fun c =>
    (c.version, c.debug, c.stopTimeout, c.languageId)) =
      some ("v3", false, .ofSeconds 5, "gbnf") := by
  have hwon : winners FileContent.ofYaml? layered .asGiven threeLayers [] = .ok [fileEntry, flagEntry, variableEntry] :=
    eq_ok_of_toOption (by decide +kernel)
  have hload : load FileContent.ofYaml? layered [("HOME", "/h")] threeLayers =
      ofEntries [("HOME", "/h")] [variableEntry, fileEntry, flagEntry] := by
    rw [load, loadIn, hwon, ← sorted_layers]
    rfl
  rw [hload]
  decide +kernel

/-- Each of three layers gives one value, and one stays as it was built in. -/
theorem threeLayers_lowest_wins : (threeLayers.map Source.name).Nodup ∧
    ∀ (order : Iteration) (sources : List Source), sources.Perm threeLayers →
      ((loadIn order FileContent.ofYaml? layered [("HOME", "/h")] sources).toOption.map fun c =>
        (c.version, c.debug, c.stopTimeout, c.languageId)) =
          some ("v3", false, .ofSeconds 5, "gbnf") := by
  have hkinds : (threeLayers.map Source.name).Nodup := by decide
  refine ⟨hkinds, ?_⟩
  intro order sources hperm
  have hlowest := load_lowest_wins FileContent.ofYaml? layered [("HOME", "/h")] threeLayers hkinds
  obtain ⟨-, -, hsame, -⟩ := hlowest order sources hperm
  rw [hsame]
  exact load_layers

end LanguageClient.Config
