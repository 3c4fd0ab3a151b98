import LanguageClient.Proofs.Config.Snapshot
import LanguageClient.Proofs.Text.Split
import Mathlib.Data.List.Induction

/-! # What each source gives.

`Source.Gives` says which entries there are in a source, `Source.Readable` when it can be
read, and `Source.Fails` what is wrong otherwise. All three speak of the fields of a file, of
variables and of flags, and of no order in which these are gone through. `load_eq_ok` and
`fails_of_load` tie them to `Source.load`: it succeeds exactly on what is readable, it gives
exactly the entries that are there, and any error it gives is one of the source. -/

namespace LanguageClient.Config

/-! ### Keys and their values -/

theorem Key.ofName?_name (k : Key) : ofName? k.name = some k := by
  cases k <;> decide

theorem Key.name_inj {j k : Key} (h : j.name = k.name) : j = k := by
  have hj := ofName?_name j
  rw [h, ofName?_name] at hj
  exact (Option.some.inj hj).symm

def Key.Takes (k : Key) : Setting → Prop
  | .text _ => k ∈ [installRoot, baseName, languageId, releaseBaseUrl, manifestPath, version, logFile]
  | .texts _ => k = extensions
  | .duration _ => k ∈ [downloadTimeout, startTimeout, stopTimeout]
  | .number _ => k ∈ [logMaxSize, logMaxBackups, logMaxAge]
  | .boolean _ => k ∈ [debug, logCompress]
  | .nothing => False

/-- Values with commas between them. White space around a value is not part of it, and where
nothing else stands there is none. -/
def Lists (s : String) (values : List String) : Prop :=
  ∃ parts : List (List Char), parts ≠ [] ∧ (∀ p ∈ parts, ',' ∉ p) ∧
    s.toList = [','].intercalate parts ∧
    values = (parts.map fun p => Text.trim (String.ofList p)).filter (· ≠ "")

/-- A value is what a text stands for. Numbers are not given as texts. -/
def Setting.ReadFrom (s : String) : Setting → Prop
  | .text t => t = s
  | .texts values => Lists s values
  | .duration d => Duration.parse s = .ok d
  | .boolean b => truth? s = some b
  | .number _ => False
  | .nothing => False

/-- Why a text is no value of a key. -/
inductive Key.Misreads : Key → String → Error → Prop where
  | duration {k : Key} {s : String} {e : Duration.ParseError}
      (hk : k ∈ [downloadTimeout, startTimeout, stopTimeout]) (h : Duration.parse s = .error e) :
      Misreads k s (.duration e)
  | boolean {s : String} (h : truth? s = none) : Misreads debug s (.notBoolean s)

/-! ### What is in a source -/

/-- A file that sets a time limit to a text. -/
inductive FileContent.Limits (c : FileContent) : Key → String → Prop where
  | download {s : String} (h : c.downloadTimeout = some s) : Limits c .downloadTimeout s
  | start {s : String} (h : c.startTimeout = some s) : Limits c .startTimeout s
  | stop {s : String} (h : c.stopTimeout = some s) : Limits c .stopTimeout s

/-- A file that sets a key to a value. -/
inductive FileContent.Sets (c : FileContent) : Key → Setting → Prop where
  | installRoot {s : String} (h : c.installRoot = some s) : Sets c .installRoot (.text s)
  | baseName {s : String} (h : c.baseName = some s) : Sets c .baseName (.text s)
  | languageId {s : String} (h : c.languageId = some s) : Sets c .languageId (.text s)
  | extensions {l : List String} (h : c.extensions = some l) : Sets c .extensions (.texts l)
  | releaseBaseUrl {s : String} (h : c.releaseBaseUrl = some s) : Sets c .releaseBaseUrl (.text s)
  | manifestPath {s : String} (h : c.manifestPath = some s) : Sets c .manifestPath (.text s)
  | version {s : String} (h : c.version = some s) : Sets c .version (.text s)
  | limit {k : Key} {s : String} {d : Duration} (h : c.Limits k s) (hd : Duration.parse s = .ok d) :
      Sets c k (.duration d)
  | debug {b : Bool} (h : c.debug = some b) : Sets c .debug (.boolean b)
  | logFile {log : LogSection} {s : String} (h : c.log = some log) (hs : log.file = some s) :
      Sets c .logFile (.text s)
  | logMaxSize {log : LogSection} {n : Int} (h : c.log = some log) (hn : log.maxSizeMb = some n) :
      Sets c .logMaxSize (.number n)
  | logMaxBackups {log : LogSection} {n : Int} (h : c.log = some log) (hn : log.maxBackups = some n) :
      Sets c .logMaxBackups (.number n)
  | logMaxAge {log : LogSection} {n : Int} (h : c.log = some log) (hn : log.maxAgeDays = some n) :
      Sets c .logMaxAge (.number n)
  | logCompress {log : LogSection} {b : Bool} (h : c.log = some log) (hb : log.compress = some b) :
      Sets c .logCompress (.boolean b)

/-- What the file at a path says, as it is understood. -/
inductive Says (decode : Decoder) (fs : FileSystem) : String → FileContent → Prop where
  | unnamed : Says decode fs "" {}
  | missing {path : String} {e : Error} (h : fs.content path = .error e) (he : e.isA .notExist = true) :
      Says decode fs path {}
  | decoded {path : String} {bs : Bytes} {c : FileContent} (hpath : path ≠ "")
      (h : fs.content path = .ok bs) (hc : decode bs = some c) : Says decode fs path c

def Key.variable? : Key → Option String
  | .installRoot => some "GBNF_INSTALL_ROOT"
  | .baseName => some "GBNF_BASE_NAME"
  | .languageId => some "GBNF_LANGUAGE_ID"
  | .extensions => some "GBNF_EXTENSIONS"
  | .releaseBaseUrl => some "GBNF_RELEASE_BASE_URL"
  | .manifestPath => some "GBNF_MANIFEST_PATH"
  | .version => some "GBNF_VERSION"
  | .downloadTimeout => some "GBNF_DOWNLOAD_TIMEOUT"
  | .startTimeout => some "GBNF_START_TIMEOUT"
  | .stopTimeout => some "GBNF_STOP_TIMEOUT"
  | .logFile => some "GBNF_LOG_FILE"
  | .debug => some "GBNF_DEBUG"
  | .logMaxSize | .logMaxBackups | .logMaxAge | .logCompress => none

/-- A variable that is to set a key, and its text. -/
structure Given (env : Environment) (k : Key) (name s : String) : Prop where
  names : k.variable? = some name
  value : env.value name = s
  nonempty : s ≠ ""

/-- An entry of a source. -/
inductive Source.Gives (decode : Decoder) (fs : FileSystem) : Source → Entry → Prop where
  | file {path : String} {c : FileContent} {k : Key} {v : Setting} (h : Says decode fs path c)
      (hk : c.Sets k v) : Gives decode fs (.file path) ⟨k.name, v, "file", path, 3⟩
  | environment {env : Environment} {k : Key} {name s : String} {v : Setting} (h : Given env k name s)
      (hk : k.Takes v) (hv : v.ReadFrom s) :
      Gives decode fs (.environment env) ⟨k.name, v, "env", name, 2⟩
  /-- The last flag for a key. -/
  | flags {earlier later : List FlagSetting} {f : FlagSetting} (h : ∀ g ∈ later, g.key ≠ f.key) :
      Gives decode fs (.flags (earlier ++ f :: later)) ⟨f.key, f.value, "flags", "--" ++ f.flag, 1⟩

/-- A source that can be read. -/
inductive Source.Readable (decode : Decoder) (fs : FileSystem) : Source → Prop where
  | file {path : String} {c : FileContent} (h : Says decode fs path c)
      (hlimits : ∀ k s, c.Limits k s → ∃ d, Duration.parse s = .ok d) : Readable decode fs (.file path)
  | environment {env : Environment}
      (h : ∀ k name s, Given env k name s → ∃ v, k.Takes v ∧ v.ReadFrom s) :
      Readable decode fs (.environment env)
  | flags (set : List FlagSetting) : Readable decode fs (.flags set)

/-- What is wrong with a source. -/
inductive Source.Fails (decode : Decoder) (fs : FileSystem) : Source → Error → Prop where
  | unread {path : String} {e : Error} (hpath : path ≠ "") (h : fs.content path = .error e)
      (he : e.isA .notExist = false) :
      Fails decode fs (.file path) (.context "failed to read config file" e)
  | undecoded {path : String} {bs : Bytes} (hpath : path ≠ "") (h : fs.content path = .ok bs)
      (hc : decode bs = none) :
      Fails decode fs (.file path) (.context ("failed to parse config file " ++ path) .yaml)
  | limit {path : String} {c : FileContent} {k : Key} {s : String} {e : Duration.ParseError}
      (h : Says decode fs path c) (hk : c.Limits k s) (he : Duration.parse s = .error e) :
      Fails decode fs (.file path) (.context ("invalid " ++ k.name ++ " in " ++ path) (.duration e))
  | environment {env : Environment} {errors : List Error} (hne : errors ≠ [])
      (h : ∀ e, e ∈ errors ↔
        ∃ k name s cause, Given env k name s ∧ k.Misreads s cause ∧ e = .context name cause) :
      Fails decode fs (.environment env) (.joined errors)

/-! ### Files -/

variable {decode : Decoder} {fs : FileSystem} {order : Iteration} {path : String} {c : FileContent}

/-- If two steps succeed one after the other, the first one does. -/
theorem bind_eq_ok {α β : Type} {x : Except Error α} {f : α → Except Error β} {b : β}
    (h : x >>= f = .ok b) : ∃ a, x = .ok a ∧ f a = .ok b := by
  cases x with
  | error e => cases h
  | ok a => exact ⟨a, rfl, h⟩

/-- If two steps fail, it is the first one that does, or the second behind it. -/
theorem bind_eq_error {α β : Type} {x : Except Error α} {f : α → Except Error β} {e : Error}
    (h : x >>= f = .error e) : x = .error e ∨ ∃ a, x = .ok a ∧ f a = .error e := by
  cases x with
  | error _ =>
      cases h
      exact .inl rfl
  | ok a => exact .inr ⟨a, rfl, h⟩

/-- A walk succeeds if each of its steps does. -/
theorem exists_mapM {α β : Type} {f : α → Except Error β} {l : List α} :
    (∃ r, l.mapM f = .ok r) ↔ ∀ a ∈ l, ∃ b, f a = .ok b := by
  induction l with
  | nil => exact ⟨fun _ => nofun, fun _ => ⟨[], rfl⟩⟩
  | cons a l ih =>
      rw [List.mapM_cons, List.forall_mem_cons, ← ih]
      constructor
      · rintro ⟨r, h⟩
        obtain ⟨b, hb, h⟩ := bind_eq_ok h
        obtain ⟨bs, hbs, -⟩ := bind_eq_ok h
        exact ⟨⟨b, hb⟩, ⟨bs, hbs⟩⟩
      · rintro ⟨⟨b, hb⟩, ⟨bs, hbs⟩⟩
        rw [hb, hbs]
        exact ⟨b :: bs, rfl⟩

/-- A walk gives what its steps give. -/
theorem mem_mapM {α β : Type} {f : α → Except Error (List β)} {l : List α} {r : List (List β)}
    (h : l.mapM f = .ok r) (x : β) : x ∈ r.flatten ↔ ∃ a ∈ l, ∃ b, f a = .ok b ∧ x ∈ b := by
  induction l generalizing r with
  | nil =>
      cases h
      simp
  | cons a l ih =>
      rw [List.mapM_cons] at h
      obtain ⟨b, hb, h⟩ := bind_eq_ok h
      obtain ⟨bs, hbs, h⟩ := bind_eq_ok h
      cases h
      simp [ih hbs, hb]

/-- A walk fails in one of its steps. -/
theorem exists_of_mapM_eq_error {α β : Type} {f : α → Except Error β} {l : List α} {e : Error}
    (h : l.mapM f = .error e) : ∃ a ∈ l, f a = .error e := by
  induction l with
  | nil => cases h
  | cons a l ih =>
      rw [List.mapM_cons] at h
      rcases bind_eq_error h with h | ⟨b, -, h⟩
      · exact ⟨a, List.mem_cons_self, h⟩
      · rcases bind_eq_error h with h | ⟨bs, -, h⟩
        · obtain ⟨x, hx, hfx⟩ := ih h
          exact ⟨x, List.mem_cons_of_mem a hx, hfx⟩
        · cases h

/-- A file is read as a content exactly if it says that content. -/
theorem readFile_eq_ok : readFile decode fs path = .ok c ↔ Says decode fs path c := by
  constructor
  · intro h
    unfold readFile at h
    split at h
    · next hpath =>
        cases h
        exact hpath ▸ .unnamed
    · next hpath =>
        split at h
        · next e hcontent =>
            split at h <;> cases h
            next he => exact .missing hcontent he
        · next bs hcontent =>
            split at h <;> cases h
            next hdecode => exact .decoded hpath hcontent hdecode
  · intro h
    unfold readFile
    cases h with
    | unnamed => rw [if_pos rfl]
    | missing h he =>
        split
        · rfl
        · rw [h]
          exact if_pos he
    | decoded hpath h hc =>
        rw [if_neg hpath, h]
        simp only [hc]

/-- What keeps a file from being read is one of the failures of a file. -/
theorem fails_of_readFile {e : Error} (h : readFile decode fs path = .error e) :
    (Source.file path).Fails decode fs e := by
  unfold readFile at h
  split at h
  · cases h
  · next hpath =>
      split at h
      · next e hcontent =>
          split at h <;> cases h
          next he => exact .unread hpath hcontent (Bool.eq_false_iff.mpr he)
      · next bs hcontent =>
          split at h <;> cases h
          next hdecode => exact .undecoded hpath hcontent hdecode

/-- The limits that are gone through are those the file sets, in whatever order. -/
theorem mem_limits {k : Key} {s : String} :
    (k, some s) ∈ order.limits c.limits ↔ c.Limits k s := by
  rw [(order.limits_perm c.limits).mem_iff]
  simp only [FileContent.limits, List.mem_cons, Prod.mk.injEq, List.not_mem_nil, or_false]
  constructor
  · rintro (⟨rfl, h⟩ | ⟨rfl, h⟩ | ⟨rfl, h⟩)
    · exact .download h.symm
    · exact .start h.symm
    · exact .stop h.symm
  · intro h
    cases h with
    | download h => exact .inl ⟨rfl, h.symm⟩
    | start h => exact .inr (.inl ⟨rfl, h.symm⟩)
    | stop h => exact .inr (.inr ⟨rfl, h.symm⟩)

theorem givenDuration_eq_ok {k : Key} {o : Option String} {l : List (Key × Setting)} :
    givenDuration path k o = .ok l ↔
      (o = none ∧ l = []) ∨ ∃ s d, o = some s ∧ Duration.parse s = .ok d ∧ l = [(k, .duration d)] := by
  cases o with
  | none => simp [givenDuration, eq_comm]
  | some s => cases h : Duration.parse s <;> simp [givenDuration, h, eq_comm]

theorem mem_given {α : Type} {k : Key} {make : α → Setting} {o : Option α} {x : Key × Setting} :
    x ∈ given k make o ↔ ∃ v, o = some v ∧ x = (k, make v) := by
  cases o <;> simp [given]

/-- The time limits that were read are those the file sets. -/
theorem mem_readLimits {l : List (List (Key × Setting))}
    (h : (order.limits c.limits).mapM (fun (k, v) => givenDuration path k v) = .ok l)
    (x : Key × Setting) :
    x ∈ l.flatten ↔ ∃ k s d, c.Limits k s ∧ Duration.parse s = .ok d ∧ x = (k, .duration d) := by
  rw [mem_mapM h]
  constructor
  · rintro ⟨⟨k, o⟩, hmem, b, hb, hx⟩
    rcases givenDuration_eq_ok.mp hb with ⟨-, rfl⟩ | ⟨s, d, rfl, hd, rfl⟩
    · cases hx
    · exact ⟨k, s, d, mem_limits.mp hmem, hd, List.mem_singleton.mp hx⟩
  · rintro ⟨k, s, d, hk, hd, rfl⟩
    exact ⟨(k, some s), mem_limits.mpr hk, [(k, .duration d)],
      givenDuration_eq_ok.mpr (.inr ⟨s, d, rfl, hd, rfl⟩), List.mem_singleton_self _⟩

/-- The limits can be read exactly if each of them is a duration. -/
theorem exists_readLimits :
    (∃ l, (order.limits c.limits).mapM (fun (k, v) => givenDuration path k v) = .ok l) ↔
      ∀ k s, c.Limits k s → ∃ d, Duration.parse s = .ok d := by
  rw [exists_mapM]
  constructor
  · intro h k s hk
    obtain ⟨b, hb⟩ := h (k, some s) (mem_limits.mpr hk)
    rcases givenDuration_eq_ok.mp hb with ⟨hnone, -⟩ | ⟨_, d, hsome, hd, -⟩
    · cases hnone
    · cases hsome
      exact ⟨d, hd⟩
  · rintro h ⟨k, o⟩ hmem
    cases o with
    | none => exact ⟨[], rfl⟩
    | some s =>
        obtain ⟨d, hd⟩ := h k s (mem_limits.mp hmem)
        exact ⟨_, givenDuration_eq_ok.mpr (.inr ⟨s, d, rfl, hd, rfl⟩)⟩

/-- A part of the log section, which says nothing if it is not there. -/
theorem logPart_eq_some {α : Type} {part : LogSection → Option α} (hpart : part {} = none) {v : α} :
    part (c.log.getD {}) = some v ↔ ∃ log, c.log = some log ∧ part log = some v := by
  cases c.log with
  | none => simp [hpart]
  | some log => simp

/-- **The settings of a file are what it sets.** -/
theorem mem_settings {l : List (Key × Setting)} (h : c.settings order path = .ok l) (k : Key)
    (v : Setting) : (k, v) ∈ l ↔ c.Sets k v := by
  obtain ⟨limits, hlimits, h⟩ := bind_eq_ok h
  rw [← Except.ok.inj h]
  simp only [FileContent.withLimits, List.mem_append, mem_given, mem_readLimits hlimits,
    Prod.mk.injEq, or_assoc]
  constructor
  -- The settings of a file are listed key by key.
  · rintro (⟨s, h, rfl, rfl⟩ | ⟨s, h, rfl, rfl⟩ | ⟨s, h, rfl, rfl⟩ | ⟨s, h, rfl, rfl⟩ |
      ⟨s, h, rfl, rfl⟩ | ⟨s, h, rfl, rfl⟩ | ⟨l, h, rfl, rfl⟩ | ⟨k, s, d, h, hd, rfl, rfl⟩ |
      ⟨b, h, rfl, rfl⟩ | ⟨s, h, rfl, rfl⟩ | ⟨n, h, rfl, rfl⟩ | ⟨n, h, rfl, rfl⟩ | ⟨n, h, rfl, rfl⟩ |
      ⟨b, h, rfl, rfl⟩)
    · exact .installRoot h
    · exact .baseName h
    · exact .languageId h
    · exact .releaseBaseUrl h
    · exact .manifestPath h
    · exact .version h
    · exact .extensions h
    · exact .limit h hd
    · exact .debug h
    · obtain ⟨log, hlog, h⟩ := (logPart_eq_some rfl).mp h
      exact .logFile hlog h
    · obtain ⟨log, hlog, h⟩ := (logPart_eq_some rfl).mp h
      exact .logMaxSize hlog h
    · obtain ⟨log, hlog, h⟩ := (logPart_eq_some rfl).mp h
      exact .logMaxBackups hlog h
    · obtain ⟨log, hlog, h⟩ := (logPart_eq_some rfl).mp h
      exact .logMaxAge hlog h
    · obtain ⟨log, hlog, h⟩ := (logPart_eq_some rfl).mp h
      exact .logCompress hlog h
  · intro h
    cases h with
    | @limit _ s d h hd =>
        have hlimit : ∃ j s d', c.Limits j s ∧ Duration.parse s = .ok d' ∧ k = j ∧
            Setting.duration d = .duration d' := ⟨k, s, d, h, hd, rfl, rfl⟩
        simp only [hlimit, true_or, or_true]
    | logFile h hs => simp [h, hs]
    | logMaxSize h hn | logMaxBackups h hn | logMaxAge h hn => simp [h, hn]
    | logCompress h hb => simp [h, hb]
    | _ h => simp [h]

/-- The settings of a file can be read exactly if its limits are durations: nothing else in it can fail. -/
theorem exists_settings : (∃ l, c.settings order path = .ok l) ↔
    ∀ k s, c.Limits k s → ∃ d, Duration.parse s = .ok d := by
  rw [← exists_readLimits]
  constructor
  · rintro ⟨l, h⟩
    obtain ⟨limits, hlimits, -⟩ := bind_eq_ok h
    exact ⟨limits, hlimits⟩
  · rintro ⟨limits, hlimits⟩
    refine ⟨c.withLimits limits.flatten, ?_⟩
    rw [FileContent.settings, hlimits]
    rfl

/-- If a file has no settings, a time limit in it is at fault. -/
theorem fails_of_settings {e : Error} (hc : Says decode fs path c)
    (h : c.settings order path = .error e) : (Source.file path).Fails decode fs e := by
  rcases bind_eq_error h with h | ⟨_, -, h⟩
  · obtain ⟨⟨k, o⟩, hmem, h⟩ := exists_of_mapM_eq_error h
    cases o with
    | none => cases h
    | some s =>
        dsimp only [givenDuration] at h
        split at h
        · cases h
        · next he =>
            cases h
            exact .limit hc (mem_limits.mp hmem) he
  · cases h

/-- The keys a file may set, in the order in which they are looked at. -/
def fileKeys (limits : List Key) : List Key :=
  [Key.installRoot] ++ [Key.baseName] ++ [Key.languageId] ++ [Key.releaseBaseUrl] ++
    [Key.manifestPath] ++ [Key.version] ++ [Key.extensions] ++ limits ++ [Key.debug] ++
    [Key.logFile] ++ [Key.logMaxSize] ++ [Key.logMaxBackups] ++ [Key.logMaxAge] ++ [Key.logCompress]

/-- A file sets no key twice. -/
theorem nodup_fileKeys (order : Iteration) (c : FileContent) :
    (fileKeys ((order.limits c.limits).map Prod.fst)).Nodup := by
  have hperm : ((order.limits c.limits).map Prod.fst).Perm [.downloadTimeout, .startTimeout, .stopTimeout] :=
    (order.limits_perm c.limits).map Prod.fst
  have hkeys : (fileKeys ((order.limits c.limits).map Prod.fst)).Perm
      (fileKeys [.downloadTimeout, .startTimeout, .stopTimeout]) := by
    simp only [fileKeys]
    iterate 6 apply List.Perm.append_right
    exact hperm.append_left _
  rw [hkeys.nodup_iff]
  decide

theorem keys_given {α : Type} (k : Key) (make : α → Setting) (v : Option α) :
    ((given k make v).map Prod.fst).Sublist [k] := by
  cases v with
  | none => exact List.nil_sublist _
  | some v => exact List.Sublist.refl _

theorem keys_givenDuration {k : Key} {v : Option String} {l : List (Key × Setting)}
    (h : givenDuration path k v = .ok l) : (l.map Prod.fst).Sublist [k] := by
  rcases givenDuration_eq_ok.mp h with ⟨-, rfl⟩ | ⟨_, _, -, -, rfl⟩
  · exact List.nil_sublist _
  · exact List.Sublist.refl _

theorem keys_limits {l : List (Key × Option String)} {r : List (List (Key × Setting))}
    (h : l.mapM (fun (k, v) => givenDuration path k v) = .ok r) :
    (r.flatten.map Prod.fst).Sublist (l.map Prod.fst) := by
  induction l generalizing r with
  | nil =>
      cases h
      exact List.Sublist.refl _
  | cons limit l ih =>
      rw [List.mapM_cons] at h
      obtain ⟨first, hfirst, h⟩ := bind_eq_ok h
      obtain ⟨rest, hrest, h⟩ := bind_eq_ok h
      cases h
      rw [List.flatten_cons, List.map_append]
      exact (keys_givenDuration hfirst).append (ih hrest)

/-- A file sets no key twice. -/
theorem nodup_settings {l : List (Key × Setting)} (h : c.settings order path = .ok l) :
    (l.map Prod.fst).Nodup := by
  obtain ⟨limits, hlimits, h⟩ := bind_eq_ok h
  have hlimits := keys_limits hlimits
  have hkeys : (l.map Prod.fst).Sublist (fileKeys ((order.limits c.limits).map Prod.fst)) := by
    rw [← Except.ok.inj h]
    simp only [FileContent.withLimits, List.map_append, fileKeys]
    repeat' apply List.Sublist.append
    all_goals first | exact keys_given _ _ _ | assumption
  exact hkeys.nodup (nodup_fileKeys order c)

/-! ### Variables -/

theorem splitAt_eq_splitOn (sep : Char) (l : List Char) : Path.splitAt sep l = l.splitOn sep := by
  induction l with
  | nil => rfl
  | cons x l ih =>
      obtain ⟨piece, pieces, hl⟩ := List.exists_cons_of_ne_nil (List.splitOn_ne_nil sep l)
      rw [List.splitOn_cons_eq_if_modifyHead, Path.splitAt, ih, hl]
      by_cases hx : x = sep <;> simp [hx]

/-- The values that a text lists are those its reader finds. -/
theorem lists_iff {s : String} {values : List String} : Lists s values ↔ values = listOf s := by
  rw [listOf, splitAt_eq_splitOn]
  constructor
  · rintro ⟨parts, hne, hparts, hs, rfl⟩
    rw [hs, Text.splitOn_intercalate hne, Text.flatMap_splitOn_eq_iff.mpr hparts]
  · rintro rfl
    refine ⟨_, List.splitOn_ne_nil ',' s.toList, fun _ => Text.notMem_of_mem_splitOn, ?_, rfl⟩
    exact (List.intercalate_splitOn ',').symm

/-- A way to read the values of a key: what it gives, and what it refuses. -/
structure Key.ReadBy (k : Key) (read : String → Except Error Setting) : Prop where
  value : ∀ s v, read s = .ok v ↔ k.Takes v ∧ v.ReadFrom s
  misread : ∀ s e, read s = .error e ↔ k.Misreads s e

/-- The text of a variable is its value for a key that takes texts. -/
theorem readBy_asText {k : Key} (htype : ∀ v, k.Takes v ↔ ∃ s, v = .text s) : k.ReadBy asText where
  value s v := by
    rw [htype]
    constructor
    · rintro ⟨⟩
      exact ⟨⟨s, rfl⟩, rfl⟩
    · rintro ⟨⟨t, rfl⟩, rfl⟩
      rfl
  misread s e := by
    refine ⟨nofun, fun h => ?_⟩
    -- a key that takes texts takes neither times nor truth values
    cases h with
    | duration hk => cases ((htype (.duration ⟨0⟩)).mp hk).choose_spec
    | boolean => cases ((htype (.boolean true)).mp List.mem_cons_self).choose_spec

/-- It is cut at commas for the extensions. -/
theorem readBy_asList : Key.extensions.ReadBy asList where
  value s v := by
    cases v with
    | texts l => simp [asList, Key.Takes, Setting.ReadFrom, lists_iff, eq_comm]
    | _ => simp [asList, Key.Takes]
  misread s e := by
    refine ⟨nofun, fun h => ?_⟩
    cases h with
    | duration hk => exact absurd hk (by decide)

/-- It is read as a duration for a key that takes one. -/
theorem readBy_asDuration {k : Key} (htype : ∀ v, k.Takes v ↔ ∃ d, v = .duration d) :
    k.ReadBy asDuration where
  value s v := by
    rw [htype, asDuration]
    constructor
    · intro h
      split at h
      · next hd =>
          cases h
          exact ⟨⟨_, rfl⟩, hd⟩
      · cases h
    · rintro ⟨⟨d, rfl⟩, hd⟩
      rw [show Duration.parse s = .ok d from hd]
  -- A text is only misread for a key of this type.
  misread s e := by
    rw [asDuration]
    constructor
    · intro h
      split at h
      · cases h
      · next he =>
          cases h
          exact .duration ((htype (.duration ⟨0⟩)).mpr ⟨_, rfl⟩) he
    · intro h
      cases h with
      | duration hk he => rw [he]
      | boolean => cases ((htype (.boolean true)).mp List.mem_cons_self).choose_spec

/-- It is read as a truth value for the debug key. -/
theorem readBy_asBoolean : Key.debug.ReadBy asBoolean where
  value s v := by
    cases v with
    | boolean b => cases h : truth? s <;> simp [asBoolean, Key.Takes, Setting.ReadFrom, h]
    | _ => cases h : truth? s <;> simp [asBoolean, Key.Takes, h]
  misread s e := by
    constructor
    · intro h
      cases htruth : truth? s with
      | some b => simp [asBoolean, htruth] at h
      | none =>
          simp only [asBoolean, htruth] at h
          cases h
          exact .boolean htruth
    · intro h
      cases h with
      | duration hk => exact absurd hk (by decide)
      | boolean h => simp only [asBoolean, h]

/-- The variables that are looked at are those that set a key. -/
theorem mem_knownVariables {name : String} {k : Key} :
    (∃ read, (name, k, read) ∈ knownVariables) ↔ k.variable? = some name := by
  cases k <;> simp [knownVariables, Key.variable?, eq_comm]

/-- Every variable is read as its key is. -/
theorem readBy_of_known {name : String} {k : Key} {read : String → Except Error Setting}
    (h : (name, k, read) ∈ knownVariables) : k.ReadBy read := by
  have htext {k : Key} (hk : k ∈ [Key.installRoot, .baseName, .languageId, .releaseBaseUrl, .manifestPath,
      .version, .logFile]) (v : Setting) : k.Takes v ↔ ∃ s, v = .text s := by
    simp only [List.mem_cons, List.not_mem_nil, or_false] at hk
    rcases hk with rfl | rfl | rfl | rfl | rfl | rfl | rfl <;> cases v <;> simp [Key.Takes]
  have htime {k : Key} (hk : k ∈ [Key.downloadTimeout, .startTimeout, .stopTimeout]) (v : Setting) :
      k.Takes v ↔ ∃ d, v = .duration d := by
    simp only [List.mem_cons, List.not_mem_nil, or_false] at hk
    rcases hk with rfl | rfl | rfl <;> cases v <;> simp [Key.Takes]
  simp only [knownVariables, List.mem_cons, Prod.mk.injEq, List.not_mem_nil, or_false] at h
  rcases h with ⟨-, rfl, rfl⟩ | ⟨-, rfl, rfl⟩ | ⟨-, rfl, rfl⟩ | ⟨-, rfl, rfl⟩ | ⟨-, rfl, rfl⟩ |
    ⟨-, rfl, rfl⟩ | ⟨-, rfl, rfl⟩ | ⟨-, rfl, rfl⟩ | ⟨-, rfl, rfl⟩ | ⟨-, rfl, rfl⟩ | ⟨-, rfl, rfl⟩ |
    ⟨-, rfl, rfl⟩
  case inr.inr.inr.inl => exact readBy_asList
  case inr.inr.inr.inr.inr.inr.inr.inr.inr.inr.inr => exact readBy_asBoolean
  all_goals first
    | exact readBy_asText (htext (by decide))
    | exact readBy_asDuration (htime (by decide))

variable {env : Environment}

/-- What reading a variable adds to the errors. -/
theorem mem_readVariable_errors {done : List Error × Snapshot}
    {v : String × Key × (String → Except Error Setting)} {e : Error} :
    e ∈ (readVariable env done v).1 ↔ e ∈ done.1 ∨
      env.value v.1 ≠ "" ∧ ∃ cause, v.2.2 (env.value v.1) = .error cause ∧ e = .context v.1 cause := by
  simp only [readVariable]
  split
  · next h => simp [h]
  · next h => cases v.2.2 (env.value v.1) <;> simp [h]

/-- What reading a variable adds to the entries. -/
theorem mem_readVariable_found {done : List Error × Snapshot}
    {v : String × Key × (String → Except Error Setting)} {e : Entry} :
    e ∈ (readVariable env done v).2 ↔ e ∈ done.2 ∨
      env.value v.1 ≠ "" ∧ ∃ x, v.2.2 (env.value v.1) = .ok x ∧ e = ⟨v.2.1.name, x, "env", v.1, 2⟩ := by
  simp only [readVariable]
  split
  · next h => simp [h]
  · next h => cases v.2.2 (env.value v.1) <;> simp [h]

/-- The errors found among variables are those there were, and one for each text that its key misreads. -/
theorem mem_foldl_errors {vs : List (String × Key × (String → Except Error Setting))}
    {done : List Error × Snapshot} {e : Error} :
    e ∈ (vs.foldl (readVariable env) done).1 ↔ e ∈ done.1 ∨ ∃ v ∈ vs,
      env.value v.1 ≠ "" ∧ ∃ cause, v.2.2 (env.value v.1) = .error cause ∧ e = .context v.1 cause := by
  induction vs generalizing done with
  | nil => simp
  | cons v vs ih =>
      rw [List.foldl_cons, ih, mem_readVariable_errors, or_assoc]
      simp

/-- The entries found among variables are those there were, and one for each text that can be read. -/
theorem mem_foldl_found {vs : List (String × Key × (String → Except Error Setting))}
    {done : List Error × Snapshot} {e : Entry} :
    e ∈ (vs.foldl (readVariable env) done).2 ↔ e ∈ done.2 ∨ ∃ v ∈ vs,
      env.value v.1 ≠ "" ∧ ∃ x, v.2.2 (env.value v.1) = .ok x ∧ e = ⟨v.2.1.name, x, "env", v.1, 2⟩ := by
  induction vs generalizing done with
  | nil => simp
  | cons v vs ih =>
      rw [List.foldl_cons, ih, mem_readVariable_found, or_assoc]
      simp

/-- The errors are those of the variables that cannot be read. -/
theorem mem_readVariables_errors {e : Error} : e ∈ (readVariables env).1 ↔
    ∃ k name s cause, Given env k name s ∧ k.Misreads s cause ∧ e = .context name cause := by
  rw [readVariables, mem_foldl_errors]
  simp only [List.not_mem_nil, false_or]
  constructor
  · rintro ⟨⟨name, k, read⟩, hknown, hne, cause, hread, rfl⟩
    exact ⟨k, name, _, cause, ⟨mem_knownVariables.mp ⟨read, hknown⟩, rfl, hne⟩,
      ((readBy_of_known hknown).misread _ _).mp hread, rfl⟩
  · rintro ⟨k, name, s, cause, ⟨hname, rfl, hne⟩, hmis, rfl⟩
    obtain ⟨read, hknown⟩ := mem_knownVariables.mpr hname
    exact ⟨_, hknown, hne, cause, ((readBy_of_known hknown).misread _ _).mpr hmis, rfl⟩

/-- **The entries are those of the variables that can be read.** -/
theorem mem_readVariables_found {e : Entry} : e ∈ (readVariables env).2 ↔
    ∃ k name s v, Given env k name s ∧ k.Takes v ∧ v.ReadFrom s ∧ e = ⟨k.name, v, "env", name, 2⟩ := by
  rw [readVariables, mem_foldl_found]
  simp only [List.not_mem_nil, false_or]
  constructor
  · rintro ⟨⟨name, k, read⟩, hknown, hne, v, hread, rfl⟩
    obtain ⟨htakes, hv⟩ := ((readBy_of_known hknown).value _ _).mp hread
    exact ⟨k, name, _, v, ⟨mem_knownVariables.mp ⟨read, hknown⟩, rfl, hne⟩, htakes, hv, rfl⟩
  · rintro ⟨k, name, s, v, ⟨hname, rfl, hne⟩, htakes, hv, rfl⟩
    obtain ⟨read, hknown⟩ := mem_knownVariables.mpr hname
    exact ⟨_, hknown, hne, v, ((readBy_of_known hknown).value _ _).mpr ⟨htakes, hv⟩, rfl⟩

/-- No errors are found exactly if every variable can be read. -/
theorem errors_eq_nil_iff : (readVariables env).1 = [] ↔
    ∀ k name s, Given env k name s → ∃ v, k.Takes v ∧ v.ReadFrom s := by
  rw [List.eq_nil_iff_forall_not_mem]
  simp only [mem_readVariables_errors]
  constructor
  · intro h k name s hgiven
    obtain ⟨read, hknown⟩ := mem_knownVariables.mpr hgiven.names
    have hread := readBy_of_known hknown
    cases hs : read s with
    | ok v => exact ⟨v, (hread.value s v).mp hs⟩
    | error cause =>
        exact absurd ⟨k, name, s, cause, hgiven, (hread.misread s cause).mp hs, rfl⟩ (h (.context name cause))
  · rintro h _ ⟨k, name, s, cause, hgiven, hmis, -⟩
    obtain ⟨v, hv⟩ := h k name s hgiven
    obtain ⟨read, hknown⟩ := mem_knownVariables.mpr hgiven.names
    have hread := readBy_of_known hknown
    cases ((hread.value s v).mpr hv).symm.trans ((hread.misread s cause).mpr hmis)

/-- No two variables are for the same key. -/
theorem distinct_readVariables : (readVariables env).2.Distinct := by
  -- Going through the variables adds entries for some of their keys, in order.
  have hkeys (vs : List (String × Key × (String → Except Error Setting))) (done : List Error × Snapshot) :
      ∃ new : Snapshot, (vs.foldl (readVariable env) done).2 = done.2 ++ new ∧
        (new.map Entry.key).Sublist (vs.map (·.2.1.name)) := by
    induction vs generalizing done with
    | nil => exact ⟨[], by simp⟩
    | cons v vs ih =>
        obtain ⟨new, hnew, hsub⟩ := ih (readVariable env done v)
        rw [List.foldl_cons, hnew, List.map_cons]
        have hstep : (readVariable env done v).2 = done.2 ∨
            ∃ e : Entry, (readVariable env done v).2 = done.2 ++ [e] ∧ e.key = v.2.1.name := by
          simp only [readVariable]
          split
          · exact .inl rfl
          · split
            · exact .inr ⟨_, rfl, rfl⟩
            · exact .inl rfl
        rcases hstep with hsame | ⟨e, he, hk⟩
        · exact ⟨new, by rw [hsame], hsub.cons _⟩
        · refine ⟨e :: new, by rw [he, List.append_assoc]; rfl, ?_⟩
          rw [List.map_cons, hk]
          exact hsub.cons_cons _
  obtain ⟨new, hnew, hsub⟩ := hkeys knownVariables ([], [])
  rw [readVariables, hnew, List.nil_append]
  -- The keys of the known variables are distinct.
  exact List.pairwise_map.mp (hsub.nodup (by decide))

/-! ### Flags -/

/-- One more flag replaces the entry for its key. -/
theorem recorded_concat (set : List FlagSetting) (f : FlagSetting) :
    recorded (set ++ [f]) = (recorded set).set f.entry := by
  rw [recorded, List.foldl_append]
  rfl

/-- **Of the flags for a key, the last one is recorded.** -/
theorem mem_recorded {set : List FlagSetting} {e : Entry} : e ∈ recorded set ↔
    ∃ earlier f later, set = earlier ++ f :: later ∧ (∀ g ∈ later, g.key ≠ f.key) ∧ e = f.entry := by
  induction set using List.reverseRecOn with
  | nil => simp [recorded]
  | append_singleton set f ih =>
      rw [recorded_concat, Snapshot.mem_set, ih]
      constructor
      -- An earlier flag is left if the new one has another key.
      · rintro (⟨⟨earlier, g, later, rfl, hlast, rfl⟩, hne⟩ | rfl)
        · refine ⟨earlier, g, later ++ [f], by simp, ?_, rfl⟩
          intro x hx
          rcases List.mem_append.mp hx with hx | hx
          · exact hlast x hx
          · rw [List.mem_singleton.mp hx]
            exact Ne.symm hne
        · exact ⟨set, f, [], rfl, nofun, rfl⟩
      · rintro ⟨earlier, g, later, hset, hlast, rfl⟩
        rcases List.eq_nil_or_concat later with rfl | ⟨later, x, rfl⟩
        · obtain ⟨-, hf⟩ := List.append_inj' hset rfl
          cases hf
          exact .inr rfl
        · simp only [List.concat_eq_append] at hset hlast
          rw [← List.cons_append, ← List.append_assoc] at hset
          obtain ⟨rfl, hf⟩ := List.append_inj' hset rfl
          cases hf
          refine .inl ⟨⟨earlier, g, later, rfl, fun y hy => hlast y (List.mem_append_left _ hy), rfl⟩, ?_⟩
          exact Ne.symm (hlast f (List.mem_append_right _ List.mem_cons_self))

theorem distinct_recorded (set : List FlagSetting) : (recorded set).Distinct := by
  induction set using List.reverseRecOn with
  | nil => exact List.Pairwise.nil
  | append_singleton set f ih =>
      rw [recorded_concat]
      exact ih.set _

/-! ### All of them -/

/-- An entry that a file's setting makes. -/
theorem mem_file {l : List (Key × Setting)} {e : Entry} (hc : Says decode fs path c)
    (h : c.settings order path = .ok l) :
    (∃ x ∈ l, (⟨x.1.name, x.2, "file", path, 3⟩ : Entry) = e) ↔ (Source.file path).Gives decode fs e := by
  constructor
  · rintro ⟨⟨k, v⟩, hx, rfl⟩
    exact .file hc ((mem_settings h k v).mp hx)
  · intro hgives
    cases hgives with
    | @file _ c' k v hc' hk =>
        -- a file says one thing only
        cases (readFile_eq_ok.mpr hc).symm.trans (readFile_eq_ok.mpr hc')
        exact ⟨(k, v), (mem_settings h k v).mpr hk, rfl⟩

/-- **What is loaded is what there is.** A source is loaded exactly if it can be read; it then
gives its entries, no two of them for one key, and otherwise an error that says what is
wrong. -/
theorem Source.load_spec (decode : Decoder) (fs : FileSystem) (order : Iteration) (s : Source) :
    ((∃ found, s.load decode fs order = .ok found) ↔ s.Readable decode fs) ∧
    (∀ found, s.load decode fs order = .ok found →
      found.Distinct ∧ ∀ e, e ∈ found ↔ s.Gives decode fs e) ∧
    ∀ e, s.load decode fs order = .error e → s.Fails decode fs e := by
  cases s with
  | file path =>
      refine ⟨⟨?_, ?_⟩, ?_, ?_⟩
      · rintro ⟨found, h⟩
        obtain ⟨c, hc, h⟩ := bind_eq_ok h
        obtain ⟨l, hl, -⟩ := bind_eq_ok h
        exact .file (readFile_eq_ok.mp hc) (exists_settings.mp ⟨l, hl⟩)
      · rintro ⟨hc, hlimits⟩
        obtain ⟨l, hl⟩ := exists_settings.mpr hlimits
        rw [Source.load, readFile_eq_ok.mpr hc]
        dsimp only [bind, Except.bind]
        rw [hl]
        exact ⟨_, rfl⟩
      · intro found h
        obtain ⟨c, hc, h⟩ := bind_eq_ok h
        obtain ⟨l, hl, h⟩ := bind_eq_ok h
        cases h
        constructor
        · refine List.pairwise_map.mpr ((List.pairwise_map.mp (nodup_settings hl)).imp ?_)
          intro a b hne he
          exact hne (Key.name_inj he)
        · intro e
          rw [List.mem_map]
          exact mem_file (readFile_eq_ok.mp hc) hl
      · intro e h
        rcases bind_eq_error h with h | ⟨c, hc, h⟩
        · exact fails_of_readFile h
        · rcases bind_eq_error h with h | ⟨l, -, h⟩
          · exact fails_of_settings (readFile_eq_ok.mp hc) h
          · cases h
  | environment env =>
      -- Variables can be read exactly if none of them is misread.
      have hreadable : (Source.environment env).Readable decode fs ↔ (readVariables env).1 = [] := by
        rw [errors_eq_nil_iff]
        constructor
        · intro h
          cases h with
          | environment h => exact h
        · exact .environment
      have hload : (Source.environment env).load decode fs order =
          if (readVariables env).1 = [] then .ok (readVariables env).2
          else .error (.joined (readVariables env).1) := by
        rw [Source.load]
        rcases readVariables env with ⟨_ | ⟨e, errors⟩, found⟩ <;> rfl
      rw [hload, hreadable]
      split
      · next hnil =>
          refine ⟨⟨fun _ => hnil, fun _ => ⟨_, rfl⟩⟩, ?_, nofun⟩
          rintro _ ⟨⟩
          refine ⟨distinct_readVariables, fun e => mem_readVariables_found.trans ⟨?_, ?_⟩⟩
          · rintro ⟨k, name, s, v, hgiven, htakes, hv, rfl⟩
            exact .environment hgiven htakes hv
          · intro hgives
            cases hgives with
            | environment hgiven htakes hv => exact ⟨_, _, _, _, hgiven, htakes, hv, rfl⟩
      · next hne =>
          refine ⟨⟨nofun, fun h => absurd h hne⟩, nofun, ?_⟩
          rintro _ ⟨⟩
          exact .environment hne fun e => mem_readVariables_errors
  | flags set =>
      refine ⟨⟨fun _ => .flags set, fun _ => ⟨_, rfl⟩⟩, ?_, nofun⟩
      rintro _ ⟨⟩
      refine ⟨distinct_recorded set, fun e => mem_recorded.trans ⟨?_, ?_⟩⟩
      · rintro ⟨earlier, f, later, rfl, hlast, rfl⟩
        exact .flags hlast
      · intro hgives
        cases hgives with
        | flags hlast => exact ⟨_, _, _, rfl, hlast, rfl⟩

variable {s : Source} {e : Entry}

/-- What a source gives has the priority of the source. -/
theorem Source.Gives.priority (h : s.Gives decode fs e) : e.priority = s.priority := by
  cases h <;> rfl

end LanguageClient.Config
