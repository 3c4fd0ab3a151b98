import LanguageClient.Platform
import LanguageClient.Proofs.Config.Validity
import LanguageClient.Proofs.Path
import LanguageClient.Proofs.Text.Separator

/-! # Where binaries are kept.

Below an install root each binary has a place of its own:

* `canonicalName?_injective` — no two platforms and base names share a name, whatever the base
  names are, since no tag holds the dash that ends it;
* `join_name`  — the path of a name below a directory is the cleaned path of the directory, a
  separator, and the name, so a binary is in the one directory that is meant for it;
* `kept_apart` — both together, for every configuration that is accepted. -/

namespace LanguageClient

/-! ### Names below a directory -/

namespace Path

/-- A name is appended to what cleaning leaves. -/
theorem cleanElements_concat {rooted : Bool} {n : List Char} (h : IsName n) (es : List (List Char)) :
    cleanElements rooted (es ++ [n]) = cleanElements rooted es ++ [n] := by
  have hpush (done : List (List Char)) : push rooted done n = n :: done := by
    simp [push, h.nonempty, h.notDot, h.notDotDot]
  rw [cleanElements, List.foldl_append, List.foldl_cons, List.foldl_nil, hpush, List.reverse_cons]
  rfl

theorem isRooted_append {p : List Char} (hp : p ≠ []) (q : List Char) :
    isRooted (p ++ q) = isRooted p := by
  cases p with
  | nil => exact absurd rfl hp
  | cons c p => rfl

/-- A path that is cleaned with a name behind it ends in that name. -/
theorem cleanList_concat {p n : List Char} (hp : p ≠ []) (h : IsName n) :
    cleanList (p ++ '/' :: n) = spell (isRooted p) (cleanElements (isRooted p) (elements p) ++ [n]) := by
  rw [cleanList_eq_spell, isRooted_append hp, elements_append_slash, elements_plain h.plain, cleanElements_concat h]

theorem spell_concat_concat (rooted : Bool) (es : List (List Char)) (m n : List Char) :
    spell rooted (es ++ [m] ++ [n]) = spell rooted (es ++ [m]) ++ '/' :: n := by
  have hne : lead rooted ++ es ++ [m] ≠ [] := by simp
  rw [spell_concat, spell_concat, ← List.append_assoc, joinElements_concat, joinElements_concat_nil hne]
  simp

/-- **A name below a cleaned directory** that ends in a name stands behind a separator. -/
theorem cleanList_name {p m n : List Char} (hp : p ≠ []) (hm : IsName m) (hn : IsName n) :
    cleanList (p ++ '/' :: m ++ '/' :: n) = cleanList (p ++ '/' :: m) ++ '/' :: n := by
  rw [cleanList_concat (by simp) hn, cleanList_concat hp hm, isRooted_append hp,
    elements_append_slash, elements_plain hm.plain, cleanElements_concat hm, spell_concat_concat]

theorem join_two {root : String} (h : root ≠ "") {m : String} (hm : m ≠ "") :
    join [root, m] = clean (root ++ "/" ++ m) := by
  simp [join, h, hm, clean, joinElements, PathLetter.slash]

/-- A name below a directory of an install root, which may be empty. -/
theorem join_name (root : String) {m n : String} (hm : IsName m.toList) (hn : IsName n.toList) :
    join [root, m, n] = join [root, m] ++ "/" ++ n := by
  have hm' : m ≠ "" := fun h => hm.nonempty (by rw [h]; rfl)
  have hn' : n ≠ "" := fun h => hn.nonempty (by rw [h]; rfl)
  apply String.toList_injective
  by_cases hroot : root = ""
  · have hclean : cleanList (m.toList ++ '/' :: n.toList) = cleanList m.toList ++ '/' :: n.toList := by
      have hplain : isRooted m.toList = false := by
        have hspell : isRooted (spell false [m.toList]) = false := isRooted_spell (.name hm .nil)
        simpa [spell, joinElements] using hspell
      have hdone : cleanElements false [m.toList] = [m.toList] := cleanElements_concat hm []
      rw [cleanList_concat hm.nonempty hn, cleanList_eq_spell, hplain, elements_plain hm.plain, hdone]
      exact spell_concat_concat false [] m.toList n.toList
    simpa [join, hroot, hm', hn', joinElements, PathLetter.slash] using hclean
  · have hpath : root.toList ≠ [] := fun h => hroot (String.toList_injective h)
    have hclean := cleanList_name hpath hm hn
    simpa [join, hroot, hm', hn', joinElements, PathLetter.slash] using hclean

end Path

/-! ### Names of binaries -/

namespace Platform

variable {p q : Platform} {base base' name : String}

theorem isSupported_iff : p.isSupported = true ↔ p.os ∈ systems ∧ p.arch ∈ architectures := by
  simp [isSupported, isSupportedSystem, isSupportedArchitecture]

theorem dash_notMem_system {os : String} (h : os ∈ systems) : '-' ∉ os.toList := by
  have hall : ∀ s ∈ systems, '-' ∉ s.toList := by decide
  exact hall os h

theorem dash_notMem_architecture {arch : String} (h : arch ∈ architectures) : '-' ∉ arch.toList := by
  have hall : ∀ s ∈ architectures, '-' ∉ s.toList := by decide
  exact hall arch h

/-- The name of a binary, by its parts. -/
theorem toList_canonicalName (h : p.canonicalName? base = some name) :
    p.os ∈ systems ∧ p.arch ∈ architectures ∧
      name.toList = p.os.toList ++ '-' :: (p.arch.toList ++ '-' :: (base.toList ++ p.suffix.toList)) := by
  unfold canonicalName? at h
  split at h
  · next hp =>
      obtain ⟨hos, harch⟩ := isSupported_iff.mp hp
      obtain rfl := Option.some.inj h
      refine ⟨hos, harch, ?_⟩
      simp [String.toList_append]
  · cases h

/-- **A name tells the platform and the base name**: what stands before the first dash is the
operating system, what stands before the next one is the architecture, and both together say
whether there is an ending to be dropped. -/
theorem canonicalName?_injective (h : p.canonicalName? base = some name)
    (h' : q.canonicalName? base' = some name) : p = q ∧ base = base' := by
  obtain ⟨hos, harch, hname⟩ := toList_canonicalName h
  obtain ⟨hos', harch', hname'⟩ := toList_canonicalName h'
  have hsame := hname.symm.trans hname'
  have htaken := congrArg (List.takeWhile (· != '-')) hsame
  rw [Text.takeWhile_sep (dash_notMem_system hos), Text.takeWhile_sep (dash_notMem_system hos')] at htaken
  rw [htaken, List.append_cancel_left_eq, List.cons.injEq] at hsame
  have htaken' := congrArg (List.takeWhile (· != '-')) hsame.2
  rw [Text.takeWhile_sep (dash_notMem_architecture harch),
    Text.takeWhile_sep (dash_notMem_architecture harch')] at htaken'
  have hplatform : p = q := by
    cases p
    cases q
    rw [mk.injEq]
    exact ⟨String.toList_injective htaken, String.toList_injective htaken'⟩
  subst hplatform
  have hrest := hsame.2
  rw [List.append_cancel_left_eq, List.cons.injEq, List.append_cancel_right_eq] at hrest
  exact ⟨rfl, String.toList_injective hrest.2⟩

/-- The name of a binary with a plain base name is a single element, and no special one. -/
theorem isName_canonicalName (h : p.canonicalName? base = some name) (hbase : '/' ∉ base.toList) :
    Path.IsName name.toList := by
  obtain ⟨hos, harch, hname⟩ := toList_canonicalName h
  have hsystems : ∀ s ∈ systems, 2 < s.toList.length ∧ '/' ∉ s.toList := by decide
  have harchitectures : ∀ s ∈ architectures, '/' ∉ s.toList := by decide
  have hsuffix : '/' ∉ p.suffix.toList := by
    unfold suffix
    split <;> decide
  apply Path.isName_of_length
  · rw [hname, List.length_append]
    exact Nat.lt_add_right _ (hsystems _ hos).1
  · rw [hname]
    simp [(hsystems _ hos).2, harchitectures _ harch, hbase, hsuffix]

end Platform

/-! ### Paths of binaries -/

namespace Binary

variable {root base base' : String} {p q : Platform} {b b' : Binary}

theorem isName_directory : Path.IsName directory.toList :=
  Path.isName_of_length (by decide) (by decide)

def home (root : String) : String := Path.join [root, directory]

/-- A binary is resolved exactly for the platforms with a canonical name, and it lies below the install
root under that name. -/
theorem resolve?_eq_some : resolve? root base p = some b ↔
    ∃ name, p.canonicalName? base = some name ∧
      b = { name, path := Path.join [root, directory, name], platform := p } := by
  rw [resolve?, Option.map_eq_some_iff]
  exact exists_congr fun name => and_congr_right fun _ => eq_comm

/-- **A binary with a plain base name is in the directory for binaries**, under its name. -/
theorem path_eq (h : resolve? root base p = some b) (hbase : '/' ∉ base.toList) :
    b.path = home root ++ "/" ++ b.name ∧ Path.IsName b.name.toList := by
  obtain ⟨name, hname, rfl⟩ := resolve?_eq_some.mp h
  have hplain := Platform.isName_canonicalName hname hbase
  exact ⟨Path.join_name root isName_directory hplain, hplain⟩

/-- Two binaries with one name are for one platform and have one base name. -/
theorem name_injective (h : resolve? root base p = some b) (h' : resolve? root base' q = some b')
    (hname : b.name = b'.name) : p = q ∧ base = base' := by
  obtain ⟨name, hb, rfl⟩ := resolve?_eq_some.mp h
  obtain ⟨name', hb', rfl⟩ := resolve?_eq_some.mp h'
  obtain rfl : name = name' := hname
  exact Platform.canonicalName?_injective hb hb'

/-- Two binaries in one directory with one path have one name. -/
theorem path_injective (h : resolve? root base p = some b) (h' : resolve? root base' q = some b')
    (hbase : '/' ∉ base.toList) (hbase' : '/' ∉ base'.toList) (hpath : b.path = b'.path) :
    p = q ∧ base = base' := by
  rw [(path_eq h hbase).1, (path_eq h' hbase').1, String.append_right_inj] at hpath
  exact name_injective h h' hpath

/-- **Every binary has a place of its own.** With a configuration that is accepted, the binary for
each platform that is supported is resolved, and kept in the directory for binaries under its
canonical name, which is a single element of a path. Binaries for different platforms or with
different base names have different names, whatever the base names are, and below one install root
different paths. For paths, base names are single elements as well, as all that are accepted are. -/
theorem kept_apart {c : Config} {p : Platform} (hvalid : c.validate = .ok ()) (hp : p.isSupported = true) :
    (∃ b, resolve? c.installRoot c.baseName p = some b ∧ b.platform = p ∧
      b.name = p.os ++ "-" ++ p.arch ++ "-" ++ c.baseName ++ (if p.os = "win32" then ".exe" else "") ∧
      b.path = Path.clean (c.installRoot ++ "/" ++ directory) ++ "/" ++ b.name ∧
      Path.elements b.name.toList = [b.name.toList] ∧ '\\' ∉ b.name.toList ∧
      b.name ≠ "" ∧ b.name ≠ "." ∧ b.name ≠ "..") ∧
    '/' ∉ c.baseName.toList ∧
    ∀ root base base' q q' b b', resolve? root base q = some b → resolve? root base' q' = some b' →
      (q.os, q.arch, base) ≠ (q'.os, q'.arch, base') →
      b.name ≠ b'.name ∧ ('/' ∉ base.toList → '/' ∉ base'.toList → b.path ≠ b'.path) := by
  have haccepted := Config.validate_eq_ok.mp hvalid
  have hplain : '/' ∉ c.baseName.toList := fun h => (haccepted.undivided _ h).1 rfl
  refine ⟨?_, hplain, ?_⟩
  -- The name under which the binary is published, for a supported platform.
  · have hname : p.canonicalName? c.baseName =
        some (p.os ++ "-" ++ p.arch ++ "-" ++ c.baseName ++ p.suffix) := if_pos hp
    have hb : resolve? c.installRoot c.baseName p = some _ := resolve?_eq_some.mpr ⟨_, hname, rfl⟩
    obtain ⟨hpath, hsingle⟩ := path_eq hb hplain
    refine ⟨_, hb, rfl, ?_, ?_, Path.elements_plain hsingle.plain, ?_, ?_, ?_, ?_⟩
    · simp [Platform.suffix, Platform.isWindows]
    · rw [hpath, home, Path.join_two (Config.ne_empty_of_not_blank haccepted.installRoot) (by decide)]
    -- A backslash could only come from one of the parts, none of which has one.
    · obtain ⟨hos, harch, htext⟩ := Platform.toList_canonicalName hname
      have hsystems : ∀ s ∈ Platform.systems, '\\' ∉ s.toList := by decide
      have harchitectures : ∀ s ∈ Platform.architectures, '\\' ∉ s.toList := by decide
      have hbase : '\\' ∉ c.baseName.toList := fun h => (haccepted.undivided _ h).2 rfl
      have hsuffix : '\\' ∉ p.suffix.toList := by
        unfold Platform.suffix
        split <;> decide
      rw [htext]
      simp [hsystems _ hos, harchitectures _ harch, hbase, hsuffix]
    · exact fun h => hsingle.nonempty (congrArg String.toList h)
    · exact fun h => Bool.false_ne_true (hsingle.notDot.symm.trans (Path.isDot_iff.mpr (congrArg String.toList h)))
    · exact fun h =>
        Bool.false_ne_true (hsingle.notDotDot.symm.trans (Path.isDotDot_iff.mpr (congrArg String.toList h)))
  · intro root base base' q q' b b' hb hb' hne
    -- Names and paths tell platforms and base names apart.
    have hdiffer : ¬ (q = q' ∧ base = base') := by
      rintro ⟨rfl, rfl⟩
      exact hne rfl
    exact ⟨fun h => hdiffer (name_injective hb hb' h),
      fun hbase hbase' h => hdiffer (path_injective hb hb' hbase hbase' h)⟩

/-- A base name that looks like the name of a binary, below an install root that is not cleaned. -/
def lookalike : Config where
  installRoot := "../cache//gbnf/."
  baseName := "linux-x64-..engine.exe"

/-- The binary for another platform is kept elsewhere, though its base name makes up for much of the
difference. -/
theorem lookalike_kept_apart :
    lookalike.validate = .ok () ∧ ∃ b b',
      resolve? lookalike.installRoot lookalike.baseName ⟨"win32", "arm64"⟩ = some b ∧
      resolve? lookalike.installRoot "linux-x64-..engine" ⟨"win32", "x64"⟩ = some b' ∧
      b.name = "win32-arm64-linux-x64-..engine.exe.exe" ∧
      b.path = "../cache/gbnf/bin/" ++ b.name ∧ b.name ≠ b'.name ∧ b.path ≠ b'.path := by
  have hvalid : lookalike.validate = .ok () := Config.eq_ok_of_toOption (by decide +kernel)
  obtain ⟨⟨b, hb, -, hname, hpath, -⟩, hplain, hapart⟩ :=
    kept_apart (p := ⟨"win32", "arm64"⟩) hvalid (by decide)
  obtain ⟨b', hb'⟩ : ∃ b', resolve? lookalike.installRoot "linux-x64-..engine" ⟨"win32", "x64"⟩ = some b' :=
    ⟨_, rfl⟩
  have hhome : Path.clean (lookalike.installRoot ++ "/" ++ directory) ++ "/" = "../cache/gbnf/bin/" := by
    decide +kernel
  obtain ⟨hnames, hpaths⟩ := hapart _ _ _ _ _ b b' hb hb' (by decide)
  exact ⟨hvalid, b, b', hb, hb', hname, hpath.trans (congrArg (· ++ b.name) hhome), hnames,
    hpaths hplain (by decide)⟩

end Binary

end LanguageClient
