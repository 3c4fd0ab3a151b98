import LanguageClient.Document
import LanguageClient.Proofs.Text.Separator
import LanguageClient.Proofs.Text.Utf8

/-! # A file is known by its URI.

The URI of a file is `file://` and its cleaned absolute path, escaped. What is
written for an octet of the path is never taken for a part of the URI other than
the path (`clear_of_mem_escape`), and reading the path gives the octets back
(`unescape_escape`). So the URI is read as exactly what it was written from
(`parseBytes_fileUri`), and no two files share one. -/

namespace LanguageClient

namespace Url

/-! ### Escaped paths -/

/-- A pair of digits is read as the octet that was written with them. -/
theorem hexPair?_hexUpper (b : UInt8) :
    hexPair? (hexUpper (b.toNat / 16)) (hexUpper (b.toNat % 16)) = some b := by
  revert b
  apply Utf8.forall_octet
  decide +kernel

/-- The percent sign is always escaped, so that it announces an escape wherever
it stands. -/
theorem ne_percent {b : UInt8} (h : mustEscape .path b = false) : b ≠ 0x25 := by
  rintro rfl
  exact absurd h (by decide)

/-- An octet of a path is read back from the way it is escaped. -/
theorem unescape_escapeOctet (b : UInt8) (rest : Bytes) :
    unescape .path (escapeOctet .path b ++ rest) = (unescape .path rest).map (b :: ·) := by
  unfold escapeOctet
  split
  · simp only [List.cons_append, List.nil_append, unescape, hexPair?_hexUpper, takesEscape, if_true]
  · next hplain =>
      have hne := ne_percent (Bool.eq_false_iff.mpr hplain)
      rw [List.singleton_append, unescape.eq_def]
      simp only [hne, if_false, takesPlain, if_true]

/-- **Reading an escaped path gives its octets back.** -/
theorem unescape_escape (bs : Bytes) : unescape .path (escape .path bs) = .ok bs := by
  induction bs with
  | nil => rfl
  | cons b bs ih =>
      rw [escape, List.flatMap_cons, unescape_escapeOctet]
      exact congrArg (Except.map (b :: ·)) ih

/-- A printable octet of ASCII that ends neither the path nor the query of a URL. -/
def IsClear (b : UInt8) : Prop := 0x20 < b ∧ b < 0x7F ∧ b ≠ 0x23 ∧ b ≠ 0x3F

instance (b : UInt8) : Decidable (IsClear b) := inferInstanceAs (Decidable (_ ∧ _))

/-- An escaped path holds clear octets only. -/
theorem clear_of_mem_escape {bs : Bytes} {b : UInt8} (h : b ∈ escape .path bs) : IsClear b := by
  obtain ⟨o, _, hb⟩ := List.mem_flatMap.mp h
  have hall : ∀ o : UInt8, (escapeOctet .path o).all (IsClear ·) = true := by
    apply Utf8.forall_octet
    decide +kernel
  exact of_decide_eq_true (List.all_eq_true.mp (hall o) b hb)

/-- The separator of paths stands for itself. -/
theorem escape_slash (bs : Bytes) : escape .path (0x2F :: bs) = 0x2F :: escape .path bs := by
  have hslash : escapeOctet .path 0x2F = [0x2F] := by decide
  rw [escape, List.flatMap_cons, hslash]
  rfl

/-! ### Addresses without a host -/

theorem cut_of_not_mem {sep : UInt8} {bs : Bytes} (h : sep ∉ bs) : cut sep bs = (bs, none) := by
  rw [cut, Text.dropWhile_notMem h]

def front : Bytes := utf8 "file://"

/-- The octets in front of a path end nothing either. -/
theorem clear_of_mem {p : Bytes} {b : UInt8} (h : b ∈ front ++ escape .path p) : IsClear b := by
  have hfront : front.all (IsClear ·) = true := by decide
  rcases List.mem_append.mp h with h | h
  · exact of_decide_eq_true (List.all_eq_true.mp hfront b h)
  · exact clear_of_mem_escape h

/-- The path is read as it is written, in its usual spelling. -/
theorem withPath_escape (url : Url) (p : Bytes) :
    withPath url (escape .path p) = .ok { url with path := p, rawPath := [] } := by
  rw [withPath, unescape_escape]
  simp only [Except.map, if_true]

/-- Two slashes with nothing before the next one are an empty host. -/
theorem readHierarchical_file (url : Url) (hscheme : url.scheme ≠ "") (p : Bytes) :
    readHierarchical url (0x2F :: 0x2F :: escape .path (0x2F :: p)) =
      .ok { url with user := none, host := [], path := 0x2F :: p, rawPath := [] } := by
  have hauthority : readAuthority ([] : Bytes) = .ok (none, []) := rfl
  have hempty : (escape .path (0x2F :: p)).takeWhile (· != 0x2F) = [] := by
    rw [escape_slash]
    rfl
  have hrest : (escape .path (0x2F :: p)).dropWhile (· != 0x2F) = escape .path (0x2F :: p) := by
    rw [escape_slash]
    rfl
  simp only [readHierarchical, hscheme, ne_eq, not_false_eq_true, decide_true, Bool.true_or, if_true,
    hempty, hrest, hauthority, Except.bind, withPath_escape]

/-- The URI of a file is read as a URL whose path is that of the file. -/
theorem parseBytes_file (p : Bytes) :
    parseBytes (front ++ escape .path (0x2F :: p)) = .ok { scheme := "file", path := 0x2F :: p } := by
  -- No octet that the reader cuts at or refuses is left after escaping.
  have hfragment : (0x23 : UInt8) ∉ front ++ escape .path (0x2F :: p) :=
    fun h => (clear_of_mem h).2.2.1 rfl
  have hquery : (0x3F : UInt8) ∉ 0x2F :: 0x2F :: escape .path (0x2F :: p) := by
    intro h
    have hmem : (0x3F : UInt8) ∈ front ++ escape .path (0x2F :: p) :=
      List.mem_append_right (utf8 "file:") h
    exact (clear_of_mem hmem).2.2.2 rfl
  have hcontrol : (front ++ escape .path (0x2F :: p)).any (fun b => b < 0x20 || b = 0x7F) = false := by
    rw [List.any_eq_false]
    intro b hb
    obtain ⟨hlow, hhigh, _⟩ := clear_of_mem hb
    simp only [Bool.or_eq_true, decide_eq_true_eq, not_or, UInt8.not_lt]
    exact ⟨UInt8.le_of_lt hlow, UInt8.ne_of_lt hhigh⟩
  have hscheme : splitScheme (front ++ escape .path (0x2F :: p)) =
      .ok (utf8 "file", 0x2F :: 0x2F :: escape .path (0x2F :: p)) := rfl
  have hlower : (textOf (utf8 "file")).toLower = "file" := by decide +kernel
  have hread : readWithoutFragment (front ++ escape .path (0x2F :: p)) =
      .ok { scheme := "file", path := 0x2F :: p } := by
    have hstar : front ++ escape .path (0x2F :: p) ≠ [0x2A] := by
      intro h
      exact absurd (List.cons.inj h).1 (by decide)
    have hsplit : splitQuery (0x2F :: 0x2F :: escape .path (0x2F :: p)) =
        (0x2F :: 0x2F :: escape .path (0x2F :: p), false, []) := by
      rw [splitQuery, cut_of_not_mem hquery]
    rw [readWithoutFragment, hcontrol]
    simp only [Bool.false_eq_true, if_false, hstar, hscheme, bind, Except.bind, hlower, hsplit,
      List.head?_cons, if_true]
    exact readHierarchical_file _ (by decide) p
  rw [parseBytes, cut_of_not_mem hfragment]
  simp only [hread]

end Url

/-! ### Files -/

/-- A path seen from a rooted directory is rooted. -/
theorem Path.absoluteList_rooted {base : Bytes} (h : isRooted base = true) (p : Bytes) :
    ∃ rest, absoluteList base p = 0x2F :: rest := by
  have hclean : ∀ q : Bytes, isRooted q = true → ∃ rest, cleanList q = 0x2F :: rest := by
    intro q hq
    exact ⟨_, by rw [cleanList, if_pos hq]; rfl⟩
  unfold absoluteList
  split
  · next hp => exact hclean p hp
  · apply hclean
    cases base with
    | nil => cases h
    | cons b base => exact h

/-- The URI of a file is what its path is escaped to, behind `file://`. -/
theorem fileUri_eq {workingDirectory : Bytes} (h : Path.isRooted workingDirectory = true)
    (path : Bytes) :
    fileUri workingDirectory path =
      Url.front ++ Url.escape .path (Path.absoluteList workingDirectory path) := by
  obtain ⟨rest, hrest⟩ := Path.absoluteList_rooted h path
  have hspelled : Url.spelled .path (0x2F :: rest) [] = Url.escape .path (0x2F :: rest) := by
    simp [Url.spelled]
  rw [fileUri, hrest, Url.bytes, hspelled]
  have hauthority : ({ scheme := "file", path := 0x2F :: rest } : Url).authorityBytes =
      [0x2F, 0x2F] := rfl
  have hfront : ∀ bs : Bytes, utf8 "file" ++ 0x3A :: 0x2F :: 0x2F :: bs = Url.front ++ bs :=
    fun _ => rfl
  have hne : Url.front ≠ [] := by decide
  simp [hauthority, hfront, hne]

/-- **The URI of a file is read as what it was written from**: the scheme `file`,
no host, no query, no fragment, and the cleaned absolute path. -/
theorem parseBytes_fileUri {workingDirectory : Bytes} (h : Path.isRooted workingDirectory = true)
    (path : Bytes) :
    Url.parseBytes (fileUri workingDirectory path) =
      .ok { scheme := "file", path := Path.absoluteList workingDirectory path } := by
  obtain ⟨rest, hrest⟩ := Path.absoluteList_rooted h path
  rw [fileUri_eq h, hrest]
  exact Url.parseBytes_file rest

/-- A file URI holds printable ASCII only. -/
theorem printable_of_mem_fileUri {workingDirectory path : Bytes} {b : UInt8}
    (h : Path.isRooted workingDirectory = true) (hb : b ∈ fileUri workingDirectory path) :
    0x20 < b ∧ b < 0x7F := by
  rw [fileUri_eq h] at hb
  obtain ⟨hlow, hhigh, _⟩ := Url.clear_of_mem hb
  exact ⟨hlow, hhigh⟩

/-- The URI survives being a text. -/
theorem utf8_textOf_fileUri {workingDirectory : Bytes} (h : Path.isRooted workingDirectory = true)
    (path : Bytes) : utf8 (textOf (fileUri workingDirectory path)) = fileUri workingDirectory path := by
  rw [utf8, textOf, String.toList_ofList]
  apply Utf8.encode_decode_ascii
  intro b hb
  have hhigh := (printable_of_mem_fileUri h hb).2
  simp only [UInt8.lt_iff_toNat_lt, UInt8.reduceToNat] at hhigh
  omega

/-- The selector for files of a language selects a document under the URI of a file. -/
theorem selects_of_fileUri {workingDirectory path : Bytes} {language : String} {doc : Document}
    (h : Path.isRooted workingDirectory = true)
    (huri : doc.uri = textOf (fileUri workingDirectory path)) (hlanguage : doc.languageId = language) :
    (Selector.files language).selects doc = true := by
  have hscheme : Text.sameName "file".toList "file".toList = true := by decide
  rw [Selector.selects, Url.parse, huri, utf8_textOf_fileUri h, parseBytes_fileUri h]
  simp only [Selector.files, hlanguage, beq_self_eq_true, hscheme, Bool.and_self]

/-- **A file is known by its URI**, whatever octets its path holds. The URI is
printable ASCII. It is read as the scheme `file`, no host, no query, no fragment,
and the cleaned absolute path. Two files have the same URI if and only if they have
the same cleaned absolute path, and the selector for files of a language selects
every document of that language under such a URI. -/
theorem fileUri_faithful {workingDirectory : Bytes} (h : Path.isRooted workingDirectory = true)
    (path : Bytes) :
    (∀ b ∈ fileUri workingDirectory path, 0x20 < b ∧ b < 0x7F) ∧
    Url.parseBytes (fileUri workingDirectory path) =
      .ok { scheme := "file", path := Path.absoluteList workingDirectory path
            user := none, host := [], forceQuery := false, query := [], fragment := [] } ∧
    (∀ workingDirectory' path', Path.isRooted workingDirectory' = true →
      (fileUri workingDirectory path = fileUri workingDirectory' path' ↔
        Path.absoluteList workingDirectory path = Path.absoluteList workingDirectory' path')) ∧
    ∀ language doc, doc.uri = textOf (fileUri workingDirectory path) → doc.languageId = language →
      (Selector.files language).selects doc = true := by
  refine ⟨fun b hb => printable_of_mem_fileUri h hb, parseBytes_fileUri h path, ?_, ?_⟩
  · intro workingDirectory' path' h'
    constructor
    · intro he
      -- Equal URIs are read the same, and reading gives the path back.
      have hurl := parseBytes_fileUri h path
      rw [he, parseBytes_fileUri h'] at hurl
      injection hurl with hurl
      injection hurl with _ _ _ _ hpath
      exact hpath.symm
    · intro he
      rw [fileUri_eq h, fileUri_eq h', he]
  · intro language doc huri hlanguage
    exact selects_of_fileUri h huri hlanguage

/-- A relative path that leads out of its directory, with octets that mean
something else in a URI and one that is no text. -/
theorem fileUri_hostile :
    Path.isRooted (utf8 "/srv/a b") = true ∧
      fileUri (utf8 "/srv/a b") (utf8 "../%41#c?\n" ++ [0xFF]) = utf8 "file:///srv/%2541%23c%3F%0A%FF" ∧
      Url.parseBytes (utf8 "file:///srv/%2541%23c%3F%0A%FF") =
        .ok { scheme := "file", path := utf8 "/srv/%41#c?\n" ++ [0xFF] } := by
  have hrooted : Path.isRooted (utf8 "/srv/a b") = true := by decide
  have hpath : Path.absoluteList (utf8 "/srv/a b") (utf8 "../%41#c?\n" ++ [0xFF]) =
      utf8 "/srv/%41#c?\n" ++ [0xFF] := by decide
  have huri : fileUri (utf8 "/srv/a b") (utf8 "../%41#c?\n" ++ [0xFF]) =
      utf8 "file:///srv/%2541%23c%3F%0A%FF" := by decide +kernel
  refine ⟨hrooted, huri, ?_⟩
  obtain ⟨_, hparse, _⟩ := fileUri_faithful hrooted (utf8 "../%41#c?\n" ++ [0xFF])
  rwa [huri, hpath] at hparse

end LanguageClient
