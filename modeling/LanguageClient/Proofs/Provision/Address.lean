import LanguageClient.Proofs.Config.Validity
import LanguageClient.Proofs.Url
import LanguageClient.Provision.Step

/-! # The address of a binary.

The address of a binary in a release is put together as a text, and is then read as a URL.
Below a base address without query and fragment, and with names in which every character
stands for itself, it is read as what it was put together from:

* `IsLiteral c`      — a character that stands for itself in the path of a URL;
* `Literal s`        — a text of such characters;
* `NamesBinary`      — a URL that names a binary in a release below a base address;
* `fetch_named`      — the request for a binary names that binary.

A query in the base address takes the tag and the name in, so that something else is asked for,
and so it is with a number sign in the name (`others_asked_for`). -/

namespace LanguageClient.Provision

open Config (eq_ok_of_toOption)

/-! ### Literal texts -/

/-- A character that stands for itself in the path of a URL. -/
def IsLiteral (c : Char) : Prop :=
  ¬ (c.toNat < 0x20 ∨ c.toNat = 0x7F) ∧ c ≠ '%' ∧ c ≠ '?' ∧ c ≠ '#'

instance (c : Char) : Decidable (IsLiteral c) := inferInstanceAs (Decidable (_ ∧ _))

/-- A text of such characters. -/
def Literal (s : String) : Prop := ∀ c ∈ s.toList, IsLiteral c

-- named, since an instance that goes through all characters would be found before it
instance (s : String) : Decidable (Literal s) := List.decidableBAll IsLiteral s.toList

/-- An octet of ASCII in the octets of a text is one of its characters. -/
theorem exists_of_mem_utf8 {s : String} {b : UInt8} (h : b ∈ utf8 s) (hb : b.toNat < 0x80) :
    ∃ c ∈ s.toList, b.toNat = c.toNat := by
  obtain ⟨c, hc, hmem⟩ := List.mem_flatMap.mp h
  exact ⟨c, hc, Utf8.toNat_eq_of_mem_encodeChar hmem hb⟩

/-- An octet of ASCII is not in the octets of a text without its character. -/
theorem notMem_utf8 {s : String} {c : Char} (hc : c.toNat < 0x80) (h : c ∉ s.toList) :
    UInt8.ofNat c.toNat ∉ utf8 s := by
  intro hmem
  have hoctet : (UInt8.ofNat c.toNat).toNat = c.toNat := UInt8.toNat_ofNat_of_lt' (show c.toNat < 256 by omega)
  obtain ⟨d, hd, hsame⟩ := exists_of_mem_utf8 hmem (by omega)
  obtain rfl : c = d := Char.toNat_inj.mp (hoctet.symm.trans hsame)
  exact h hd

/-- A literal text is its own spelling in a path. -/
theorem plain_of_literal {s : String} (h : Literal s) {b : UInt8} (hb : b ∈ utf8 s) :
    Url.IsPlain b ∧ b ≠ 0x25 := by
  by_cases hascii : b.toNat < 0x80
  -- An ASCII octet is a character of the text.
  · obtain ⟨c, hc, hsame⟩ := exists_of_mem_utf8 hb hascii
    obtain ⟨hcontrol, hpercent, hquestion, hnumber⟩ := h c hc
    have hne {d : Char} {o : UInt8} (hd : c ≠ d) (ho : o.toNat = d.toNat) : b ≠ o := by
      rintro rfl
      exact hd (Char.toNat_inj.mp (hsame.symm.trans ho))
    refine ⟨⟨?_, hne hnumber rfl, hne hquestion rfl⟩, hne hpercent rfl⟩
    rw [← hsame] at hcontrol
    rintro (hlow | rfl)
    · exact hcontrol (.inl (UInt8.lt_iff_toNat_lt.mp hlow))
    · exact hcontrol (.inr rfl)
  -- Every other octet is outside ASCII, where no octet has a meaning of its own.
  · have hne {o : UInt8} (ho : o.toNat < 0x80) : b ≠ o := by
      rintro rfl
      exact hascii ho
    refine ⟨⟨?_, hne (by decide), hne (by decide)⟩, hne (by decide)⟩
    rintro (hlow | rfl)
    · have hlt : b.toNat < 0x20 := UInt8.lt_iff_toNat_lt.mp hlow
      omega
    · exact hascii (by decide)

theorem literal_append {s t : String} (hs : Literal s) (ht : Literal t) : Literal (s ++ t) := by
  rw [Literal, String.toList_append]
  exact List.forall_mem_append.mpr ⟨hs, ht⟩

/-- The name of a binary is literal if the base name is. -/
theorem literal_canonicalName {platform : Platform} {baseName name : String}
    (hname : platform.canonicalName? baseName = some name) (h : Literal baseName) : Literal name := by
  unfold Platform.canonicalName? at hname
  split at hname
  · next hsupported =>
      obtain rfl := Option.some.inj hname
      obtain ⟨hsystem, harchitecture⟩ := (Bool.and_eq_true _ _).mp hsupported
      have hsystems : ∀ s ∈ Platform.systems, Literal s := by decide
      have harchitectures : ∀ s ∈ Platform.architectures, Literal s := by decide
      have hdash : Literal "-" := by decide
      have hsuffix : Literal platform.suffix := by
        unfold Platform.suffix
        split <;> decide
      have hos := hsystems _ (List.contains_iff_mem.mp hsystem)
      have harch := harchitectures _ (List.contains_iff_mem.mp harchitecture)
      exact literal_append (literal_append (literal_append (literal_append (literal_append hos hdash) harch) hdash) h)
        hsuffix
  · cases hname

/-! ### Slashes at the end -/

theorem utf8_append (s t : String) : utf8 (s ++ t) = utf8 s ++ utf8 t := by
  rw [utf8, String.toList_append, Utf8.encode, List.flatMap_append]
  rfl

theorem utf8_slashes (k : Nat) : utf8 (String.ofList (List.replicate k '/')) = List.replicate k 0x2F := by
  rw [utf8, String.toList_ofList]
  induction k with
  | zero => rfl
  | succ k ih =>
      rw [List.replicate_succ, Utf8.encode, List.flatMap_cons]
      exact congrArg (0x2F :: ·) ih

/-- A text is what remains without the slashes at its end, and those slashes. -/
theorem withoutSlashes_append (s : String) :
    ∃ slashes, s = withoutSlashes s ++ String.ofList (List.replicate slashes '/') := by
  have hall : ∀ c ∈ s.toList.reverse.takeWhile (· == '/'), c = '/' := by
    intro c hc
    simpa using List.mem_takeWhile_imp hc
  have htaken := List.eq_replicate_iff.mpr ⟨rfl, hall⟩
  have hsplit := List.takeWhile_append_dropWhile (p := (· == '/')) (l := s.toList.reverse)
  refine ⟨(s.toList.reverse.takeWhile (· == '/')).length, String.toList_injective ?_⟩
  rw [String.toList_append, withoutSlashes, String.toList_ofList, String.toList_ofList]
  calc s.toList
      = (s.toList.reverse.takeWhile (· == '/') ++ s.toList.reverse.dropWhile (· == '/')).reverse := by
        rw [hsplit, List.reverse_reverse]
    _ = (s.toList.reverse.dropWhile (· == '/')).reverse ++
          (s.toList.reverse.takeWhile (· == '/')).reverse := List.reverse_append
    _ = (s.toList.reverse.dropWhile (· == '/')).reverse ++
          List.replicate (s.toList.reverse.takeWhile (· == '/')).length '/' := by
        rw [← List.reverse_replicate, ← htaken]

/-! ### Validated configurations -/

/-- A configuration that is accepted has a base address with a scheme and a host. -/
theorem exists_base {c : Config} (h : c.validate = .ok ()) :
    ∃ base, Url.parse c.releaseBaseUrl = .ok base ∧ base.scheme ≠ "" ∧ base.host ≠ [] := by
  have hurl := (Config.validate_eq_ok.mp h).releaseBaseUrl
  unfold Config.validateReleaseUrl at hurl
  split at hurl
  · cases hurl
  · split at hurl
    · cases hurl
    · next base hbase =>
        refine ⟨base, hbase, ?_, ?_⟩
        · intro hnone
          simp [hnone] at hurl
        · intro hnone
          rw [hnone] at hurl
          split at hurl <;> cases hurl

/-! ### The request -/

/-- A URL that names a binary in a release: it agrees with the base address in scheme, user and
host, less a colon that no port follows, and has no query and no fragment. Its path, also as it
is spelled, is that of the base address, with the tag and the name behind it. -/
structure NamesBinary (base : Url) (stem : Bytes) (v : ReleaseVersion) (name : String) (u : Url) : Prop where
  scheme : u.scheme = base.scheme
  user : u.user = base.user
  host : u.host = withoutEmptyPort base.host
  path : u.path = stem ++ utf8 ("/" ++ v.tag ++ "/" ++ name)
  spelling : Url.unescape .path (Url.spelled .path u.path u.rawPath) = .ok u.path
  rooted : u.rootless = []
  query : u.query = [] ∧ u.forceQuery = false
  fragment : u.fragment = []

/-- One request is made, to the address that was put together. -/
theorem requests_fetch {p : Provisioner} {b : Binary} {v : ReleaseVersion} {u : Url}
    (h : Url.parse (p.downloadUrl v b.name) = .ok u) (s : Surroundings) (w : Shared) :
    requests (step p b s w (.fetch v)).2.2 = [{ url := (requestUrl u).text, userAgent := p.userAgent }] := by
  have hsaid (line info : String) (r : Request) : requests (say p line info ++ [.requested r]) = [r] := by
    unfold say
    split <;> rfl
  rw [step.eq_def]
  unfold fetch
  dsimp only
  rw [h]
  cases s.exchange.outcome with
  | refused e => exact hsaid _ _ _
  | response status body failure =>
      dsimp only
      split <;> exact hsaid _ _ _

/-- **The request for a binary names that binary.** Its path is that of the base address without
the slashes at the end of that, as they are written, then the tag of the release and the name
under which the binary is kept. -/
theorem fetch_named {c : Config} {platform : Platform} {b : Binary} {v : ReleaseVersion}
    (hvalid : c.validate = .ok ()) (hb : Binary.resolve? c.installRoot c.baseName platform = some b)
    (hquery : '?' ∉ c.releaseBaseUrl.toList) (hfragment : '#' ∉ c.releaseBaseUrl.toList)
    (hname : Literal c.baseName) (hversion : Literal v.text) (userAgent : String)
    (versions : FileSystem → Except Error ReleaseVersion) (audible : Bool) (s : Surroundings) (w : Shared) :
    ∃ base shorter u slashes,
      Url.parse c.releaseBaseUrl = .ok base ∧
      c.releaseBaseUrl = withoutSlashes c.releaseBaseUrl ++ String.ofList (List.replicate slashes '/') ∧
      Url.parse (withoutSlashes c.releaseBaseUrl) = .ok shorter ∧
      base.path = shorter.path ++ List.replicate slashes 0x2F ∧
      platform.canonicalName? c.baseName = some b.name ∧
      NamesBinary base shorter.path v b.name u ∧
      requests (step (.make c.releaseBaseUrl userAgent versions audible) b s w (.fetch v)).2.2 =
        [{ url := u.text, userAgent := if userAgent = "" then defaultUserAgent else userAgent }] := by
  obtain ⟨base, hbase, hscheme, hhost⟩ := exists_base hvalid
  obtain ⟨slashes, hslashes⟩ := withoutSlashes_append c.releaseBaseUrl
  have hcanonical : platform.canonicalName? c.baseName = some b.name := by
    obtain ⟨name, hn, rfl⟩ := Option.map_eq_some_iff.mp hb
    exact hn
  -- Everything behind the base is plain: no octet of it has a meaning in a URL.
  have hmore : ∀ o ∈ utf8 ("/" ++ v.tag ++ "/" ++ b.name), Url.IsPlain o ∧ o ≠ 0x25 := by
    have hslash : Literal "/" := by decide
    have hletter : Literal "v" := by decide
    have htag : Literal v.tag := literal_append hletter hversion
    intro o ho
    exact plain_of_literal (literal_append (literal_append (literal_append hslash htag) hslash)
      (literal_canonicalName hcanonical hname)) ho
  have hsuffix : utf8 ("/" ++ v.tag ++ "/" ++ b.name) = 0x2F :: (utf8 v.tag ++ utf8 "/" ++ utf8 b.name) := by
    rw [utf8_append, utf8_append, utf8_append]
    rfl
  have hwhole : utf8 c.releaseBaseUrl = utf8 (withoutSlashes c.releaseBaseUrl) ++ List.replicate slashes 0x2F := by
    rw [← utf8_slashes, ← utf8_append, ← hslashes]
  have hfree {o : UInt8} (ho : o ∉ utf8 c.releaseBaseUrl) : o ∉ utf8 (withoutSlashes c.releaseBaseUrl) := by
    intro hmem
    rw [hwhole] at ho
    exact ho (List.mem_append_left _ hmem)
  -- The base may end in slashes, of which the address keeps one.
  have hparse := hbase
  rw [Url.parse, hwhole] at hparse
  rw [hsuffix] at hmore
  obtain ⟨stem, raw, raw', hpath, hshorter, hlonger⟩ := Url.parse_replaceSlashes hparse
    (hfree (notMem_utf8 (by decide) hfragment)) (hfree (notMem_utf8 (by decide) hquery)) hscheme hhost hmore
  have haddress : Url.parse (Provisioner.downloadUrl (.make c.releaseBaseUrl userAgent versions audible) v b.name) =
      .ok { scheme := base.scheme, user := base.user, host := base.host
            path := stem ++ utf8 ("/" ++ v.tag ++ "/" ++ b.name), rawPath := raw' } := by
    have htext : utf8 (withoutSlashes c.releaseBaseUrl ++ "/" ++ v.tag ++ "/" ++ b.name) =
        utf8 (withoutSlashes c.releaseBaseUrl) ++ 0x2F :: (utf8 v.tag ++ utf8 "/" ++ utf8 b.name) := by
      rw [← hsuffix, ← utf8_append]
      simp only [String.append_assoc]
    show Url.parseBytes (utf8 (withoutSlashes c.releaseBaseUrl ++ "/" ++ v.tag ++ "/" ++ b.name)) = _
    rw [htext, hsuffix]
    exact hlonger
  refine ⟨base, _, requestUrl _, slashes, hbase, hslashes, hshorter, hpath, hcanonical, ?_,
    requests_fetch haddress s w⟩
  exact {
    scheme := rfl
    user := rfl
    host := rfl
    path := rfl
    spelling := (Url.denotes_spelled _ _).unescape_eq
    rooted := rfl
    query := ⟨rfl, rfl⟩
    fragment := rfl }

/-- A release location with an escape in its path, and slashes and an empty port at ends. -/
def mirrored : Config where
  installRoot := "/srv"
  baseName := "gbnf engine"
  releaseBaseUrl := "https://mirror.example:/a%20b//"

def mirroredBinary : Binary where
  name := "win32-arm64-gbnf engine.exe"
  path := "/srv/bin/win32-arm64-gbnf engine.exe"
  platform := ⟨"win32", "arm64"⟩

def unanswered : Surroundings where
  cancelled := false
  exchange := { outcome := .refused (.condition .deadlineExceeded) }
  suffix := ""

/-- What is asked for by a provisioner that is made for a configuration. -/
def askedFor (c : Config) (b : Binary) (v : ReleaseVersion) : List Request :=
  requests (step (.make c.releaseBaseUrl "" (fun _ => .ok v) true) b unanswered { files := {} } (.fetch v)).2.2

theorem mirrored_named :
    ∃ base u, Url.parse mirrored.releaseBaseUrl = .ok base ∧ base.path = utf8 "/a b//" ∧
      NamesBinary base (utf8 "/a b") ⟨"1.0-rc+1"⟩ "win32-arm64-gbnf engine.exe" u ∧
      askedFor mirrored mirroredBinary ⟨"1.0-rc+1"⟩ =
        [{ url := u.text, userAgent := "gbnf-client" }] ∧
      u.text = "https://mirror.example/a%20b/v1.0-rc+1/win32-arm64-gbnf%20engine.exe" := by
  have hvalid : mirrored.validate = .ok () := eq_ok_of_toOption (by decide +kernel)
  have hb : Binary.resolve? mirrored.installRoot mirrored.baseName ⟨"win32", "arm64"⟩ = some mirroredBinary := by
    decide +kernel
  obtain ⟨base, shorter, u, slashes, hbase, -, hshorter, -, -, hu, hrequests⟩ :=
    fetch_named (v := ⟨"1.0-rc+1"⟩) hvalid hb (by decide) (by decide) (by decide) (by decide) ""
      (fun _ => .ok ⟨"1.0-rc+1"⟩) true unanswered { files := {} }
  have hasked : askedFor mirrored mirroredBinary ⟨"1.0-rc+1"⟩ =
      [{ url := "https://mirror.example/a%20b/v1.0-rc+1/win32-arm64-gbnf%20engine.exe",
         userAgent := "gbnf-client" }] := by
    decide +kernel
  have hbasePath : (Url.parse mirrored.releaseBaseUrl).toOption.map (·.path) = some (utf8 "/a b//") := by
    decide +kernel
  have hstem : (Url.parse (withoutSlashes mirrored.releaseBaseUrl)).toOption.map (·.path) = some (utf8 "/a b") := by
    decide +kernel
  rw [hbase] at hbasePath
  rw [hshorter] at hstem
  have hsame : shorter.path = utf8 "/a b" := Option.some.inj hstem
  rw [hsame] at hu
  have htext : u.text = "https://mirror.example/a%20b/v1.0-rc+1/win32-arm64-gbnf%20engine.exe" :=
    congrArg Request.url (List.cons.inj (hrequests.symm.trans hasked)).1
  exact ⟨base, u, hbase, Option.some.inj hbasePath, hu, hrequests, htext⟩

/-! ### Requests for something else -/

def queried : Config where
  installRoot := "/srv"
  releaseBaseUrl := "https://mirror.example/dl?mirror=1"

def numbered : Config where
  installRoot := "/srv"
  baseName := "engine#2"
  releaseBaseUrl := "https://mirror.example/dl"

/-- **Not every request names the binary**: a query in the base address takes in the tag and the
name, and what stands behind a number sign in the name is not asked for. -/
theorem others_asked_for :
    (∃ base u, queried.validate = .ok () ∧ Url.parse queried.releaseBaseUrl = .ok base ∧
      askedFor queried { name := "linux-x64-gbnf-engine" } ⟨"1.0"⟩ =
        [{ url := Url.text u, userAgent := "gbnf-client" }] ∧
      u.path = base.path ∧ base.query = utf8 "mirror=1" ∧
      u.query = utf8 "mirror=1/v1.0/linux-x64-gbnf-engine") ∧
    ∃ base u, numbered.validate = .ok () ∧ Url.parse numbered.releaseBaseUrl = .ok base ∧
      askedFor numbered { name := "linux-x64-engine#2" } ⟨"1.0"⟩ =
        [{ url := Url.text u, userAgent := "gbnf-client" }] ∧
      u.path = base.path ++ utf8 "/v1.0/linux-x64-engine" ∧ u.fragment = utf8 "2" := by
  have hvalid : queried.validate = .ok () := eq_ok_of_toOption (by decide +kernel)
  have hvalid' : numbered.validate = .ok () := eq_ok_of_toOption (by decide +kernel)
  refine ⟨⟨{ scheme := "https", host := utf8 "mirror.example", path := utf8 "/dl", query := utf8 "mirror=1" },
    { scheme := "https", host := utf8 "mirror.example", path := utf8 "/dl",
      query := utf8 "mirror=1/v1.0/linux-x64-gbnf-engine" }, hvalid, eq_ok_of_toOption (by decide +kernel),
    by decide +kernel, rfl, rfl, rfl⟩, { scheme := "https", host := utf8 "mirror.example", path := utf8 "/dl" },
    { scheme := "https", host := utf8 "mirror.example", path := utf8 "/dl/v1.0/linux-x64-engine",
      fragment := utf8 "2" }, hvalid', eq_ok_of_toOption (by decide +kernel), by decide +kernel, ?_, rfl⟩
  decide +kernel

end LanguageClient.Provision
