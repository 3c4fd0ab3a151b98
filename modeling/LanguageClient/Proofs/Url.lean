import Mathlib.Data.List.TakeWhile
import LanguageClient.Proofs.Document

/-! # URLs with a host.

A URL with a host and without query and fragment is written as a scheme, an authority and a
path, one behind the other:

* `Denotes`          — the octets that the spelling of a path denotes, piece by piece;
* `Hosted`           — a text that is written as scheme, authority and path;
* `exists_hosted`    — every text that is read as such a URL is written so;
* `Hosted.parse_eq`  — and what is written so is read part by part.

Hence a path can be made longer or shorter at its end without touching what stands in front
of it. -/

namespace LanguageClient.Url

/-! ### Spellings of a path -/

/-- The octets that the spelling of a path denotes. -/
inductive Denotes : Bytes → Bytes → Prop where
  | nil : Denotes [] []
  | plain {b : UInt8} {spelling octets : Bytes} (hb : b ≠ 0x25) (rest : Denotes spelling octets) :
      Denotes (b :: spelling) (b :: octets)
  | escaped {h l v : UInt8} {spelling octets : Bytes} (hv : hexPair? h l = some v)
      (rest : Denotes spelling octets) : Denotes (0x25 :: h :: l :: spelling) (v :: octets)

theorem unescape_plain {b : UInt8} (hb : b ≠ 0x25) (spelling : Bytes) :
    unescape .path (b :: spelling) = (unescape .path spelling).map (b :: ·) := by
  rw [unescape.eq_def]
  simp only [hb, if_false, takesPlain, if_true]

theorem unescape_escaped {h l v : UInt8} (hv : hexPair? h l = some v) (spelling : Bytes) :
    unescape .path (0x25 :: h :: l :: spelling) = (unescape .path spelling).map (v :: ·) := by
  simp only [unescape, if_true, hv, takesEscape]

/-- **A spelling is read as what it denotes.** -/
theorem Denotes.unescape_eq {spelling octets : Bytes} (h : Denotes spelling octets) :
    unescape .path spelling = .ok octets := by
  induction h with
  | nil => rfl
  | plain hb rest ih => rw [unescape_plain hb, ih]; rfl
  | escaped hv rest ih => rw [unescape_escaped hv, ih]; rfl

/-- A spelling that is read denotes what it is read as. -/
theorem denotes_of_unescape {spelling octets : Bytes} (h : unescape .path spelling = .ok octets) :
    Denotes spelling octets := by
  -- What is read behind an octet, if anything is.
  have hmap {b : UInt8} {r : Except ParseError Bytes} {octets : Bytes} (hr : r.map (b :: ·) = .ok octets) :
      ∃ rest, r = .ok rest ∧ octets = b :: rest := by
    cases r with
    | error e => cases hr
    | ok rest => exact ⟨rest, rfl, (Except.ok.inj hr).symm⟩
  induction spelling using unescape.induct .path generalizing octets with
  | case1 =>
      cases h
      exact .nil
  -- An escape without two digits is no spelling.
  | case2 h l r hnone =>
      rw [unescape.eq_def] at h
      simp [hnone] at h
  | case3 h l r v hv _ ih =>
      rw [unescape_escaped hv] at h
      obtain ⟨rest, hr, rfl⟩ := hmap h
      exact .escaped hv (ih hr)
  | case4 h l r v _ htakes => exact absurd rfl htakes
  | case5 short hshort =>
      rw [unescape.eq_def] at h
      simp only [if_true] at h
      cases h
  | case6 b rest hb _ ih =>
      rw [unescape_plain hb] at h
      obtain ⟨rest, hr, rfl⟩ := hmap h
      exact .plain hb (ih hr)
  | case7 b rest hb hplain => exact absurd rfl hplain

/-- One spelling behind another denotes what both denote. -/
theorem Denotes.append {front back p q : Bytes} (hfront : Denotes front p) (hback : Denotes back q) :
    Denotes (front ++ back) (p ++ q) := by
  induction hfront with
  | nil => exact hback
  | plain hb _ ih => exact .plain hb ih
  | escaped hv _ ih => exact .escaped hv ih

/-- Octets other than the percent sign denote themselves. -/
theorem denotes_self {bs : Bytes} (h : 0x25 ∉ bs) : Denotes bs bs := by
  induction bs with
  | nil => exact .nil
  | cons b bs ih =>
      rw [List.mem_cons, not_or] at h
      exact .plain (Ne.symm h.1) (ih h.2)

/-- No slash is a digit of an escape. -/
theorem hexPair?_slash (b : UInt8) : hexPair? 0x2F b = none ∧ hexPair? b 0x2F = none := by
  revert b
  apply Utf8.forall_octet
  decide +kernel

/-- A spelling can be split at a slash, which never belongs to an escape. -/
theorem Denotes.split {front back octets : Bytes} (h : Denotes (front ++ 0x2F :: back) octets) :
    ∃ p q, Denotes front p ∧ Denotes (0x2F :: back) q ∧ octets = p ++ q := by
  generalize hwhole : front ++ 0x2F :: back = whole at h
  induction h generalizing front with
  | nil => simp at hwhole
  | @plain b spelling octets hb rest ih =>
      cases front with
      | nil =>
          obtain ⟨rfl, rfl⟩ := List.cons.inj hwhole
          exact ⟨[], _, .nil, .plain hb rest, rfl⟩
      | cons c front =>
          obtain ⟨rfl, hrest⟩ := List.cons.inj hwhole
          obtain ⟨p, q, hp, hq, rfl⟩ := ih hrest
          exact ⟨c :: p, q, .plain hb hp, hq, rfl⟩
  -- The slash is no hexadecimal digit, so it cannot stand inside an escape.
  | @escaped h l v spelling octets hv rest ih =>
      match front with
      | [] => cases (List.cons.inj hwhole).1
      | [c] =>
          obtain rfl := (List.cons.inj (List.cons.inj hwhole).2).1
          rw [(hexPair?_slash l).1] at hv
          cases hv
      | [c, d] =>
          obtain rfl := (List.cons.inj (List.cons.inj (List.cons.inj hwhole).2).2).1
          rw [(hexPair?_slash h).2] at hv
          cases hv
      | c :: d :: e :: front =>
          simp only [List.cons_append, List.cons.injEq] at hwhole
          obtain ⟨rfl, rfl, rfl, hrest⟩ := hwhole
          obtain ⟨p, q, hp, hq, rfl⟩ := ih hrest
          exact ⟨v :: p, q, .escaped hv hp, hq, rfl⟩

/-- Slashes at the end stand for themselves. -/
theorem Denotes.of_append_slashes {front octets : Bytes} {k : Nat}
    (h : Denotes (front ++ List.replicate k 0x2F) octets) :
    ∃ p, Denotes front p ∧ octets = p ++ List.replicate k 0x2F := by
  cases k with
  | zero => exact ⟨octets, by simpa using h, by simp⟩
  | succ k =>
      obtain ⟨p, q, hp, hq, rfl⟩ := h.split
      have hslashes : (0x25 : UInt8) ∉ 0x2F :: List.replicate k 0x2F := by
        rw [← List.replicate_succ]
        intro hmem
        have hsame := List.eq_of_mem_replicate hmem
        cases hsame
      have hself := (denotes_self hslashes).unescape_eq.symm.trans hq.unescape_eq
      exact ⟨p, hp, by rw [← Except.ok.inj hself]; rfl⟩

/-- The spelling that is written for a path denotes it. -/
theorem denotes_spelled (path raw : Bytes) : Denotes (spelled .path path raw) path := by
  -- Without a usable spelling of its own, the path is escaped in the usual way.
  have husual : Denotes (if Part.path = .path && path = [0x2A] then path else escape .path path) path := by
    split
    · next hstar =>
        rw [Bool.and_eq_true, decide_eq_true_eq, decide_eq_true_eq] at hstar
        rw [hstar.2]
        exact denotes_self (by decide)
    · exact denotes_of_unescape (unescape_escape path)
  unfold spelled
  dsimp only
  cases hraw : unescape .path raw with
  | error e =>
      simp only [Bool.and_false, Bool.false_eq_true, if_false]
      exact husual
  | ok d =>
      dsimp only
      by_cases husable : (!raw.isEmpty && isSpelling .path raw && decide (d = path)) = true
      · rw [if_pos husable]
        rw [Bool.and_eq_true, decide_eq_true_eq] at husable
        exact denotes_of_unescape (husable.2 ▸ hraw)
      · rw [if_neg husable]
        exact husual

/-! ### Scheme, authority and path -/

def isSchemeOctet (b : UInt8) : Bool := isLetter b || isDigit b || isOneOf "+-." b

/-- An octet that ends neither the path nor the query of a URL, and is no control character. -/
def IsPlain (b : UInt8) : Prop := ¬ (b < 0x20 ∨ b = 0x7F) ∧ b ≠ 0x23 ∧ b ≠ 0x3F

/-- A text written as scheme, authority and path, without query and fragment. -/
structure Hosted (bs scheme authority path : Bytes) : Prop where
  bytes_eq : bs = scheme ++ 0x3A :: 0x2F :: 0x2F :: (authority ++ path)
  schemeOctets : ∀ b ∈ scheme, isSchemeOctet b = true
  letter : ∃ b rest, scheme = b :: rest ∧ isLetter b = true
  named : (textOf scheme).toLower ≠ ""
  authority_free : 0x2F ∉ authority
  rooted : path = [] ∨ ∃ rest, path = 0x2F :: rest
  plain : ∀ b ∈ bs, IsPlain b

theorem takeWhile_free {sep : UInt8} {bs : Bytes} (h : sep ∉ bs) {rest : Bytes}
    (hrest : rest = [] ∨ ∃ more, rest = sep :: more) :
    (bs ++ rest).takeWhile (· != sep) = bs ∧ (bs ++ rest).dropWhile (· != sep) = rest := by
  rcases hrest with rfl | ⟨more, rfl⟩
  · rw [List.append_nil]
    exact ⟨Text.takeWhile_notMem h, Text.dropWhile_notMem h⟩
  · exact ⟨Text.takeWhile_sep h more, Text.dropWhile_sep h more⟩

/-- A scheme ends at the first octet that no scheme can hold. -/
theorem splitScheme_eq (bs : Bytes) : splitScheme bs =
    match bs.dropWhile isSchemeOctet with
    | 0x3A :: rest =>
      match bs.takeWhile isSchemeOctet with
      | [] => .error .missingScheme
      | b :: _ => if isLetter b then .ok (bs.takeWhile isSchemeOctet, rest) else .ok ([], bs)
    | _ => .ok ([], bs) := rfl

/-- A scheme ends at its colon. -/
theorem splitScheme_append {scheme : Bytes} (hoctets : ∀ b ∈ scheme, isSchemeOctet b = true)
    (hletter : ∃ b more, scheme = b :: more ∧ isLetter b = true) (rest : Bytes) :
    splitScheme (scheme ++ 0x3A :: rest) = .ok (scheme, rest) := by
  have htake : (scheme ++ 0x3A :: rest).takeWhile isSchemeOctet = scheme := by
    rw [List.takeWhile_append_of_pos hoctets, List.takeWhile_cons_of_neg (by decide), List.append_nil]
  have hdrop : (scheme ++ 0x3A :: rest).dropWhile isSchemeOctet = 0x3A :: rest := by
    rw [List.dropWhile_append_of_pos hoctets, List.dropWhile_cons_of_neg (by decide)]
  obtain ⟨b, more, rfl, hb⟩ := hletter
  rw [splitScheme_eq, htake, hdrop]
  simp only [hb, if_true]

/-- Where there is no scheme, everything is left; a scheme ends at its colon. -/
theorem splitScheme_cases {bs scheme rest : Bytes} (h : splitScheme bs = .ok (scheme, rest)) :
    scheme = [] ∧ rest = bs ∨ bs = scheme ++ 0x3A :: rest ∧ (∀ b ∈ scheme, isSchemeOctet b = true) ∧
      ∃ b more, scheme = b :: more ∧ isLetter b = true := by
  have hwhole := List.takeWhile_append_dropWhile (p := isSchemeOctet) (l := bs)
  have hoctets : ∀ b ∈ bs.takeWhile isSchemeOctet, isSchemeOctet b = true := by
    intro b hb
    exact List.mem_takeWhile_imp hb
  rw [splitScheme_eq] at h
  -- The octet behind those of a scheme has to be a colon, with a letter in front.
  split at h
  · next rest' hdrop =>
      split at h
      · cases h
      · next b more htake =>
          split at h
          · next hb =>
              obtain ⟨rfl, rfl⟩ := Prod.mk.inj (Except.ok.inj h)
              rw [hdrop] at hwhole
              exact .inr ⟨hwhole.symm, hoctets, b, more, htake, hb⟩
          · obtain ⟨rfl, rfl⟩ := Prod.mk.inj (Except.ok.inj h)
            exact .inl ⟨rfl, rfl⟩
  · obtain ⟨rfl, rfl⟩ := Prod.mk.inj (Except.ok.inj h)
    exact .inl ⟨rfl, rfl⟩

/-- No query is split off where there is no question mark. -/
theorem splitQuery_of_notMem {rest : Bytes} (h : 0x3F ∉ rest) : splitQuery rest = (rest, false, []) := by
  rw [splitQuery, cut_of_not_mem h]

section Hosted

variable {bs scheme authority path host octets : Bytes} {user : Option UserInfo}

/-- A plain text passes the check for control characters. -/
theorem any_control_eq_false (h : ∀ b ∈ bs, IsPlain b) :
    (bs.any fun b => b < 0x20 || b = 0x7F) = false := by
  rw [List.any_eq_false]
  intro b hb
  simpa using (h b hb).1

/-- **A text that is written as scheme, authority and path is read part by part.** -/
theorem Hosted.parse_eq (h : Hosted bs scheme authority path)
    (hauthority : readAuthority authority = .ok (user, host)) (hpath : Denotes path octets) :
    parseBytes bs = .ok {
      scheme := (textOf scheme).toLower, user, host, path := octets
      rawPath := if escape .path octets = path then [] else path } := by
  -- There is neither a fragment nor a query, and the text is not the lone star.
  have hfragment : (0x23 : UInt8) ∉ bs := fun hmem => (h.plain _ hmem).2.1 rfl
  have hquery : (0x3F : UInt8) ∉ 0x2F :: 0x2F :: (authority ++ path) := by
    intro hmem
    refine (h.plain 0x3F ?_).2.2 rfl
    rw [h.bytes_eq]
    exact List.mem_append_right scheme (List.mem_cons_of_mem 0x3A hmem)
  obtain ⟨b, more, hscheme, hb⟩ := h.letter
  have hstar : bs ≠ [0x2A] := by
    intro hbs
    rw [h.bytes_eq, hscheme] at hbs
    cases (List.cons.inj hbs).1
    cases hb
  obtain ⟨htake, hdrop⟩ := takeWhile_free h.authority_free h.rooted
  -- Only scheme, authority and path are left to be read.
  have hread : readWithoutFragment bs = .ok {
      scheme := (textOf scheme).toLower, user, host, path := octets
      rawPath := if escape .path octets = path then [] else path } := by
    have hsplit := splitScheme_append h.schemeOctets h.letter (0x2F :: 0x2F :: (authority ++ path))
    rw [← h.bytes_eq] at hsplit
    rw [readWithoutFragment, any_control_eq_false h.plain]
    simp only [Bool.false_eq_true, if_false, hstar, hsplit, bind, Except.bind, splitQuery_of_notMem hquery,
      List.head?_cons, if_true, readHierarchical, ne_eq, h.named, not_false_eq_true, decide_true,
      Bool.true_or, htake, hdrop, hauthority, withPath, hpath.unescape_eq, Except.map]
  rw [parseBytes, cut_of_not_mem hfragment]
  simp only [hread]

/-- A host is read only behind two slashes. -/
theorem readHierarchical_cases {url u : Url} {rest : Bytes} (h : readHierarchical url rest = .ok u) :
    u.scheme = url.scheme ∧ (u.host = url.host ∨ ∃ after, rest = 0x2F :: 0x2F :: after ∧
      readAuthority (after.takeWhile (· != 0x2F)) = .ok (u.user, u.host) ∧
      Denotes (after.dropWhile (· != 0x2F)) u.path) := by
  have hwith {url' : Url} {spelling : Bytes} (hw : withPath url' spelling = .ok u) :
      Denotes spelling u.path ∧ u.scheme = url'.scheme ∧ u.user = url'.user ∧ u.host = url'.host := by
    unfold withPath at hw
    cases hread : unescape .path spelling with
    | error e =>
        rw [hread] at hw
        cases hw
    | ok octets =>
        rw [hread] at hw
        obtain rfl := Except.ok.inj hw
        exact ⟨denotes_of_unescape hread, rfl, rfl, rfl⟩
  have hhostless {url' : Url} {spelling : Bytes} (hw : withPath url' spelling = .ok u)
      (hscheme : url'.scheme = url.scheme) (hhost : url'.host = url.host) :
      u.scheme = url.scheme ∧ u.host = url.host :=
    ⟨(hwith hw).2.1.trans hscheme, (hwith hw).2.2.2.trans hhost⟩
  unfold readHierarchical at h
  dsimp only at h
  split at h
  -- Two slashes announce an authority, in which the host stands.
  · next after =>
      split at h
      · cases hread : readAuthority (after.takeWhile (· != 0x2F)) with
        | error e =>
            rw [hread] at h
            cases h
        | ok authority =>
            rw [hread] at h
            obtain ⟨hpath, hscheme, huser, hhost⟩ := hwith h
            refine ⟨hscheme, .inr ⟨after, rfl, ?_, hpath⟩⟩
            rw [huser, hhost]
            exact hread
      · exact (hhostless h rfl rfl).imp_right .inl
  · exact (hhostless h rfl rfl).imp_right .inl
  · exact (hhostless h rfl rfl).imp_right .inl

/-- Without a question mark, what is read behind the scheme is a host and a path, or there is
no host. -/
theorem readWithoutFragment_cases {u : Url} (h : readWithoutFragment bs = .ok u) (hquery : 0x3F ∉ bs)
    (hscheme : u.scheme ≠ "") (hhost : u.host ≠ []) :
    ∃ scheme rest, splitScheme bs = .ok (scheme, rest) ∧ u.scheme = (textOf scheme).toLower ∧
      ∃ after, rest = 0x2F :: 0x2F :: after ∧
        readAuthority (after.takeWhile (· != 0x2F)) = .ok (u.user, u.host) ∧
        Denotes (after.dropWhile (· != 0x2F)) u.path := by
  unfold readWithoutFragment at h
  split at h
  · cases h
  · split at h
    · cases Except.ok.inj h
      exact absurd rfl hscheme
    · have hparts : ∃ scheme rest, splitScheme bs = .ok (scheme, rest) := by
        cases hsplit : splitScheme bs with
        | error e =>
            rw [hsplit] at h
            cases h
        | ok parts => exact ⟨parts.1, parts.2, rfl⟩
      obtain ⟨scheme, rest, hsplit⟩ := hparts
      refine ⟨scheme, rest, hsplit, ?_⟩
      -- What is behind the scheme has no query either.
      have hfree : 0x3F ∉ rest := by
        rcases splitScheme_cases hsplit with ⟨-, rfl⟩ | ⟨rfl, -⟩
        · exact hquery
        · intro hmem
          exact hquery (List.mem_append_right scheme (List.mem_cons_of_mem 0x3A hmem))
      -- A host can only come from an authority.
      have hhosted (hread : readHierarchical { scheme := (textOf scheme).toLower } rest = .ok u) :
          u.scheme = (textOf scheme).toLower ∧ ∃ after, rest = 0x2F :: 0x2F :: after ∧
            readAuthority (after.takeWhile (· != 0x2F)) = .ok (u.user, u.host) ∧
            Denotes (after.dropWhile (· != 0x2F)) u.path := by
        obtain ⟨hsame, hcases⟩ := readHierarchical_cases hread
        exact ⟨hsame, hcases.resolve_left hhost⟩
      rw [hsplit] at h
      simp only [bind, Except.bind, splitQuery_of_notMem hfree] at h
      split at h
      · exact hhosted h
      · split at h
        · cases Except.ok.inj h
          exact absurd rfl hhost
        · split at h
          · cases h
          · exact hhosted h

/-- **Every text that is read as a URL with scheme and host is written so**, if there is no
query and no fragment in it. -/
theorem exists_hosted {u : Url} (hu : parseBytes bs = .ok u) (hfragment : 0x23 ∉ bs) (hquery : 0x3F ∉ bs)
    (hscheme : u.scheme ≠ "") (hhost : u.host ≠ []) :
    ∃ scheme authority path, Hosted bs scheme authority path ∧ u.scheme = (textOf scheme).toLower ∧
      readAuthority authority = .ok (u.user, u.host) ∧ Denotes path u.path := by
  have hread : readWithoutFragment bs = .ok u := by
    rw [parseBytes, cut_of_not_mem hfragment] at hu
    dsimp only at hu
    split at hu
    · cases hu
    · next hread => rw [hread, Except.ok.inj hu]
  -- A text with control characters is not read at all.
  have hcontrol : (bs.any fun b => b < 0x20 || b = 0x7F) = false := by
    by_contra hany
    rw [Bool.not_eq_false] at hany
    rw [readWithoutFragment, if_pos hany] at hread
    cases hread
  obtain ⟨scheme, rest, hsplit, hlower, after, rfl, hauthority, hpath⟩ :=
    readWithoutFragment_cases hread hquery hscheme hhost
  have hnamed : (textOf scheme).toLower ≠ "" := hlower ▸ hscheme
  have hscheme : scheme ≠ [] := by
    rintro rfl
    exact hnamed (by decide +kernel)
  obtain ⟨hbs, hoctets, hletter⟩ := (splitScheme_cases hsplit).resolve_left (fun h => hscheme h.1)
  -- What was read puts the parts together again.
  refine ⟨scheme, _, _, ⟨?_, hoctets, hletter, hnamed, ?_, ?_, ?_⟩, hlower, hauthority, hpath⟩
  · rw [List.takeWhile_append_dropWhile]
    exact hbs
  · intro hmem
    have hslash := List.mem_takeWhile_imp hmem
    cases hslash
  · cases hdrop : after.dropWhile (· != 0x2F) with
    | nil => exact .inl rfl
    | cons b more =>
        have hb := List.head?_dropWhile_not (· != 0x2F) after
        rw [hdrop, List.head?_cons] at hb
        obtain rfl : b = 0x2F := by simpa using hb
        exact .inr ⟨more, rfl⟩
  · intro b hb
    refine ⟨?_, ?_, ?_⟩
    · simpa using List.any_eq_false.mp hcontrol b hb
    · rintro rfl
      exact hfragment hb
    · rintro rfl
      exact hquery hb

/-- Nothing is read of an empty authority. -/
theorem authority_ne_nil (h : readAuthority authority = .ok (user, host)) (hhost : host ≠ []) :
    authority ≠ [] := by
  rintro rfl
  obtain ⟨-, rfl⟩ := Prod.mk.inj (Except.ok.inj h)
  exact hhost rfl

/-- The slashes at the end belong to the path. -/
theorem Hosted.dropSlashes {front : Bytes} {k : Nat}
    (h : Hosted (front ++ List.replicate k 0x2F) scheme authority path) (hne : authority ≠ []) :
    ∃ stem, path = stem ++ List.replicate k 0x2F ∧ Hosted front scheme authority stem := by
  have hstem : ∃ stem, front = scheme ++ 0x3A :: 0x2F :: 0x2F :: (authority ++ stem) ∧
      path = stem ++ List.replicate k 0x2F := by
    have heq : front ++ List.replicate k 0x2F = (scheme ++ [0x3A, 0x2F, 0x2F] ++ authority) ++ path := by
      rw [h.bytes_eq]
      simp
    rcases List.append_eq_append_iff.mp heq with ⟨more, hfront, hslashes⟩ | ⟨stem, hfront, hpath⟩
    · -- more than the path would be slashes, but the authority does not end in one
      have hmore : more = [] := by
        by_contra hmore
        obtain ⟨init, last, rfl⟩ := (List.eq_nil_or_concat authority).resolve_left hne
        obtain ⟨more', slash, rfl⟩ := (List.eq_nil_or_concat more).resolve_left hmore
        have hends : scheme ++ [0x3A, 0x2F, 0x2F] ++ init ++ [last] = front ++ more' ++ [slash] := by
          simpa using hfront
        have hlast : last = slash := (List.cons.inj (List.append_inj_right' hends rfl)).1
        have hslash : slash ∈ List.replicate k (0x2F : UInt8) := by
          rw [hslashes]
          simp
        rw [hlast, List.eq_of_mem_replicate hslash] at h
        exact h.authority_free (by simp)
      subst hmore
      refine ⟨[], ?_, by simpa using hslashes.symm⟩
      simpa using hfront.symm
    · exact ⟨stem, by rw [hfront]; simp, hpath⟩
  obtain ⟨stem, rfl, rfl⟩ := hstem
  refine ⟨stem, rfl, rfl, h.schemeOctets, h.letter, h.named, h.authority_free, ?_, ?_⟩
  · cases stem with
    | nil => exact .inl rfl
    | cons b stem =>
        obtain ⟨rest, hrest⟩ := h.rooted.resolve_left (by simp)
        obtain ⟨rfl, -⟩ := List.cons.inj hrest
        exact .inr ⟨stem, rfl⟩
  · intro b hb
    exact h.plain b (List.mem_append_left _ hb)

/-- A path can be made longer. -/
theorem Hosted.extend (h : Hosted bs scheme authority path) {more : Bytes}
    (hmore : ∀ b ∈ 0x2F :: more, IsPlain b) :
    Hosted (bs ++ 0x2F :: more) scheme authority (path ++ 0x2F :: more) where
  bytes_eq := by rw [h.bytes_eq]; simp
  schemeOctets := h.schemeOctets
  letter := h.letter
  named := h.named
  authority_free := h.authority_free
  rooted := by
    rcases h.rooted with rfl | ⟨rest, rfl⟩
    · exact .inr ⟨more, rfl⟩
    · exact .inr ⟨rest ++ 0x2F :: more, rfl⟩
  plain := List.forall_mem_append.mpr ⟨h.plain, hmore⟩

/-- **The slashes at the end of a URL can be replaced by more of a path**: everything else
stays as it is. -/
theorem parse_replaceSlashes {front more : Bytes} {k : Nat} {base : Url}
    (hbase : parseBytes (front ++ List.replicate k 0x2F) = .ok base)
    (hfragment : 0x23 ∉ front) (hquery : 0x3F ∉ front) (hscheme : base.scheme ≠ "") (hhost : base.host ≠ [])
    (hmore : ∀ b ∈ 0x2F :: more, IsPlain b ∧ b ≠ 0x25) :
    ∃ stem raw raw', base.path = stem ++ List.replicate k 0x2F ∧
      parseBytes front = .ok {
        scheme := base.scheme, user := base.user, host := base.host, path := stem, rawPath := raw } ∧
      parseBytes (front ++ 0x2F :: more) = .ok {
        scheme := base.scheme, user := base.user, host := base.host
        path := stem ++ 0x2F :: more, rawPath := raw' } := by
  have hslashes {b : UInt8} (hb : b ≠ 0x2F) (hfront : b ∉ front) : b ∉ front ++ List.replicate k 0x2F := by
    intro hmem
    rcases List.mem_append.mp hmem with hmem | hmem
    · exact hfront hmem
    · exact hb (List.eq_of_mem_replicate hmem)
  obtain ⟨scheme, authority, path, hosted, hlower, hauthority, hpath⟩ :=
    exists_hosted hbase (hslashes (by decide) hfragment) (hslashes (by decide) hquery) hscheme hhost
  -- The slashes at the end belong to the path: an authority comes before them.
  obtain ⟨spelling, rfl, hshort⟩ := hosted.dropSlashes (authority_ne_nil hauthority hhost)
  obtain ⟨stem, hstem, hbasePath⟩ := hpath.of_append_slashes
  have hself : Denotes (0x2F :: more) (0x2F :: more) :=
    denotes_self fun hmem => (hmore _ hmem).2 rfl
  -- Both texts are hosted in the same way, with other paths.
  have hlong := hshort.extend fun b hb => (hmore b hb).1
  have hfront := hshort.parse_eq hauthority hstem
  have hwhole := hlong.parse_eq hauthority (hstem.append hself)
  rw [← hlower] at hfront hwhole
  exact ⟨stem, _, _, hbasePath, hfront, hwhole⟩

end Hosted

end LanguageClient.Url
