import LanguageClient.Uuid
import LanguageClient.Proofs.Text.Case
import LanguageClient.Proofs.Text.Utf8
import Mathlib.Data.Nat.Digits.Lemmas

/-! # What denotes a UUID.

A UUID is a number of 128 bits, and a text denotes it by 32 hexadecimal digits in one of
four notations. `IsNumber` says which number digits denote, `Spells` what the notations
are and `Denotes` what a text denotes; none of them mentions the reader.

The reader takes exactly the texts that spell digits (`parse_eq_ok_iff`), and gives the
UUID with the number they denote (`parse_denotes`). There is one such UUID
(`eq_of_number_eq`), and what is written for it is its canonical text
(`canonical_text`), which is read as the same UUID (`parse_text`). -/

namespace LanguageClient.Uuid

/-! ### Digits -/

/-- The digit `d`, as a capital or a small letter, has the value `n`. -/
def IsDigit (d : UInt8) (n : Nat) : Prop :=
  n < 16 ∧ (Char.ofNat d.toNat).toLower = Nat.digitChar n

instance (d : UInt8) (n : Nat) : Decidable (IsDigit d n) := inferInstanceAs (Decidable (_ ∧ _))

/-- A digit has one value. -/
theorem IsDigit.unique {d : UInt8} {m n : Nat} (h : IsDigit d m) (h' : IsDigit d n) : m = n := by
  have hinj : ∀ m n : Fin 16, Nat.digitChar m = Nat.digitChar n → m = n := by decide +kernel
  exact congrArg Fin.val (hinj ⟨m, h.1⟩ ⟨n, h'.1⟩ (h.2.symm.trans h'.2))

/-- The characters of digits, capitals aside. -/
def isSmallDigit (c : Char) : Bool := c.isDigit || 'a' ≤ c && c ≤ 'f'

theorem hexValue?_eq_some_iff {d : UInt8} {n : Nat} : hexValue? d = some n ↔ IsDigit d n := by
  have hvalue : ∀ m ∈ hexValue? d, IsDigit d m :=
    Utf8.forall_octet (P := fun d => ∀ m ∈ hexValue? d, IsDigit d m) (by decide +kernel) d
  have hnone : hexValue? d = none → isSmallDigit (Char.ofNat d.toNat).toLower = false :=
    Utf8.forall_octet (P := fun d => hexValue? d = none →
      isSmallDigit (Char.ofNat d.toNat).toLower = false) (by decide +kernel) d
  have hsmall : ∀ n : Fin 16, isSmallDigit (Nat.digitChar n) = true := by decide +kernel
  refine ⟨hvalue n, fun h => ?_⟩
  cases hd : hexValue? d with
  | none =>
      have hout := hnone hd
      rw [h.2, hsmall ⟨n, h.1⟩] at hout
      cases hout
  | some m => exact congrArg some ((hvalue m hd).unique h)

/-- Digits, the highest first, denote the number `v`. -/
def IsNumber (ds : Bytes) (v : Nat) : Prop :=
  ∃ ns, List.Forall₂ IsDigit ds ns ∧ v = Nat.ofDigits 16 ns.reverse

/-- Digits denote at most one number. -/
theorem IsNumber.unique {ds : Bytes} {v w : Nat} (h : IsNumber ds v) (h' : IsNumber ds w) : v = w := by
  obtain ⟨ns, hns, rfl⟩ := h
  obtain ⟨ms, hms, rfl⟩ := h'
  have heq : ns = ms := by
    induction hns generalizing ms with
    | nil =>
        cases hms
        rfl
    | cons hd _ ih =>
        cases hms with
        | cons hd' hms => rw [hd.unique hd', ih _ hms]
  rw [heq]

def octetsNumber (os : Bytes) : Nat := Nat.ofDigits 256 (os.map UInt8.toNat).reverse

def number (u : Uuid) : Nat := octetsNumber u.octets

theorem octetsNumber_cons (o : UInt8) (os : Bytes) :
    octetsNumber (o :: os) = octetsNumber os + 256 ^ os.length * o.toNat := by
  simp [octetsNumber, Nat.ofDigits_append]

/-- Octets of a number that has as many of them are found in one way. -/
theorem eq_of_octetsNumber_eq {os os' : Bytes} (hlen : os.length = os'.length)
    (h : octetsNumber os = octetsNumber os') : os = os' := by
  have hsmall : ∀ l : Bytes, ∀ n ∈ (l.map UInt8.toNat).reverse, n < 256 := by
    intro l n hn
    obtain ⟨o, -, rfl⟩ := List.mem_map.mp (List.mem_reverse.mp hn)
    exact o.toNat_lt
  have hdigits := Nat.ofDigits_inj_of_len_eq (by decide) (by simpa using hlen) (hsmall os)
    (hsmall os') h
  exact List.map_injective_iff.mpr (fun _ _ => UInt8.toNat_inj.mp) (List.reverse_injective hdigits)

/-- The number of some octets has no more digits in base 256 than there are octets. -/
theorem octetsNumber_lt (os : Bytes) : octetsNumber os < 256 ^ os.length := by
  have hlt := Nat.ofDigits_lt_base_pow_length (b := 256) (l := (os.map UInt8.toNat).reverse)
    (by decide) (by
      intro n hn
      obtain ⟨o, -, rfl⟩ := List.mem_map.mp (List.mem_reverse.mp hn)
      exact o.toNat_lt)
  simpa [octetsNumber] using hlt

/-- Two digits of a number are one of its octets. -/
theorem pairs?_isNumber {ds os : Bytes} (h : pairs? ds = some os) :
    ds.length = 2 * os.length ∧ IsNumber ds (octetsNumber os) := by
  fun_induction pairs? ds generalizing os with
  | case1 =>
      cases h
      exact ⟨rfl, [], .nil, rfl⟩
  | case2 => cases h
  | case3 d e rest m n os' hrest he hd ih =>
      cases h
      obtain ⟨hlen, ns, hns, hv⟩ := ih hrest
      have hm := hexValue?_eq_some_iff.mp hd
      have hn := hexValue?_eq_some_iff.mp he
      have hoctet : (UInt8.ofNat (m * 16 + n)).toNat = m * 16 + n := by
        rw [UInt8.toNat_ofNat']
        have := hm.1
        have := hn.1
        omega
      have hns' : ns.length = 2 * os'.length := by rw [← hns.length_eq, hlen]
      refine ⟨by simp only [List.length_cons, hlen]; omega, m :: n :: ns, .cons hm (.cons hn hns), ?_⟩
      rw [octetsNumber_cons, hv, hoctet]
      simp only [List.reverse_cons, Nat.ofDigits_append, Nat.ofDigits_singleton, List.length_append,
        List.length_reverse, List.length_singleton, hns', pow_succ, pow_mul]
      ring
  | case4 => cases h

/-- Digits that come in pairs are octets. -/
theorem exists_pairs? {ds : Bytes} {ns : List Nat} {k : Nat} (h : List.Forall₂ IsDigit ds ns)
    (hlen : ds.length = 2 * k) : ∃ os, pairs? ds = some os := by
  induction k generalizing ds ns with
  | zero =>
      rw [List.eq_nil_of_length_eq_zero hlen]
      exact ⟨[], rfl⟩
  | succ k ih =>
      cases h with
      | nil => simp at hlen
      | cons hd h =>
          cases h with
          | nil => simp at hlen; omega
          | cons he h =>
              obtain ⟨os, hos⟩ := ih h (by simp at hlen; omega)
              simp only [pairs?, hexValue?_eq_some_iff.mpr hd, hexValue?_eq_some_iff.mpr he, hos]
              exact ⟨_, rfl⟩

/-! ### Notations -/

/-- Digits in groups of some lengths, with a dash between two groups. -/
inductive Dashed : List Nat → Bytes → Bytes → Prop where
  | last {g : Bytes} {n : Nat} (size : g.length = n) : Dashed [n] g g
  | more {g ds bs : Bytes} {n : Nat} {ns : List Nat} (size : g.length = n) (rest : Dashed ns ds bs) :
      Dashed (n :: ns) (g ++ ds) (g ++ 0x2D :: bs)

/-- A text spells digits in one of four notations. -/
inductive Spells (ds : Bytes) : Bytes → Prop where
  | bare : Spells ds ds
  | dashed {bs : Bytes} (h : Dashed [8, 4, 4, 4, 12] ds bs) : Spells ds bs
  /-- The name of the scheme may be in capitals. -/
  | named {name : List Char} {bs : Bytes} (scheme : name.map Char.toLower = "urn:uuid:".toList)
      (h : Dashed [8, 4, 4, 4, 12] ds bs) : Spells ds (Utf8.encode name ++ bs)
  /-- One octet stands on each side, whatever it is. -/
  | enclosed (left right : UInt8) {bs : Bytes} (h : Dashed [8, 4, 4, 4, 12] ds bs) :
      Spells ds (left :: (bs ++ [right]))

/-- A text denotes the UUID that is the number `v`. -/
def Denotes (bs : Bytes) (v : Nat) : Prop := ∃ ds, ds.length = 32 ∧ Spells ds bs ∧ IsNumber ds v

/-- A text is the canonical one of the UUID that is the number `v`: digits in groups with
dashes between them, and no capitals. -/
def Canonical (v : Nat) (text : String) : Prop :=
  ∃ ds, ds.length = 32 ∧ Dashed [8, 4, 4, 4, 12] ds (utf8 text) ∧ IsNumber ds v ∧
    ∀ d ∈ ds, (Char.ofNat d.toNat).isUpper = false

namespace Dashed

theorem length_digits {ns : List Nat} {ds bs : Bytes} (h : Dashed ns ds bs) : ds.length = ns.sum := by
  induction h with
  | last size => simpa using size
  | more size _ ih => rw [List.length_append, size, ih, List.sum_cons]

theorem length {ns : List Nat} {ds bs : Bytes} (h : Dashed ns ds bs) :
    bs.length + 1 = ns.sum + ns.length := by
  induction h with
  | last size => simp [size]
  | more size _ ih =>
      simp only [List.length_append, List.length_cons, List.sum_cons, size]
      omega

theorem length_eq {ds bs : Bytes} (h : Dashed groups ds bs) : bs.length = 36 ∧ ds.length = 32 :=
  ⟨Nat.succ.inj h.length, h.length_digits⟩

/-- The digits of a dashed form are read whatever stands behind it. -/
theorem undash?_append {ns : List Nat} {ds bs : Bytes} (h : Dashed ns ds bs) (rest : Bytes) :
    undash? ns (bs ++ rest) = some ds := by
  induction h with
  | last size => rw [undash?, List.take_left' size]
  | @more g ds bs n ns size h ih =>
      have hne : ns ≠ [] := by cases h <;> exact List.cons_ne_nil _ _
      rw [undash?.eq_3 _ n ns hne, List.append_assoc, List.cons_append, List.drop_left' size,
        List.take_left' size]
      simp only [ih, Option.map_some]

end Dashed

/-- What is read as a dashed form is one, if there are octets enough for it. -/
theorem exists_dashed {ns : List Nat} {ds bs : Bytes} (h : undash? ns bs = some ds) (hne : ns ≠ [])
    (hlen : ns.sum + ns.length ≤ bs.length + 1) : ∃ front rest, bs = front ++ rest ∧ Dashed ns ds front := by
  fun_induction undash? ns bs generalizing ds with
  | case1 => exact absurd rfl hne
  | case2 n bs =>
      cases h
      refine ⟨bs.take n, bs.drop n, (List.take_append_drop n bs).symm, .last ?_⟩
      simp only [List.sum_cons, List.sum_nil, List.length_singleton] at hlen
      rw [List.length_take]
      omega
  | case3 n ns bs hns rest hdrop ih =>
      obtain ⟨ds, hds, rfl⟩ := Option.map_eq_some_iff.mp h
      have hrest : rest.length + 1 = bs.length - n := by
        rw [← List.length_drop, hdrop, List.length_cons]
      simp only [List.sum_cons, List.length_cons] at hlen
      obtain ⟨front, rest, rfl, hfront⟩ := ih hds hns (by omega)
      refine ⟨bs.take n ++ 0x2D :: front, rest, ?_, .more ?_ hfront⟩
      · rw [List.append_assoc, List.cons_append, ← hdrop, List.take_append_drop]
      · rw [List.length_take]
        omega
  | case4 => cases h

/-- What is read as a dashed form is one, and its digits come in pairs. -/
theorem ofDashed_eq_ok {bs : Bytes} {u : Uuid} (h : ofDashed bs = .ok u) :
    ∃ ds, undash? groups bs = some ds ∧ pairs? ds = some u.octets := by
  unfold ofDashed at h
  split at h
  · next octets hoctets =>
      cases h
      exact Option.bind_eq_some_iff.mp hoctets
  · cases h

theorem Dashed.ofDashed_append {ds bs : Bytes} {u : Uuid} (h : Dashed groups ds bs)
    (hu : pairs? ds = some u.octets) (rest : Bytes) : ofDashed (bs ++ rest) = .ok u := by
  rw [ofDashed, h.undash?_append rest, Option.bind_some, hu]

/-- A dashed form is read off the front of octets that are enough for one. -/
theorem exists_dashed_of_ofDashed {bs : Bytes} {u : Uuid} (h : ofDashed bs = .ok u)
    (hlen : 36 ≤ bs.length) :
    ∃ ds front rest, bs = front ++ rest ∧ Dashed groups ds front ∧ pairs? ds = some u.octets := by
  obtain ⟨ds, hds, hu⟩ := ofDashed_eq_ok h
  obtain ⟨front, rest, rfl, hfront⟩ := exists_dashed hds (by decide) (Nat.succ_le_succ hlen)
  exact ⟨ds, front, rest, rfl, hfront, hu⟩

/-! ### The name of the scheme -/

theorem plain_scheme : Text.Plain scheme.toList := by decide

/-- Whatever differs from the name of the scheme in capitals only is ASCII. -/
theorem ascii_of_scheme {name : List Char} (h : name.map Char.toLower = scheme.toList) :
    ∀ c ∈ name, c.toNat < 0x80 := by
  intro c hc
  have hlower : c.toLower ∈ scheme.toList := h ▸ List.mem_map_of_mem hc
  have hascii : (scheme.toList.all fun d => d.toNat < 0x80) = true := by decide
  unfold Char.toLower at hlower
  split at hlower
  · next hupper =>
      have hz : c.toNat ≤ 'Z'.toNat := hupper.2
      exact Nat.lt_of_le_of_lt hz (by decide)
  · exact of_decide_eq_true (List.all_eq_true.mp hascii c hlower)

/-- Octets that are read as the name of the scheme are the octets of that name. -/
theorem encode_of_scheme {bs : Bytes} (h : (Utf8.decode bs).map Char.toLower = scheme.toList) :
    Utf8.encode (Utf8.decode bs) = bs := by
  apply Utf8.encode_decode
  rw [Utf8.isValid, List.all_eq_true]
  intro s hs
  cases s with
  | char c => rfl
  | stray b =>
      have hmem : Utf8.replacement.toLower ∈ scheme.toList := by
        rw [← h]
        exact List.mem_map_of_mem (List.mem_map_of_mem hs)
      exact absurd hmem (by decide)

/-! ### Reading -/

/-- **Exactly the texts that spell digits are read.** -/
theorem parse_eq_ok_iff {bs : Bytes} {u : Uuid} :
    parse bs = .ok u ↔ ∃ ds, ds.length = 32 ∧ Spells ds bs ∧ pairs? ds = some u.octets := by
  constructor
  · intro h
    unfold parse at h
    split at h
    -- 36 octets: the dashed form alone.
    · next hlen =>
        obtain ⟨ds, front, rest, rfl, hd, hu⟩ := exists_dashed_of_ofDashed h (by omega)
        rw [List.length_append, hd.length_eq.1] at hlen
        rw [List.eq_nil_of_length_eq_zero (by omega : rest.length = 0), List.append_nil]
        exact ⟨ds, hd.length_eq.2, .dashed hd, hu⟩
    · next hlen =>
        split at h
        -- 45 octets: the name of the scheme, then the dashed form.
        · next hname =>
            have hscheme := (Text.sameName_iff plain_scheme _).mp hname
            obtain ⟨ds, front, rest, hdrop, hd, hu⟩ :=
              exists_dashed_of_ofDashed h (by rw [List.length_drop]; omega)
            have hrest := congrArg List.length hdrop
            rw [List.length_drop, List.length_append, hd.length_eq.1] at hrest
            rw [List.eq_nil_of_length_eq_zero (by omega : rest.length = 0), List.append_nil] at hdrop
            rw [← List.take_append_drop 9 bs, hdrop, ← encode_of_scheme hscheme]
            exact ⟨ds, hd.length_eq.2, .named hscheme hd, hu⟩
        · cases h
    · next hlen =>
        -- 38 octets: anything on both sides of the dashed form.
        obtain ⟨left, tail, rfl⟩ := List.exists_cons_of_length_eq_add_one hlen
        obtain ⟨ds, front, rest, hdrop, hd, hu⟩ :=
          exists_dashed_of_ofDashed h (by rw [List.length_drop]; omega)
        obtain rfl : tail = front ++ rest := hdrop
        simp only [List.length_cons, List.length_append, hd.length_eq.1] at hlen
        obtain ⟨right, rfl⟩ := List.length_eq_one_iff.mp (by omega : rest.length = 1)
        exact ⟨ds, hd.length_eq.2, .enclosed left right hd, hu⟩
    · next hlen =>
        -- 32 octets: digits only.
        split at h
        · next octets hu =>
            cases h
            exact ⟨bs, hlen, .bare, hu⟩
        · cases h
    · cases h
  · rintro ⟨ds, hlen, hs, hu⟩
    cases hs with
    | bare => simp only [parse, hlen, hu]
    | dashed hd =>
        have hread := hd.ofDashed_append hu []
        rw [List.append_nil] at hread
        simp only [parse, hd.length_eq.1, hread]
    | @named name bs hscheme hd =>
        have hread := hd.ofDashed_append hu []
        rw [List.append_nil] at hread
        have hname : (Utf8.encode name).length = 9 := by
          rw [Utf8.length_encode_ascii (ascii_of_scheme hscheme), ← List.length_map (f := Char.toLower),
            hscheme]
          rfl
        have hsame := (Text.sameName_iff plain_scheme _).mpr hscheme
        simp only [parse, List.length_append, hname, hd.length_eq.1, List.take_left' hname,
          List.drop_left' hname, Utf8.decode_encode, hsame, if_true, hread]
    | enclosed left right hd =>
        simp only [parse, List.length_cons, List.length_append, List.length_nil, hd.length_eq.1,
          List.drop_succ_cons, List.drop_zero, hd.ofDashed_append hu]

/-- A UUID that was read has sixteen octets. -/
theorem length_octets {bs : Bytes} {u : Uuid} (h : parse bs = .ok u) : u.octets.length = 16 := by
  obtain ⟨ds, hlen, -, hu⟩ := parse_eq_ok_iff.mp h
  have := (pairs?_isNumber hu).1
  omega

/-- **A text denotes the number of the UUID that is read from it**, and nothing else. -/
theorem denotes_iff {bs : Bytes} {v : Nat} : Denotes bs v ↔ ∃ u, parse bs = .ok u ∧ u.number = v := by
  constructor
  · rintro ⟨ds, hlen, hs, hv⟩
    obtain ⟨ns, hns, -⟩ := id hv
    obtain ⟨os, hos⟩ := exists_pairs? (k := 16) hns hlen
    exact ⟨⟨os⟩, parse_eq_ok_iff.mpr ⟨ds, hlen, hs, hos⟩, (pairs?_isNumber hos).2.unique hv⟩
  · rintro ⟨u, hu, rfl⟩
    obtain ⟨ds, hlen, hs, hos⟩ := parse_eq_ok_iff.mp hu
    exact ⟨ds, hlen, hs, (pairs?_isNumber hos).2⟩

/-- There is one UUID with a number. -/
theorem eq_of_number_eq {u u' : Uuid} (hlen : u.octets.length = u'.octets.length)
    (h : u.number = u'.number) : u = u' := by
  cases u
  cases u'
  exact congrArg Uuid.mk (eq_of_octetsNumber_eq hlen h)

/-! ### Writing -/

theorem pairs?_append {ds es os ps : Bytes} (h : pairs? ds = some os) (h' : pairs? es = some ps) :
    pairs? (ds ++ es) = some (os ++ ps) := by
  fun_induction pairs? ds generalizing os with
  | case1 =>
      cases h
      exact h'
  | case2 => cases h
  | case3 d e rest m n os' hrest he hd ih =>
      cases h
      simp only [List.cons_append, pairs?, hd, he, ih hrest]
  | case4 => cases h

/-- Two digits are written for an octet, both ASCII and no capitals, which are read as this octet.
What is said of the digits is said with `List.all`, which is evaluated along the list: a quantifier
over characters would be decided by trying all characters. -/
theorem hex_octet (o : UInt8) :
    (Text.hex 2 o.toNat).length = 2 ∧ (Text.hex 2 o.toNat).all (fun c => c.toNat < 0x80) = true ∧
      pairs? (Utf8.encode (Text.hex 2 o.toNat)) = some [o] ∧
      (Utf8.encode (Text.hex 2 o.toNat)).all (fun d => !(Char.ofNat d.toNat).isUpper) = true :=
  Utf8.forall_octet (P := fun o => (Text.hex 2 o.toNat).length = 2 ∧
    (Text.hex 2 o.toNat).all (fun c => c.toNat < 0x80) = true ∧
    pairs? (Utf8.encode (Text.hex 2 o.toNat)) = some [o] ∧
    (Utf8.encode (Text.hex 2 o.toNat)).all (fun d => !(Char.ofNat d.toNat).isUpper) = true)
    (by decide +kernel) o

theorem digits_cons (o : UInt8) (os : Bytes) : digits (o :: os) = Text.hex 2 o.toNat ++ digits os := rfl

theorem length_digits (os : Bytes) : (digits os).length = 2 * os.length := by
  induction os with
  | nil => rfl
  | cons o os ih =>
      rw [digits_cons, List.length_append, (hex_octet o).1, ih, List.length_cons]
      omega

theorem ascii_of_mem_digits {os : Bytes} {c : Char} (h : c ∈ digits os) : c.toNat < 0x80 := by
  obtain ⟨o, -, hc⟩ := List.mem_flatMap.mp h
  exact of_decide_eq_true (List.all_eq_true.mp (hex_octet o).2.1 c hc)

theorem isUpper_of_mem_digits {os : Bytes} {d : UInt8} (h : d ∈ Utf8.encode (digits os)) :
    (Char.ofNat d.toNat).isUpper = false := by
  induction os with
  | nil => cases h
  | cons o os ih =>
      rw [digits_cons, Utf8.encode_append] at h
      rcases List.mem_append.mp h with h | h
      · have hsmall := List.all_eq_true.mp (hex_octet o).2.2.2 d h
        rwa [Bool.not_eq_true'] at hsmall
      · exact ih h

/-- The digits that are written for octets are read as these octets. -/
theorem pairs?_digits (os : Bytes) : pairs? (Utf8.encode (digits os)) = some os := by
  induction os with
  | nil => rfl
  | cons o os ih =>
      rw [digits_cons, Utf8.encode_append]
      exact pairs?_append (hex_octet o).2.2.1 ih

theorem length_dashed {ns : List Nat} {cs : List Char} (hne : ns ≠ []) (hlen : cs.length = ns.sum) :
    (dashed ns cs).length + 1 = ns.sum + ns.length := by
  fun_induction dashed ns cs with
  | case1 => exact absurd rfl hne
  | case2 n cs => simpa using Nat.le_of_eq hlen.symm
  | case3 n ns cs hns ih =>
      rw [List.sum_cons] at hlen ⊢
      have hrest := ih hns (by rw [List.length_drop]; omega)
      simp only [List.length_append, List.length_take, List.length_cons]
      omega

/-- What is written with dashes is a dashed form. -/
theorem dashed_encode {ns : List Nat} {cs : List Char} (hne : ns ≠ []) (hlen : cs.length = ns.sum)
    (hascii : ∀ c ∈ cs, c.toNat < 0x80) : Dashed ns (Utf8.encode cs) (Utf8.encode (dashed ns cs)) := by
  fun_induction dashed ns cs with
  | case1 => exact absurd rfl hne
  | case2 n cs =>
      have hall : cs.length = n := by simpa using hlen
      rw [List.take_of_length_le (Nat.le_of_eq hall)]
      exact .last (by rw [Utf8.length_encode_ascii hascii, hall])
  | case3 n ns cs hns ih =>
      rw [List.sum_cons] at hlen
      have hgroup : (Utf8.encode (cs.take n)).length = n := by
        rw [Utf8.length_encode_ascii fun c hc => hascii c (List.mem_of_mem_take hc), List.length_take]
        omega
      have hrest := ih hns (by rw [List.length_drop]; omega)
        fun c hc => hascii c (List.mem_of_mem_drop hc)
      have hdash : Utf8.encode ('-' :: dashed ns (cs.drop n)) =
          0x2D :: Utf8.encode (dashed ns (cs.drop n)) := rfl
      rw [Utf8.encode_append, hdash]
      have hall := Dashed.more hgroup hrest
      rwa [← Utf8.encode_append, List.take_append_drop] at hall

/-- The text of a UUID is the dashed form of its digits. -/
theorem dashed_text {u : Uuid} (h : u.octets.length = 16) :
    Dashed groups (Utf8.encode (digits u.octets)) (utf8 u.text) := by
  rw [utf8, text, String.toList_ofList]
  refine dashed_encode (by decide) ?_ fun c hc => ascii_of_mem_digits hc
  rw [length_digits, h]
  rfl

/-- The text of a UUID has 36 characters. -/
theorem length_text {u : Uuid} (h : u.octets.length = 16) : u.text.length = 36 := by
  have hdigits : (digits u.octets).length = groups.sum := by
    rw [length_digits, h]
    rfl
  rw [text, String.length_ofList]
  exact Nat.succ.inj (length_dashed (by decide) hdigits)

/-- **The text of a UUID is its canonical one.** -/
theorem canonical_text {u : Uuid} (h : u.octets.length = 16) : Canonical u.number u.text :=
  ⟨_, (dashed_text h).length_eq.2, dashed_text h, (pairs?_isNumber (pairs?_digits _)).2,
    fun _ hd => isUpper_of_mem_digits hd⟩

/-- **The text of a UUID is read as this UUID.** -/
theorem parse_text {u : Uuid} (h : u.octets.length = 16) : parse (utf8 u.text) = .ok u :=
  parse_eq_ok_iff.mpr ⟨_, (dashed_text h).length_eq.2, .dashed (dashed_text h), pairs?_digits _⟩

end LanguageClient.Uuid
