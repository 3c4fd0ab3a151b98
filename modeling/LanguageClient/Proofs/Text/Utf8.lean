import LanguageClient.Text.Utf8

/-! # Decoding undoes encoding.

`first` is one round of the decoder: it takes a symbol off an octet string that
is not empty. The octets of a character, in front of any others, give that
character (`symbols_encodeChar_append`), so that a text is read back from its
octets (`symbols_encode`). Conversely no octet is lost in decoding
(`flatMap_bytes_symbols`). -/

namespace LanguageClient.Utf8

/-- What holds of every number below 256 holds of every octet. -/
theorem forall_octet {P : UInt8 → Prop} (h : ∀ n : Fin 256, P (UInt8.ofNat n)) (b : UInt8) : P b := by
  have hb := h ⟨b.toNat, b.toNat_lt⟩
  rwa [UInt8.ofNat_toNat] at hb

/-! ### One symbol -/

/-- The first symbol of the octets `b0 :: r0`, and the octets behind it. -/
def first (b0 : UInt8) (r0 : Bytes) : Symbol × Bytes :=
  if b0 < 0x80 then (.char (Char.ofNat b0.toNat), r0)
  else
    match r0 with
    | [] => (.stray b0, [])
    | b1 :: r1 =>
      match two? b0 b1 with
      | some c => (.char c, r1)
      | none =>
        match r1 with
        | [] => (.stray b0, [b1])
        | b2 :: r2 =>
          match three? b0 b1 b2 with
          | some c => (.char c, r2)
          | none =>
            match r2 with
            | [] => (.stray b0, [b1, b2])
            | b3 :: r3 =>
              match four? b0 b1 b2 b3 with
              | some c => (.char c, r3)
              | none => (.stray b0, b1 :: b2 :: b3 :: r3)

/-- The decoder goes on with one symbol after the other. -/
theorem symbolsFrom_cons (found : List Symbol) (b0 : UInt8) (r0 : Bytes) :
    symbolsFrom found (b0 :: r0) = symbolsFrom ((first b0 r0).1 :: found) (first b0 r0).2 := by
  unfold first
  rw [symbolsFrom.eq_def]
  -- An octet of one to four; the first form that fits is taken.
  by_cases hascii : b0 < 0x80
  · simp only [hascii, if_true]
  · simp only [hascii, if_false]
    cases r0 with
    | nil => rfl
    | cons b1 r1 =>
        cases htwo : two? b0 b1 with
        | some c => simp only [htwo]
        | none =>
            cases r1 with
            | nil => simp only [htwo]
            | cons b2 r2 =>
                cases hthree : three? b0 b1 b2 with
                | some c => simp only [htwo, hthree]
                | none =>
                    cases r2 with
                    | nil => simp only [htwo, hthree]
                    | cons b3 r3 =>
                        cases hfour : four? b0 b1 b2 b3 with
                        | some c => simp only [htwo, hthree, hfour]
                        | none => simp only [htwo, hthree, hfour]

theorem length_first (b0 : UInt8) (r0 : Bytes) : (first b0 r0).2.length ≤ r0.length := by
  unfold first
  repeat' split
  all_goals simp only [List.length_cons, Nat.le_refl]
  all_goals omega

/-- What was found before only stands in front. -/
theorem symbolsFrom_eq (found : List Symbol) (bs : Bytes) :
    symbolsFrom found bs = found.reverse ++ symbols bs := by
  -- On the length of the octets, since a symbol may take several of them.
  induction hn : bs.length using Nat.strongRecOn generalizing found bs with
  | ind n ih =>
      cases bs with
      | nil => simp [symbols, symbolsFrom]
      | cons b0 r0 =>
          have hlt : (first b0 r0).2.length < n := by
            rw [← hn]
            exact Nat.lt_succ_of_le (length_first b0 r0)
          rw [symbols, symbolsFrom_cons, symbolsFrom_cons, ih _ hlt _ _ rfl, ih _ hlt [_] _ rfl]
          simp

theorem symbols_nil : symbols [] = [] := rfl

theorem symbols_cons (b0 : UInt8) (r0 : Bytes) :
    symbols (b0 :: r0) = (first b0 r0).1 :: symbols (first b0 r0).2 := by
  rw [symbols, symbolsFrom_cons, symbolsFrom_eq]
  rfl

/-! ### Sequences

What the octets of a character denote, given their values. -/

theorem isContinuation_iff {b : UInt8} :
    isContinuation b = true ↔ 0x80 ≤ b.toNat ∧ b.toNat ≤ 0xBF := by
  simp only [isContinuation, Bool.and_eq_true, decide_eq_true_eq, UInt8.le_iff_toNat_le,
    UInt8.reduceToNat]

theorem two?_eq {b0 b1 : UInt8} {v : Nat} (h0 : b0.toNat = v / 64 + 0xC0)
    (h1 : b1.toNat = v % 64 + 0x80) (hlow : 0x80 ≤ v) (hhigh : v < 0x800) :
    two? b0 b1 = some (Char.ofNat v) := by
  have hv : (b0.toNat - 0xC0) * 64 + payload b1 = v := by
    unfold payload
    omega
  unfold two?
  rw [hv, if_pos]
  simp only [Bool.and_eq_true, decide_eq_true_eq, UInt8.le_iff_toNat_le, UInt8.reduceToNat,
    isContinuation_iff]
  omega

theorem two?_eq_none {b0 b1 : UInt8} (h : 0xE0 ≤ b0.toNat) : two? b0 b1 = none := by
  unfold two?
  rw [if_neg]
  simp only [Bool.and_eq_true, decide_eq_true_eq, UInt8.le_iff_toNat_le, UInt8.reduceToNat]
  omega

/-- A sequence of three octets. Surrogates are no characters. -/
theorem three?_eq {b0 b1 b2 : UInt8} {v : Nat} (h0 : b0.toNat = v / 4096 + 0xE0)
    (h1 : b1.toNat = v / 64 % 64 + 0x80) (h2 : b2.toNat = v % 64 + 0x80) (hlow : 0x800 ≤ v)
    (hhigh : v < 0x10000) (hgap : v < 0xD800 ∨ 0xDFFF < v) :
    three? b0 b1 b2 = some (Char.ofNat v) := by
  have hv : (b0.toNat - 0xE0) * 4096 + payload b1 * 64 + payload b2 = v := by
    unfold payload
    omega
  have hfirst : (if b0 = 0xE0 then 0xA0 else 0x80 : UInt8).toNat ≤ b1.toNat := by
    simp only [apply_ite UInt8.toNat, ← UInt8.toNat_inj, UInt8.reduceToNat]
    split <;> omega
  have hlast : b1.toNat ≤ (if b0 = 0xED then 0x9F else 0xBF : UInt8).toNat := by
    simp only [apply_ite UInt8.toNat, ← UInt8.toNat_inj, UInt8.reduceToNat]
    split <;> omega
  unfold three?
  rw [hv, if_pos]
  simp only [Bool.and_eq_true, decide_eq_true_eq, UInt8.le_iff_toNat_le, UInt8.reduceToNat,
    isContinuation_iff]
  exact ⟨⟨⟨by omega, hfirst⟩, hlast⟩, by omega⟩

theorem three?_eq_none {b0 b1 b2 : UInt8} (h : 0xF0 ≤ b0.toNat) : three? b0 b1 b2 = none := by
  unfold three?
  rw [if_neg]
  simp only [Bool.and_eq_true, decide_eq_true_eq, UInt8.le_iff_toNat_le, UInt8.reduceToNat]
  omega

theorem four?_eq {b0 b1 b2 b3 : UInt8} {v : Nat} (h0 : b0.toNat = v / 262144 + 0xF0)
    (h1 : b1.toNat = v / 4096 % 64 + 0x80) (h2 : b2.toNat = v / 64 % 64 + 0x80)
    (h3 : b3.toNat = v % 64 + 0x80) (hlow : 0x10000 ≤ v) (hhigh : v < 0x110000) :
    four? b0 b1 b2 b3 = some (Char.ofNat v) := by
  have hv : (b0.toNat - 0xF0) * 262144 + payload b1 * 4096 + payload b2 * 64 + payload b3 = v := by
    unfold payload
    omega
  have hfirst : (if b0 = 0xF0 then 0x90 else 0x80 : UInt8).toNat ≤ b1.toNat := by
    simp only [apply_ite UInt8.toNat, ← UInt8.toNat_inj, UInt8.reduceToNat]
    split <;> omega
  have hlast : b1.toNat ≤ (if b0 = 0xF4 then 0x8F else 0xBF : UInt8).toNat := by
    simp only [apply_ite UInt8.toNat, ← UInt8.toNat_inj, UInt8.reduceToNat]
    split <;> omega
  unfold four?
  rw [hv, if_pos]
  simp only [Bool.and_eq_true, decide_eq_true_eq, UInt8.le_iff_toNat_le, UInt8.reduceToNat,
    isContinuation_iff]
  exact ⟨⟨⟨⟨by omega, hfirst⟩, hlast⟩, by omega⟩, by omega⟩

/-! ### Texts -/

/-- An octet that begins a sequence is not a character of its own. -/
theorem not_ascii {b : UInt8} (h : 0xC0 ≤ b.toNat) : ¬ b < 0x80 := by
  simp only [UInt8.lt_iff_toNat_lt, UInt8.reduceToNat]
  omega

theorem first_ascii {b : UInt8} (h : b.toNat < 0x80) (bs : Bytes) :
    first b bs = (.char (Char.ofNat b.toNat), bs) := by
  have hlt : b < 0x80 := by
    simp only [UInt8.lt_iff_toNat_lt, UInt8.reduceToNat]
    exact h
  unfold first
  rw [if_pos hlt]

theorem first_of_two? {b0 b1 : UInt8} {c : Char} (hb : ¬ b0 < 0x80) (hc : two? b0 b1 = some c)
    (bs : Bytes) : first b0 (b1 :: bs) = (.char c, bs) := by
  simp only [first, hb, if_false, hc]

theorem first_of_three? {b0 b1 b2 : UInt8} {c : Char} (hb : ¬ b0 < 0x80) (htwo : two? b0 b1 = none)
    (hc : three? b0 b1 b2 = some c) (bs : Bytes) : first b0 (b1 :: b2 :: bs) = (.char c, bs) := by
  simp only [first, hb, if_false, htwo, hc]

theorem first_of_four? {b0 b1 b2 b3 : UInt8} {c : Char} (hb : ¬ b0 < 0x80) (htwo : two? b0 b1 = none)
    (hthree : three? b0 b1 b2 = none) (hc : four? b0 b1 b2 b3 = some c) (bs : Bytes) :
    first b0 (b1 :: b2 :: b3 :: bs) = (.char c, bs) := by
  simp only [first, hb, if_false, htwo, hthree, hc]

/-- A character is the first symbol of its octets, whatever follows them. -/
theorem first_encodeChar (c : Char) (bs : Bytes) :
    ∃ b0 r0, encodeChar c = b0 :: r0 ∧ first b0 (r0 ++ bs) = (.char c, bs) := by
  have hc : Char.ofNat c.val.toNat = c := Char.ofNat_toNat c
  have hvalid : c.val.toNat < 0xD800 ∨ 0xDFFF < c.val.toNat ∧ c.val.toNat < 0x110000 := c.valid
  unfold encodeChar String.utf8EncodeChar
  generalize c.val.toNat = v at hc hvalid
  subst hc
  simp only
  -- One case for each number of octets.
  split
  · have h0 := UInt8.toNat_ofNat_of_lt' (show v < 256 by omega)
    refine ⟨_, _, rfl, ?_⟩
    rw [first_ascii (by omega), h0]
    rfl
  · split
    · have h0 := UInt8.toNat_ofNat_of_lt' (show v / 64 % 32 + 0xC0 < 256 by omega)
      have h1 := UInt8.toNat_ofNat_of_lt' (show v % 64 + 0x80 < 256 by omega)
      refine ⟨_, _, rfl, first_of_two? (not_ascii (by omega)) ?_ bs⟩
      exact two?_eq (by omega) h1 (by omega) (by omega)
    · split
      · have h0 := UInt8.toNat_ofNat_of_lt' (show v / 4096 % 16 + 0xE0 < 256 by omega)
        have h1 := UInt8.toNat_ofNat_of_lt' (show v / 64 % 64 + 0x80 < 256 by omega)
        have h2 := UInt8.toNat_ofNat_of_lt' (show v % 64 + 0x80 < 256 by omega)
        refine ⟨_, _, rfl, first_of_three? (not_ascii (by omega)) (two?_eq_none (by omega)) ?_ bs⟩
        exact three?_eq (by omega) h1 h2 (by omega) (by omega) (by omega)
      · have h0 := UInt8.toNat_ofNat_of_lt' (show v / 262144 % 8 + 0xF0 < 256 by omega)
        have h1 := UInt8.toNat_ofNat_of_lt' (show v / 4096 % 64 + 0x80 < 256 by omega)
        have h2 := UInt8.toNat_ofNat_of_lt' (show v / 64 % 64 + 0x80 < 256 by omega)
        have h3 := UInt8.toNat_ofNat_of_lt' (show v % 64 + 0x80 < 256 by omega)
        refine ⟨_, _, rfl, first_of_four? (not_ascii (by omega)) (two?_eq_none (by omega))
          (three?_eq_none (by omega)) ?_ bs⟩
        exact four?_eq (by omega) h1 h2 h3 (by omega) (by omega)

/-- An encoded character is read back, whatever follows. -/
theorem symbols_encodeChar_append (c : Char) (bs : Bytes) :
    symbols (encodeChar c ++ bs) = .char c :: symbols bs := by
  obtain ⟨b0, r0, he, hf⟩ := first_encodeChar c bs
  rw [he, List.cons_append, symbols_cons, hf]

/-- **A text is read back from its octets**, whatever follows them. -/
theorem symbols_encode_append (cs : List Char) (bs : Bytes) :
    symbols (encode cs ++ bs) = cs.map .char ++ symbols bs := by
  induction cs with
  | nil => rfl
  | cons c cs ih =>
      rw [encode, List.flatMap_cons, List.append_assoc, symbols_encodeChar_append]
      exact congrArg (Symbol.char c :: ·) ih

theorem symbols_encode (cs : List Char) : symbols (encode cs) = cs.map .char := by
  have h := symbols_encode_append cs []
  rwa [List.append_nil, symbols_nil, List.append_nil] at h

/-! ### Octets below 0x80 -/

/-- An octet of ASCII occurs in a character only if it is that character. -/
theorem toNat_eq_of_mem_encodeChar {c : Char} {b : UInt8} (h : b ∈ encodeChar c)
    (hb : b.toNat < 0x80) : b.toNat = c.toNat := by
  -- Every octet of a longer sequence is made by adding at least 0x80.
  have high : ∀ n, 0x80 ≤ n → n < 256 → b ≠ UInt8.ofNat n := by
    rintro n hn hlt rfl
    rw [UInt8.toNat_ofNat_of_lt' hlt] at hb
    omega
  unfold encodeChar String.utf8EncodeChar at h
  simp only at h
  split at h
  · rw [List.mem_singleton.mp h]
    exact UInt8.toNat_ofNat_of_lt' (show c.val.toNat < 256 by omega)
  · exfalso
    split at h
    · simp only [List.mem_cons, List.not_mem_nil, or_false] at h
      rcases h with h | h <;> exact high _ (by omega) (by omega) h
    · split at h
      · simp only [List.mem_cons, List.not_mem_nil, or_false] at h
        rcases h with h | h | h <;> exact high _ (by omega) (by omega) h
      · simp only [List.mem_cons, List.not_mem_nil, or_false] at h
        rcases h with h | h | h | h <;> exact high _ (by omega) (by omega) h

/-- The octets behind the first one of a sequence are not ASCII. -/
theorem two?_high {b0 b1 : UInt8} {c : Char} (h : two? b0 b1 = some c) : 0x80 ≤ b1.toNat := by
  simp only [two?, Option.ite_none_right_eq_some, Bool.and_eq_true, isContinuation_iff] at h
  exact h.1.2.1

theorem three?_high {b0 b1 b2 : UInt8} {c : Char} (h : three? b0 b1 b2 = some c) :
    0x80 ≤ b1.toNat ∧ 0x80 ≤ b2.toNat := by
  simp only [three?, Option.ite_none_right_eq_some, Bool.and_eq_true, decide_eq_true_eq,
    isContinuation_iff, UInt8.le_iff_toNat_le, apply_ite UInt8.toNat, UInt8.reduceToNat] at h
  obtain ⟨⟨⟨⟨_, hlow⟩, _⟩, hlast, _⟩, _⟩ := h
  refine ⟨?_, hlast⟩
  split at hlow <;> omega

theorem four?_high {b0 b1 b2 b3 : UInt8} {c : Char} (h : four? b0 b1 b2 b3 = some c) :
    0x80 ≤ b1.toNat ∧ 0x80 ≤ b2.toNat ∧ 0x80 ≤ b3.toNat := by
  simp only [four?, Option.ite_none_right_eq_some, Bool.and_eq_true, decide_eq_true_eq,
    isContinuation_iff, UInt8.le_iff_toNat_le, apply_ite UInt8.toNat, UInt8.reduceToNat] at h
  obtain ⟨⟨⟨⟨⟨_, hlow⟩, _⟩, hthird, _⟩, hlast, _⟩, _⟩ := h
  refine ⟨?_, hthird, hlast⟩
  split at hlow <;> omega

/-- An octet of ASCII is the first symbol, or stands behind it. -/
theorem first_of_mem_ascii {b b0 : UInt8} {r0 : Bytes} (h : b ∈ b0 :: r0) (hb : b.toNat < 0x80) :
    (first b0 r0).1 = .char (Char.ofNat b.toNat) ∨ b ∈ (first b0 r0).2 := by
  -- Whatever a longer symbol takes in is high, so an ASCII octet is none of it.
  have hne : ∀ {b' : UInt8}, 0x80 ≤ b'.toNat → b ≠ b' := by
    rintro b' hb' rfl
    omega
  by_cases hascii : b0.toNat < 0x80
  · rw [first_ascii hascii]
    rcases List.mem_cons.mp h with rfl | h
    · exact Or.inl rfl
    · exact Or.inr h
  · have hr0 : b ∈ r0 := (List.mem_cons.mp h).resolve_left (hne (by omega))
    have hlt : ¬ b0 < 0x80 := by simpa [UInt8.lt_iff_toNat_lt] using hascii
    refine Or.inr ?_
    unfold first
    rw [if_neg hlt]
    split
    · exact hr0
    · split
      · next hc =>
          exact (List.mem_cons.mp hr0).resolve_left (hne (two?_high hc))
      · split
        · exact hr0
        · split
          · next hc =>
              have hr1 := (List.mem_cons.mp hr0).resolve_left (hne (three?_high hc).1)
              exact (List.mem_cons.mp hr1).resolve_left (hne (three?_high hc).2)
          · split
            · exact hr0
            · split
              · next hc =>
                  obtain ⟨h1, h2, h3⟩ := four?_high hc
                  have hr1 := (List.mem_cons.mp hr0).resolve_left (hne h1)
                  have hr2 := (List.mem_cons.mp hr1).resolve_left (hne h2)
                  exact (List.mem_cons.mp hr2).resolve_left (hne h3)
              · exact hr0

/-- An octet of ASCII is decoded as a character, whatever stands around it. -/
theorem mem_decode_of_ascii {b : UInt8} {bs : Bytes} (h : b ∈ bs) (hb : b.toNat < 0x80) :
    Char.ofNat b.toNat ∈ decode bs := by
  induction hn : bs.length using Nat.strongRecOn generalizing bs with
  | ind n ih =>
      cases bs with
      | nil => cases h
      | cons b0 r0 =>
          rw [decode, symbols_cons, List.map_cons]
          rcases first_of_mem_ascii h hb with he | hmem
          · rw [he]
            exact List.mem_cons_self
          · have hlt : (first b0 r0).2.length < n := by
              rw [← hn]
              exact Nat.lt_succ_of_le (length_first b0 r0)
            exact List.mem_cons_of_mem _ (ih _ hlt hmem rfl)

theorem encodeChar_ascii {b : UInt8} (h : b.toNat < 0x80) : encodeChar (Char.ofNat b.toNat) = [b] := by
  have hall : ∀ n : Fin 0x80, encodeChar (Char.ofNat n) = [UInt8.ofNat n] := by decide
  have hb := hall ⟨b.toNat, h⟩
  rwa [UInt8.ofNat_toNat] at hb

theorem encodeChar_of_ascii {c : Char} (h : c.toNat < 0x80) : encodeChar c = [UInt8.ofNat c.toNat] := by
  have hb : (UInt8.ofNat c.toNat).toNat = c.toNat := UInt8.toNat_ofNat_of_lt' (show c.toNat < 256 by omega)
  have he := encodeChar_ascii (b := UInt8.ofNat c.toNat) (by omega)
  rwa [hb, Char.ofNat_toNat] at he

/-- Every character of ASCII is one octet. -/
theorem encode_ascii {cs : List Char} (h : ∀ c ∈ cs, c.toNat < 0x80) :
    encode cs = cs.map fun c => UInt8.ofNat c.toNat := by
  induction cs with
  | nil => rfl
  | cons c cs ih =>
      obtain ⟨hc, hcs⟩ := List.forall_mem_cons.mp h
      rw [encode, List.flatMap_cons, encodeChar_of_ascii hc]
      exact congrArg (UInt8.ofNat c.toNat :: ·) (ih hcs)

theorem length_encode_ascii {cs : List Char} (h : ∀ c ∈ cs, c.toNat < 0x80) :
    (encode cs).length = cs.length := by
  rw [encode_ascii h, List.length_map]

/-- Octets of ASCII are the octets of their text. -/
theorem encode_decode_ascii {bs : Bytes} (h : ∀ b ∈ bs, b.toNat < 0x80) :
    encode (decode bs) = bs := by
  induction bs with
  | nil => rfl
  | cons b bs ih =>
      have hb := h b List.mem_cons_self
      rw [decode, symbols_cons, first_ascii hb, List.map_cons, encode, List.flatMap_cons,
        Symbol.toChar, encodeChar_ascii hb]
      exact congrArg (b :: ·) (ih fun b' hb' => h b' (List.mem_cons_of_mem b hb'))

/-- An octet of ASCII occurs in a text only as a character of it. -/
theorem mem_of_ascii_mem_encode {cs : List Char} {b : UInt8} (hb : b.toNat < 0x80)
    (h : b ∈ encode cs) : Char.ofNat b.toNat ∈ cs := by
  obtain ⟨c, hc, hbc⟩ := List.mem_flatMap.mp h
  rwa [toNat_eq_of_mem_encodeChar hbc hb, Char.ofNat_toNat]

/-- A text without line ends has no line feed among its octets. -/
theorem lineFeed_not_mem_encode {cs : List Char} (h : '\n' ∉ cs) : (0x0A : UInt8) ∉ encode cs :=
  fun hm => h (mem_of_ascii_mem_encode (by decide) hm)

theorem encode_append (cs ds : List Char) : encode (cs ++ ds) = encode cs ++ encode ds :=
  List.flatMap_append

theorem decode_encode (cs : List Char) : decode (encode cs) = cs := by
  rw [decode, symbols_encode, List.map_map]
  exact List.map_id cs

/-! ### Continuations

What is read from an octet above ASCII depends on the continuations behind it and on
nothing else. -/

theorem isContinuation_of_two? {b0 b1 : UInt8} {c : Char} (h : two? b0 b1 = some c) :
    isContinuation b1 = true := by
  simp only [two?, Option.ite_none_right_eq_some, Bool.and_eq_true] at h
  exact h.1.2

theorem isContinuation_of_three? {b0 b1 b2 : UInt8} {c : Char} (h : three? b0 b1 b2 = some c) :
    isContinuation b1 = true ∧ isContinuation b2 = true := by
  simp only [three?, Option.ite_none_right_eq_some, Bool.and_eq_true, decide_eq_true_eq,
    UInt8.le_iff_toNat_le, apply_ite UInt8.toNat, UInt8.reduceToNat] at h
  obtain ⟨⟨⟨⟨_, hlow⟩, hhigh⟩, hlast⟩, _⟩ := h
  refine ⟨isContinuation_iff.mpr ?_, hlast⟩
  split at hlow <;> split at hhigh <;> omega

theorem isContinuation_of_four? {b0 b1 b2 b3 : UInt8} {c : Char} (h : four? b0 b1 b2 b3 = some c) :
    isContinuation b1 = true ∧ isContinuation b2 = true ∧ isContinuation b3 = true := by
  simp only [four?, Option.ite_none_right_eq_some, Bool.and_eq_true, decide_eq_true_eq,
    UInt8.le_iff_toNat_le, apply_ite UInt8.toNat, UInt8.reduceToNat] at h
  obtain ⟨⟨⟨⟨⟨_, hlow⟩, hhigh⟩, hthird⟩, hlast⟩, _⟩ := h
  refine ⟨isContinuation_iff.mpr ?_, hthird, hlast⟩
  split at hlow <;> split at hhigh <;> omega

/-- Octets that do not start with a continuation. -/
def NoLead (bs : Bytes) : Prop := ∀ b ∈ bs.head?, isContinuation b = false

/-- Octets that start with the same continuations. -/
inductive SameLead : Bytes → Bytes → Prop where
  | stop {r r' : Bytes} (h : NoLead r) (h' : NoLead r') : SameLead r r'
  | cons {b : UInt8} {r r' : Bytes} (hb : isContinuation b = true) (h : SameLead r r') :
      SameLead (b :: r) (b :: r')

theorem SameLead.rfl (r : Bytes) : SameLead r r := by
  induction r with
  | nil => exact .stop nofun nofun
  | cons b r ih =>
      cases hb : isContinuation b with
      | true => exact .cons hb ih
      | false =>
          have hstop : NoLead (b :: r) := by
            rintro _ ⟨⟩
            exact hb
          exact .stop hstop hstop

/-- An octet that leads a sequence is stray if no continuation follows. -/
theorem first_stop {b0 : UInt8} (hb : ¬ b0 < 0x80) {r : Bytes} (h : NoLead r) :
    first b0 r = (.stray b0, r) := by
  unfold first
  rw [if_neg hb]
  split
  · rfl
  · next b1 r1 =>
      have hb1 : ¬ isContinuation b1 = true := by simp [h b1 rfl]
      repeat' split
      all_goals first | rfl | skip
      · next hc => exact absurd (isContinuation_of_two? hc) hb1
      · next hc => exact absurd (isContinuation_of_three? hc).1 hb1
      · next hc => exact absurd (isContinuation_of_four? hc).1 hb1

/-- So it is if only one follows and two octets make no character. -/
theorem first_stop_one {b0 b1 : UInt8} (hb : ¬ b0 < 0x80) (htwo : two? b0 b1 = none) {r : Bytes}
    (h : NoLead r) : first b0 (b1 :: r) = (.stray b0, b1 :: r) := by
  cases r with
  | nil => simp only [first, hb, if_false, htwo]
  | cons b2 r2 =>
      have hb2 : ¬ isContinuation b2 = true := by simp [h b2 rfl]
      have hthree : three? b0 b1 b2 = none := by
        rw [Option.eq_none_iff_forall_ne_some]
        exact fun c hc => hb2 (isContinuation_of_three? hc).2
      cases r2 with
      | nil => simp only [first, hb, if_false, htwo, hthree]
      | cons b3 r3 =>
          have hfour : four? b0 b1 b2 b3 = none := by
            rw [Option.eq_none_iff_forall_ne_some]
            exact fun c hc => hb2 (isContinuation_of_four? hc).2.1
          simp only [first, hb, if_false, htwo, hthree, hfour]

theorem first_stop_two {b0 b1 b2 : UInt8} (hb : ¬ b0 < 0x80) (htwo : two? b0 b1 = none)
    (hthree : three? b0 b1 b2 = none) {r : Bytes} (h : NoLead r) :
    first b0 (b1 :: b2 :: r) = (.stray b0, b1 :: b2 :: r) := by
  cases r with
  | nil => simp only [first, hb, if_false, htwo, hthree]
  | cons b3 r3 =>
      have hfour : four? b0 b1 b2 b3 = none := by
        rw [Option.eq_none_iff_forall_ne_some]
        intro c hc
        exact absurd (isContinuation_of_four? hc).2.2 (by simp [h b3 rfl])
      simp only [first, hb, if_false, htwo, hthree, hfour]

theorem first_stop_three {b0 b1 b2 b3 : UInt8} (hb : ¬ b0 < 0x80) (htwo : two? b0 b1 = none)
    (hthree : three? b0 b1 b2 = none) (hfour : four? b0 b1 b2 b3 = none) (r : Bytes) :
    first b0 (b1 :: b2 :: b3 :: r) = (.stray b0, b1 :: b2 :: b3 :: r) := by
  simp only [first, hb, if_false, htwo, hthree, hfour]

/-- **The same continuations give the same symbol**, and leave what follows them. -/
theorem first_sameLead {b0 : UInt8} (hb : ¬ b0 < 0x80) {r r' : Bytes} (h : SameLead r r') :
    ∃ s lead t t', (∀ b ∈ lead, isContinuation b = true) ∧ r = lead ++ t ∧ r' = lead ++ t' ∧
      first b0 r = (s, t) ∧ first b0 r' = (s, t') := by
  have hstray : ∀ {r r' : Bytes}, first b0 r = (.stray b0, r) → first b0 r' = (.stray b0, r') →
      ∃ s lead t t', (∀ b ∈ lead, isContinuation b = true) ∧ r = lead ++ t ∧ r' = lead ++ t' ∧
        first b0 r = (s, t) ∧ first b0 r' = (s, t') := fun {r r'} hr hr' =>
    ⟨.stray b0, [], r, r', by simp, rfl, rfl, hr, hr'⟩
  -- as many continuations are looked at as a character may need
  cases h with
  | stop h h' => exact hstray (first_stop hb h) (first_stop hb h')
  | @cons b1 r1 r1' hb1 h =>
      cases htwo : two? b0 b1 with
      | some c =>
          exact ⟨.char c, [b1], r1, r1', by simp [hb1], rfl, rfl, first_of_two? hb htwo r1,
            first_of_two? hb htwo r1'⟩
      | none =>
          cases h with
          | stop h h' => exact hstray (first_stop_one hb htwo h) (first_stop_one hb htwo h')
          | @cons b2 r2 r2' hb2 h =>
              cases hthree : three? b0 b1 b2 with
              | some c =>
                  exact ⟨.char c, [b1, b2], r2, r2', by simp [hb1, hb2], rfl, rfl,
                    first_of_three? hb htwo hthree r2, first_of_three? hb htwo hthree r2'⟩
              | none =>
                  cases h with
                  | stop h h' =>
                      exact hstray (first_stop_two hb htwo hthree h) (first_stop_two hb htwo hthree h')
                  | @cons b3 r3 r3' hb3 h =>
                      cases hfour : four? b0 b1 b2 b3 with
                      | some c =>
                          exact ⟨.char c, [b1, b2, b3], r3, r3', by simp [hb1, hb2, hb3], rfl, rfl,
                            first_of_four? hb htwo hthree hfour r3, first_of_four? hb htwo hthree hfour r3'⟩
                      | none =>
                          exact hstray (first_stop_three hb htwo hthree hfour r3)
                            (first_stop_three hb htwo hthree hfour r3')

/-! ### Values -/

theorem toNat_ofNat {v : Nat} (h : v < 0xD800 ∨ 0xDFFF < v ∧ v < 0x110000) : (Char.ofNat v).toNat = v := by
  have hv : v.isValidChar := h
  rw [Char.ofNat, dif_pos hv]
  rfl

theorem toNat_of_two? {b0 b1 : UInt8} {c : Char} (h : two? b0 b1 = some c) :
    0x80 ≤ c.toNat ∧ c.toNat < 0x800 := by
  simp only [two?, Option.ite_none_right_eq_some, Bool.and_eq_true, decide_eq_true_eq,
    UInt8.le_iff_toNat_le, UInt8.reduceToNat, isContinuation_iff] at h
  obtain ⟨⟨⟨h0, h0'⟩, h1, h1'⟩, hc⟩ := h
  rw [← Option.some.inj hc, toNat_ofNat] <;> unfold payload <;> omega

theorem toNat_of_three? {b0 b1 b2 : UInt8} {c : Char} (h : three? b0 b1 b2 = some c) :
    0x80 ≤ b1.toNat ∧ 0x80 ≤ b2.toNat ∧ b1.toNat ≤ 0xBF ∧ b2.toNat ≤ 0xBF ∧ 0xE0 ≤ b0.toNat ∧ 0x800 ≤ c.toNat ∧
      c.toNat = (b0.toNat - 0xE0) * 4096 + (b1.toNat - 0x80) * 64 + (b2.toNat - 0x80) := by
  obtain ⟨hb1, hb2⟩ := isContinuation_of_three? h
  rw [isContinuation_iff] at hb1 hb2
  simp only [three?, Option.ite_none_right_eq_some, Bool.and_eq_true, decide_eq_true_eq,
    UInt8.le_iff_toNat_le, apply_ite UInt8.toNat, UInt8.reduceToNat, ← UInt8.toNat_inj] at h
  obtain ⟨⟨⟨⟨⟨h0, h0'⟩, hlow⟩, hhigh⟩, _⟩, hc⟩ := h
  have hvalue : c.toNat = (b0.toNat - 0xE0) * 4096 + payload b1 * 64 + payload b2 := by
    rw [← Option.some.inj hc, toNat_ofNat]
    unfold payload
    split at hlow <;> split at hhigh <;> omega
  unfold payload at hvalue
  refine ⟨hb1.1, hb2.1, hb1.2, hb2.2, h0, ?_, hvalue⟩
  split at hlow <;> omega

theorem toNat_of_four? {b0 b1 b2 b3 : UInt8} {c : Char} (h : four? b0 b1 b2 b3 = some c) :
    0x10000 ≤ c.toNat := by
  obtain ⟨hb1, hb2, hb3⟩ := isContinuation_of_four? h
  rw [isContinuation_iff] at hb1 hb2 hb3
  simp only [four?, Option.ite_none_right_eq_some, Bool.and_eq_true, decide_eq_true_eq,
    UInt8.le_iff_toNat_le, apply_ite UInt8.toNat, UInt8.reduceToNat, ← UInt8.toNat_inj] at h
  obtain ⟨⟨⟨⟨⟨⟨h0, h0'⟩, hlow⟩, hhigh⟩, _⟩, _⟩, hc⟩ := h
  have hvalue : c.toNat = (b0.toNat - 0xF0) * 262144 + payload b1 * 4096 + payload b2 * 64 + payload b3 := by
    rw [← Option.some.inj hc, toNat_ofNat]
    unfold payload
    split at hlow <;> split at hhigh <;> omega
  unfold payload at hvalue
  split at hlow <;> omega

/-- What an octet above ASCII starts is no character of ASCII, and one from the range
of the three-octet sequences only if it starts such a sequence. -/
theorem first_cases {b0 : UInt8} (hb : ¬ b0 < 0x80) (r : Bytes) :
    0x80 ≤ (first b0 r).1.toChar.toNat ∧ ((first b0 r).1.toChar.toNat < 0x800 ∨
      0xFFFD ≤ (first b0 r).1.toChar.toNat ∨
      ∃ b1 b2 t c, r = b1 :: b2 :: t ∧ three? b0 b1 b2 = some c ∧ first b0 r = (.char c, t)) := by
  -- A stray octet becomes the replacement character, above everything of two octets.
  have hstray : ∀ P : Prop, 0x80 ≤ (Symbol.stray b0).toChar.toNat ∧
      ((Symbol.stray b0).toChar.toNat < 0x800 ∨ 0xFFFD ≤ (Symbol.stray b0).toChar.toNat ∨ P) := by
    have hvalue : (Symbol.stray b0).toChar.toNat = 0xFFFD := (by decide : replacement.toNat = 0xFFFD)
    intro P
    rw [hvalue]
    exact ⟨by decide, Or.inr (Or.inl (Nat.le_refl _))⟩
  unfold first
  rw [if_neg hb]
  split
  · exact hstray _
  · split
    · next hc =>
        obtain ⟨hlow, hhigh⟩ := toNat_of_two? hc
        exact ⟨hlow, Or.inl hhigh⟩
    · split
      · exact hstray _
      · split
        · next hc =>
            have hlow := (toNat_of_three? hc).2.2.2.2.2.1
            exact ⟨Nat.le_trans (by decide) hlow, Or.inr (Or.inr ⟨_, _, _, _, rfl, hc, rfl⟩)⟩
        · split
          · exact hstray _
          · split
            · next hc =>
                have hlow := toNat_of_four? hc
                exact ⟨Nat.le_trans (by decide) hlow, Or.inr (Or.inl (Nat.le_trans (by decide) hlow))⟩
            · exact hstray _

/-! ### Nothing is lost

The octets of a character are those it was read from. -/

theorem ofNat_of_eq {n : Nat} {b : UInt8} (h : n = b.toNat) : UInt8.ofNat n = b := by
  rw [h, UInt8.ofNat_toNat]

/-- A sequence of two octets is the encoding of its character. -/
theorem encodeChar_of_two? {b0 b1 : UInt8} {c : Char} (h : two? b0 b1 = some c) :
    encodeChar c = [b0, b1] := by
  simp only [two?, Option.ite_none_right_eq_some, Bool.and_eq_true, decide_eq_true_eq,
    UInt8.le_iff_toNat_le, UInt8.reduceToNat, isContinuation_iff] at h
  obtain ⟨⟨⟨h0, h0'⟩, h1, h1'⟩, hc⟩ := h
  have hv : c.val.toNat = (b0.toNat - 0xC0) * 64 + (b1.toNat - 0x80) := by
    rw [← Option.some.inj hc]
    exact toNat_ofNat (by unfold payload; omega)
  unfold encodeChar String.utf8EncodeChar
  simp only [hv]
  rw [if_neg (by omega), if_pos (by omega), ofNat_of_eq (b := b0) (by omega),
    ofNat_of_eq (b := b1) (by omega)]

/-- So is one of three octets. -/
theorem encodeChar_of_three? {b0 b1 b2 : UInt8} {c : Char} (h : three? b0 b1 b2 = some c) :
    encodeChar c = [b0, b1, b2] := by
  obtain ⟨h1, h2, h1', h2', h0, hlow, hv⟩ := toNat_of_three? h
  have h0' : b0.toNat ≤ 0xEF := by
    simp only [three?, Option.ite_none_right_eq_some, Bool.and_eq_true, decide_eq_true_eq,
      UInt8.le_iff_toNat_le, UInt8.reduceToNat] at h
    exact h.1.1.1.1.2
  rw [show c.toNat = c.val.toNat from rfl] at hlow hv
  unfold encodeChar String.utf8EncodeChar
  simp only [hv] at hlow ⊢
  rw [if_neg (by omega), if_neg (by omega), if_pos (by omega), ofNat_of_eq (b := b0) (by omega),
    ofNat_of_eq (b := b1) (by omega), ofNat_of_eq (b := b2) (by omega)]

/-- So is one of four octets. -/
theorem encodeChar_of_four? {b0 b1 b2 b3 : UInt8} {c : Char} (h : four? b0 b1 b2 b3 = some c) :
    encodeChar c = [b0, b1, b2, b3] := by
  have hlow := toNat_of_four? h
  obtain ⟨hb1, hb2, hb3⟩ := isContinuation_of_four? h
  rw [isContinuation_iff] at hb1 hb2 hb3
  simp only [four?, Option.ite_none_right_eq_some, Bool.and_eq_true, decide_eq_true_eq,
    UInt8.le_iff_toNat_le, apply_ite UInt8.toNat, UInt8.reduceToNat, ← UInt8.toNat_inj] at h
  obtain ⟨⟨⟨⟨⟨⟨h0, h0'⟩, hleast⟩, hmost⟩, _⟩, _⟩, hc⟩ := h
  have hv : c.val.toNat = (b0.toNat - 0xF0) * 262144 + (b1.toNat - 0x80) * 4096 +
      (b2.toNat - 0x80) * 64 + (b3.toNat - 0x80) := by
    rw [← Option.some.inj hc]
    refine toNat_ofNat ?_
    unfold payload
    split at hleast <;> split at hmost <;> omega
  rw [show c.toNat = c.val.toNat from rfl] at hlow
  unfold encodeChar String.utf8EncodeChar
  simp only [hv] at hlow ⊢
  rw [if_neg (by omega), if_neg (by omega), if_neg (by omega), ofNat_of_eq (b := b0) (by omega),
    ofNat_of_eq (b := b1) (by omega), ofNat_of_eq (b := b2) (by omega), ofNat_of_eq (b := b3) (by omega)]

/-- No octet is lost when a symbol is taken off. -/
theorem bytes_first (b0 : UInt8) (r0 : Bytes) :
    (first b0 r0).1.bytes ++ (first b0 r0).2 = b0 :: r0 := by
  unfold first
  split
  · next hlt =>
      have hascii : b0.toNat < 0x80 := by simpa [UInt8.lt_iff_toNat_lt] using hlt
      simp only [Symbol.bytes, encodeChar_ascii hascii, List.singleton_append]
  · split
    · rfl
    · split
      · next hc => simp only [Symbol.bytes, encodeChar_of_two? hc, List.cons_append, List.nil_append]
      · split
        · rfl
        · split
          · next hc => simp only [Symbol.bytes, encodeChar_of_three? hc, List.cons_append, List.nil_append]
          · split
            · rfl
            · split
              · next hc =>
                  simp only [Symbol.bytes, encodeChar_of_four? hc, List.cons_append, List.nil_append]
              · rfl

/-- **No octet is lost in decoding.** -/
theorem flatMap_bytes_symbols (bs : Bytes) : (symbols bs).flatMap Symbol.bytes = bs := by
  induction hn : bs.length using Nat.strongRecOn generalizing bs with
  | ind n ih =>
      cases bs with
      | nil => rfl
      | cons b0 r0 =>
          have hlt : (first b0 r0).2.length < n := by
            rw [← hn]
            exact Nat.lt_succ_of_le (length_first b0 r0)
          rw [symbols_cons, List.flatMap_cons, ih _ hlt _ rfl, bytes_first]

/-- Valid octets are those of their text. -/
theorem encode_decode {bs : Bytes} (h : isValid bs = true) : encode (decode bs) = bs := by
  rw [isValid, List.all_eq_true] at h
  have hsame : ∀ s ∈ symbols bs, encodeChar s.toChar = s.bytes := by
    intro s hs
    cases s with
    | char c => rfl
    | stray b => cases h _ hs
  calc encode (decode bs) = (symbols bs).flatMap fun s => encodeChar s.toChar := List.flatMap_map ..
    _ = (symbols bs).flatMap Symbol.bytes := congrArg List.flatten (List.map_congr_left hsame)
    _ = bs := flatMap_bytes_symbols bs

theorem textOf_utf8 (s : String) : textOf (utf8 s) = s := by
  rw [textOf, utf8, decode_encode, String.ofList_toList]

/-- Octets that encode a text are the encoding of that text. -/
theorem utf8_textOf {bs : Bytes} (h : isValid bs = true) : utf8 (textOf bs) = bs := by
  rw [utf8, textOf, String.toList_ofList, encode_decode h]

end LanguageClient.Utf8
