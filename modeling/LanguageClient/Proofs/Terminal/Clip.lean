import LanguageClient.Terminal.Clip
import LanguageClient.Proofs.Text.Utf8

/-! # Cutting lines.

A line that fits is not touched, stray octets and all. One that does not is cut to its
first characters, with three dots behind them where there is room for more than the dots,
and then nothing in it is stray. `Clipped` says so of the octets of a line and of the
characters in them, without the symbols that cutting works on, and
`clipOctets?_eq_some_iff` that this is all cutting does. Behind `octets_clipped` is that
a line which was cut fits, so that cutting it again does nothing. -/

namespace LanguageClient.Terminal

/-! ### Symbols -/

section Symbols

variable {n : Nat} {line : List Symbol}

theorem clip_of_length_le (h : line.length ≤ n) : clip n line = line := if_pos h

theorem clip_short (h : n < line.length) (hn : n ≤ 3) : clip n line = (line.take n).map whole := by
  rw [clip, if_neg (Nat.not_le.mpr h), if_pos hn]

theorem clip_dotted (h : n < line.length) (hn : 3 < n) :
    clip n line = (line.take (n - 3)).map whole ++ List.replicate 3 (.char '.') := by
  rw [clip, if_neg (Nat.not_le.mpr h), if_neg (Nat.not_le.mpr hn)]

/-- Cutting leaves `n` symbols, or all if there are no more. -/
theorem length_clip (n : Nat) (line : List Symbol) : (clip n line).length = min n line.length := by
  rcases Nat.lt_or_ge n line.length with hlong | hfits
  · rcases Nat.lt_or_ge 3 n with hn | hn
    · rw [clip_dotted hlong hn, List.length_append, List.length_map, List.length_take,
        List.length_replicate]
      omega
    · rw [clip_short hlong hn, List.length_map, List.length_take]
  · rw [clip_of_length_le hfits, Nat.min_eq_right hfits]

/-- A line that was cut fits. -/
theorem clip_clip (n : Nat) (line : List Symbol) : clip n (clip n line) = clip n line := by
  apply clip_of_length_le
  rw [length_clip]
  exact Nat.min_le_left n line.length

/-- Only a length below zero is no length. -/
theorem clip?_eq_none_iff {n : Int} : clip? n line = none ↔ n < 0 := by
  unfold clip?
  split <;> simp_all

theorem clip?_natCast (n : Nat) (line : List Symbol) : clip? n line = some (clip n line) := by
  rw [clip?, if_neg (Int.not_lt.mpr (Int.natCast_nonneg n)), Int.toNat_natCast]

end Symbols

/-! ### Octets -/

theorem map_whole (line : List Symbol) : line.map whole = (line.map Symbol.toChar).map .char := by
  rw [List.map_map]
  rfl

/-- The octets of characters are their encoding. -/
theorem flatMap_bytes_chars (cs : List Char) : (cs.map Symbol.char).flatMap Symbol.bytes = Utf8.encode cs :=
  List.flatMap_map ..

/-- What is left of a line that was cut, by its characters. -/
theorem clip_eq_map {n : Nat} {s : Bytes} (h : n < (Utf8.symbols s).length) :
    clip n (Utf8.symbols s) = (if n ≤ 3 then (Utf8.decode s).take n
      else (Utf8.decode s).take (n - 3) ++ ['.', '.', '.']).map .char := by
  split
  · next hn => rw [clip_short h hn, map_whole, List.map_take, Utf8.decode]
  · next hn =>
      rw [clip_dotted h (Nat.not_le.mp hn), map_whole, List.map_take, List.map_append, Utf8.decode]
      rfl

theorem length_decode (s : Bytes) : (Utf8.decode s).length = (Utf8.symbols s).length :=
  List.length_map ..

/-- The octets of a line that was cut are read as that line. -/
theorem symbols_clip (n : Nat) (s : Bytes) :
    Utf8.symbols ((clip n (Utf8.symbols s)).flatMap Symbol.bytes) = clip n (Utf8.symbols s) := by
  rcases Nat.lt_or_ge n (Utf8.symbols s).length with hlong | hfits
  · rw [clip_eq_map hlong, flatMap_bytes_chars, Utf8.symbols_encode]
  · rw [clip_of_length_le hfits, Utf8.flatMap_bytes_symbols]

/-- The octets `r` are the line `s`, cut to `n` characters. -/
structure Clipped (n : Nat) (s r : Bytes) : Prop where
  fits : (Utf8.decode s).length ≤ n → r = s
  short : n < (Utf8.decode s).length → n ≤ 3 → r = Utf8.encode ((Utf8.decode s).take n)
  dotted : n < (Utf8.decode s).length → 3 < n →
    r = Utf8.encode ((Utf8.decode s).take (n - 3)) ++ utf8 "..."

/-- There is one way to cut a line. -/
theorem Clipped.unique {n : Nat} {s r r' : Bytes} (h : Clipped n s r) (h' : Clipped n s r') :
    r = r' := by
  rcases Nat.lt_or_ge n (Utf8.decode s).length with hlong | hfits
  · rcases Nat.lt_or_ge 3 n with hn | hn
    · rw [h.dotted hlong hn, h'.dotted hlong hn]
    · rw [h.short hlong hn, h'.short hlong hn]
  · rw [h.fits hfits, h'.fits hfits]

/-- Cutting a line gives what it should be cut to. -/
theorem clipped_clip (n : Nat) (s : Bytes) :
    Clipped n s ((clip n (Utf8.symbols s)).flatMap Symbol.bytes) where
  fits h := by rw [clip_of_length_le (length_decode s ▸ h), Utf8.flatMap_bytes_symbols]
  short h hn := by rw [clip_eq_map (length_decode s ▸ h), if_pos hn, flatMap_bytes_chars]
  dotted h hn := by
    rw [clip_eq_map (length_decode s ▸ h), if_neg (Nat.not_le.mpr hn), flatMap_bytes_chars,
      Utf8.encode_append]
    rfl

theorem clipOctets?_natCast (n : Nat) (s : Bytes) :
    clipOctets? n s = some ((clip n (Utf8.symbols s)).flatMap Symbol.bytes) := by
  rw [clipOctets?, clip?_natCast, Option.map_some]

/-- **Cutting is what `Clipped` says.** -/
theorem clipOctets?_eq_some_iff {n : Nat} {s r : Bytes} :
    clipOctets? n s = some r ↔ Clipped n s r := by
  rw [clipOctets?_natCast, Option.some_inj]
  exact ⟨fun h => h ▸ clipped_clip n s, fun h => (clipped_clip n s).unique h⟩

/-- **Cutting is a clip.** Every line is cut to every length from zero on. The result has as
many characters as the line has, but not more than the length. It is the line if that fits;
otherwise it is made of the first characters of the line, and of dots if there is room for
more than three. Cutting the result to the same length gives the result. -/
theorem octets_clipped (n : Nat) (s : Bytes) :
    ∃ r, clipOctets? n s = some r ∧
      (Utf8.decode r).length = min n (Utf8.decode s).length ∧
      Clipped n s r ∧
      clipOctets? n r = some r := by
  refine ⟨_, clipOctets?_natCast n s, ?_, clipped_clip n s, ?_⟩
  · rw [length_decode, symbols_clip, length_clip, length_decode]
  · rw [clipOctets?_natCast, symbols_clip, clip_clip]

/-- A stray octet stays in a line that fits and is replaced in one that is cut. -/
example : clipOctets? 2 [0xFF, 0x61] = some [0xFF, 0x61] ∧
    clipOctets? 1 [0xFF, 0x61] = some (Utf8.encode [Utf8.replacement]) := by decide

end LanguageClient.Terminal
