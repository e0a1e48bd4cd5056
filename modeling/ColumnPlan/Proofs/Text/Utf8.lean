import ColumnPlan.Text.Utf8

/-!
# Characters are read back from their bytes

A character has one to four bytes.  The first one says how many follow and in which ranges they lie,
and all of them together carry the bits of the character, six in each byte but the first.

* `tailRanges_eq`, `headBits_eq`   what a first byte says, as comparisons of numbers;
* `lead_two`, `lead_three`, `lead_four`   the first bytes that are written;
* `decodeHead_encodeChar`          the bytes of a character are read back as the character;
* `decodeHead_take`                four bytes are enough.
-/

namespace ColumnPlan.Utf8

theorem toNat_ofNat {n : Nat} (h : n < 256) : (UInt8.ofNat n).toNat = n := by
  rw [UInt8.toNat_ofNat', Nat.mod_eq_of_lt h]

/-- The character of a number below the surrogates. -/
theorem toNat_charOfNat {n : Nat} (h : n < 0xD800) : (Char.ofNat n).toNat = n := by
  rw [Char.ofNat, dif_pos (.inl h)]
  rfl

/-- The byte that carries six bits of a character. -/
def tailByte (n : Nat) : UInt8 := UInt8.ofNat (n % 64 + 128)

theorem toNat_tailByte (n : Nat) : (tailByte n).toNat = n % 64 + 128 := toNat_ofNat (by omega)

theorem holds_tailByte {low high : UInt8} {n : Nat} (hl : low.toNat ≤ n % 64 + 128)
    (hh : n % 64 + 128 ≤ high.toNat) : ByteRange.holds (low, high) (tailByte n) = true := by
  rw [← toNat_tailByte] at hl hh
  simp [ByteRange.holds, UInt8.le_iff_toNat_le, hl, hh]

theorem holds_tail (n : Nat) : tail.holds (tailByte n) = true := by
  have := Nat.mod_lt n (show 0 < 64 by decide)
  exact holds_tailByte (show 128 ≤ _ by omega) (show _ ≤ 191 by omega)

theorem takeTail_cons {r : ByteRange} {n : Nat} (h : r.holds (tailByte n) = true) (bits : Nat)
    (rs : List ByteRange) (bs : List UInt8) :
    takeTail bits (r :: rs) (tailByte n :: bs) = takeTail (bits * 64 + n % 64) rs bs := by
  rw [takeTail, if_pos h, addTail, toNat_tailByte]
  have same : (n % 64 + 128) % 64 = n % 64 := by omega
  rw [same]

theorem decodeHead_cons {b : UInt8} {bs : List UInt8} {ranges : List ByteRange} {bits : Nat}
    (hr : tailRanges b = some ranges) (hb : takeTail (headBits b) ranges bs = some bits) :
    decodeHead (b :: bs) = some (Char.ofNat bits, ranges.length + 1) := by
  rw [decodeHead, hr]
  show (takeTail (headBits b) ranges bs).bind _ = _
  rw [hb]
  rfl

/-- The comparisons of `tailRanges` as comparisons of numbers. -/
theorem tailRanges_eq (b : UInt8) : tailRanges b =
    if b.toNat < 0x80 then some []
    else if b.toNat < 0xC2 then none
    else if b.toNat < 0xE0 then some [tail]
    else if b.toNat = 0xE0 then some [(0xA0, 0xBF), tail]
    else if b.toNat = 0xED then some [(0x80, 0x9F), tail]
    else if b.toNat < 0xF0 then some [tail, tail]
    else if b.toNat = 0xF0 then some [(0x90, 0xBF), tail, tail]
    else if b.toNat < 0xF4 then some [tail, tail, tail]
    else if b.toNat = 0xF4 then some [(0x80, 0x8F), tail, tail]
    else none := by
  simp only [tailRanges, UInt8.lt_iff_toNat_lt, ← UInt8.toNat_inj]
  rfl

theorem headBits_eq (b : UInt8) : headBits b =
    if b.toNat < 0x80 then b.toNat
    else if b.toNat < 0xE0 then b.toNat % 32
    else if b.toNat < 0xF0 then b.toNat % 16
    else b.toNat % 8 := by
  simp only [headBits, UInt8.lt_iff_toNat_lt]
  rfl

/-! ### first bytes -/

theorem lead_two {n : Nat} (h : 2 ≤ n) (h' : n < 32) :
    tailRanges (UInt8.ofNat (n + 192)) = some [tail] ∧ headBits (UInt8.ofNat (n + 192)) = n := by
  rw [tailRanges_eq, headBits_eq, toNat_ofNat (by omega)]
  grind

/-- What may follow depends on the first byte: no short characters and no surrogates. -/
theorem lead_three {v : Nat} (h : 0x800 ≤ v) (h' : v < 0x10000) (valid : v < 0xD800 ∨ 0xDFFF < v) :
    ∃ r, tailRanges (UInt8.ofNat (v / 4096 + 224)) = some [r, tail] ∧
      r.holds (tailByte (v / 64)) = true ∧ headBits (UInt8.ofNat (v / 4096 + 224)) = v / 4096 := by
  rw [tailRanges_eq, headBits_eq, toNat_ofNat (by omega)]
  rcases Nat.lt_trichotomy (v / 4096) 13 with low | same | high
  · by_cases zero : v / 4096 = 0
    · exact ⟨(0xA0, 0xBF), by grind,
        holds_tailByte (show 160 ≤ _ by omega) (show _ ≤ 191 by omega), by grind⟩
    · exact ⟨tail, by grind, holds_tail _, by grind⟩
  · exact ⟨(0x80, 0x9F), by grind,
      holds_tailByte (show 128 ≤ _ by omega) (show _ ≤ 159 by omega), by grind⟩
  · exact ⟨tail, by grind, holds_tail _, by grind⟩

theorem lead_four {v : Nat} (h : 0x10000 ≤ v) (h' : v < 0x110000) :
    ∃ r, tailRanges (UInt8.ofNat (v / 262144 + 240)) = some [r, tail, tail] ∧
      r.holds (tailByte (v / 4096)) = true ∧
        headBits (UInt8.ofNat (v / 262144 + 240)) = v / 262144 := by
  rw [tailRanges_eq, headBits_eq, toNat_ofNat (by omega)]
  rcases Nat.lt_trichotomy (v / 262144) 4 with low | same | high
  · by_cases zero : v / 262144 = 0
    · exact ⟨(0x90, 0xBF), by grind,
        holds_tailByte (show 144 ≤ _ by omega) (show _ ≤ 191 by omega), by grind⟩
    · exact ⟨tail, by grind, holds_tail _, by grind⟩
  · exact ⟨(0x80, 0x8F), by grind,
      holds_tailByte (show 128 ≤ _ by omega) (show _ ≤ 143 by omega), by grind⟩
  · omega

theorem encodeChar_eq (c : Char) : String.utf8EncodeChar c =
    if c.toNat < 0x80 then [UInt8.ofNat c.toNat]
    else if c.toNat < 0x800 then [UInt8.ofNat (c.toNat / 64 + 192), tailByte c.toNat]
    else if c.toNat < 0x10000 then
      [UInt8.ofNat (c.toNat / 4096 + 224), tailByte (c.toNat / 64), tailByte c.toNat]
    else [UInt8.ofNat (c.toNat / 262144 + 240), tailByte (c.toNat / 4096), tailByte (c.toNat / 64),
      tailByte c.toNat] := by
  have valid : c.toNat < 0xD800 ∨ 0xDFFF < c.toNat ∧ c.toNat < 0x110000 := c.valid
  have val : c.val.toNat = c.toNat := rfl
  unfold String.utf8EncodeChar tailByte
  simp only [val]
  grind

/-- **The bytes of a character are read back as the character.** -/
theorem decodeHead_encodeChar (c : Char) (rest : List UInt8) :
    decodeHead (String.utf8EncodeChar c ++ rest) = some (c, c.utf8Size) := by
  have valid : c.toNat < 0xD800 ∨ 0xDFFF < c.toNat ∧ c.toNat < 0x110000 := c.valid
  have back : Char.ofNat c.toNat = c := c.ofNat_toNat
  rw [← String.length_utf8EncodeChar c, encodeChar_eq]
  generalize c.toNat = v at valid back
  split
  · next one =>
    have b := toNat_ofNat (show v < 256 by omega)
    have lead : tailRanges (UInt8.ofNat v) = some [] := by rw [tailRanges_eq, b, if_pos one]
    have bits : headBits (UInt8.ofNat v) = v := by rw [headBits_eq, b, if_pos one]
    rw [List.cons_append, decodeHead_cons lead (congrArg some bits), back]
    rfl
  · split
    · next two =>
      obtain ⟨lead, bits⟩ := lead_two (n := v / 64) (by omega) (by omega)
      have whole : takeTail (headBits (UInt8.ofNat (v / 64 + 192))) [tail] (tailByte v :: rest) =
          some v := by
        rw [bits, takeTail_cons (holds_tail v), takeTail, Nat.div_add_mod']
      exact (decodeHead_cons lead whole).trans (by rw [back]; rfl)
    · split
      · next three =>
        obtain ⟨r, lead, first, bits⟩ := lead_three (v := v) (by omega) three (by omega)
        have whole : takeTail (headBits (UInt8.ofNat (v / 4096 + 224))) [r, tail]
            (tailByte (v / 64) :: tailByte v :: rest) = some v := by
          rw [bits, takeTail_cons first, takeTail_cons (holds_tail v), takeTail]
          exact congrArg some (by omega)
        exact (decodeHead_cons lead whole).trans (by rw [back]; rfl)
      · next four =>
        obtain ⟨r, lead, first, bits⟩ := lead_four (v := v) (by omega) (by omega)
        have whole : takeTail (headBits (UInt8.ofNat (v / 262144 + 240))) [r, tail, tail]
            (tailByte (v / 4096) :: tailByte (v / 64) :: tailByte v :: rest) = some v := by
          rw [bits, takeTail_cons first, takeTail_cons (holds_tail _),
            takeTail_cons (holds_tail v), takeTail]
          exact congrArg some (by omega)
        exact (decodeHead_cons lead whole).trans (by rw [back]; rfl)

/-- No character has more than four bytes. -/
theorem decodeHead_take (c : Char) (rest : List UInt8) :
    decodeHead ((String.utf8EncodeChar c ++ rest).take 4) = some (c, c.utf8Size) := by
  have short : (String.utf8EncodeChar c).length ≤ 4 := by
    rw [String.length_utf8EncodeChar]
    exact c.utf8Size_le_four
  rw [List.take_append, List.take_of_length_le short, decodeHead_encodeChar]

theorem encodeChars_cons (c : Char) (cs : List Char) :
    encodeChars (c :: cs) = String.utf8EncodeChar c ++ encodeChars cs := List.flatMap_cons

theorem encodeChars_append (cs ds : List Char) :
    encodeChars (cs ++ ds) = encodeChars cs ++ encodeChars ds := List.flatMap_append

theorem encodeChars_eq_nil_iff {cs : List Char} : encodeChars cs = [] ↔ cs = [] := by
  cases cs with
  | nil => exact iff_of_true rfl rfl
  | cons c cs =>
    refine iff_of_false (fun none => ?_) (List.cons_ne_nil c cs)
    rw [encodeChars_cons, List.append_eq_nil_iff] at none
    exact String.utf8EncodeChar_ne_nil none.1

end ColumnPlan.Utf8
