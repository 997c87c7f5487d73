import RestTables.Text.Utf8

/-
Module: RestTables.Proofs.Text.Utf8
Purpose: A text that was written as bytes is read back, by the strict reader as by the lenient one.
Main exports: Utf8.scan_encode, Utf8.decodeLossy_encode
-/

namespace RestTables.Text.Utf8

/-! ## Bytes -/

theorem toNat_ofNat {n : Nat} (h : n < 256) : (UInt8.ofNat n).toNat = n := UInt8.toNat_ofNat_of_lt' h

theorem ofNat_lt_iff {n : Nat} (h : n < 256) (b : UInt8) : UInt8.ofNat n < b ↔ n < b.toNat := by
  rw [UInt8.lt_iff_toNat_lt, toNat_ofNat h]

theorem ofNat_beq {n : Nat} (h : n < 256) (b : UInt8) : (UInt8.ofNat n == b) = decide (n = b.toNat) := by
  rw [Bool.eq_iff_iff, beq_iff_eq, decide_eq_true_iff, ← UInt8.toNat_inj, toNat_ofNat h]

/-- The byte of a number lies in a range when the number does. -/
theorem between_ofNat {n : Nat} (h : n < 256) (low high : UInt8) :
    (decide (low ≤ UInt8.ofNat n) && decide (UInt8.ofNat n ≤ high)) =
      decide (low.toNat ≤ n ∧ n ≤ high.toNat) := by
  rw [Bool.eq_iff_iff, Bool.and_eq_true, decide_eq_true_iff, decide_eq_true_iff, decide_eq_true_iff,
    UInt8.le_iff_toNat_le, UInt8.le_iff_toNat_le, toNat_ofNat h]

/-- The continuation byte with a payload. -/
theorem isTail_ofNat {n : Nat} (h : n < 64) : isTail (UInt8.ofNat (n + 128)) = true := by
  rw [isTail, between_ofNat (by omega)]
  exact decide_eq_true (show 128 ≤ n + 128 ∧ n + 128 ≤ 191 by omega)

theorem tailBits_ofNat {n : Nat} (h : n < 64) : tailBits (UInt8.ofNat (n + 128)) = n := by
  rw [tailBits, toNat_ofNat (by omega)]
  omega

/-- A first byte of 128 or more does not stand for itself. -/
theorem not_ofNat_lt {n : Nat} (h : n < 256) (hn : 128 ≤ n) : ¬ UInt8.ofNat n < 0x80 := by
  rw [ofNat_lt_iff h]
  exact Nat.not_lt.mpr hn

/-! ## Characters

A character is written with up to four payloads, of which all but the first have six bits. -/

section Characters

variable {a b c d : Nat} {rest : List UInt8}

theorem scan_one (ha : a < 128) : scan (UInt8.ofNat a :: rest) = some (Char.ofNat a) :: scan rest := by
  have hone : UInt8.ofNat a < 0x80 := (ofNat_lt_iff (by omega) _).mpr ha
  rw [scan.eq_def]
  simp only [hone, ↓reduceIte, toNat_ofNat (show a < 256 by omega)]

theorem scan_two (ha : 2 ≤ a) (ha' : a < 32) (hb : b < 64) :
    scan (UInt8.ofNat (a + 192) :: UInt8.ofNat (b + 128) :: rest) = some (Char.ofNat (a * 64 + b)) :: scan rest := by
  have hfirst : a + 192 < 256 := by omega
  have htwo : (decide (0xC2 ≤ UInt8.ofNat (a + 192)) && decide (UInt8.ofNat (a + 192) ≤ 0xDF)) = true :=
    (between_ofNat hfirst _ _).trans (decide_eq_true (show 194 ≤ a + 192 ∧ a + 192 ≤ 223 by omega))
  have hpayload : (a + 192) % 32 = a := by omega
  rw [scan.eq_def]
  simp only [not_ofNat_lt hfirst (by omega), htwo, ↓reduceIte, isTail_ofNat hb, toNat_ofNat hfirst, hpayload,
    tailBits_ofNat hb]

/-- Overlong forms and surrogates are what the second byte excludes. -/
theorem secondOfThree_ofNat (ha : a < 16) (hb : b < 64) (hlong : a = 0 → 32 ≤ b) (hsurrogate : a = 13 → b < 32) :
    secondOfThree (UInt8.ofNat (a + 224)) (UInt8.ofNat (b + 128)) = true := by
  have hfirst : a + 224 < 256 := by omega
  have hsecond : b + 128 < 256 := by omega
  rw [secondOfThree, ofNat_beq hfirst, ofNat_beq hfirst, between_ofNat hsecond, between_ofNat hsecond, isTail_ofNat hb]
  split
  · next h =>
    have hzero : a + 224 = 224 := of_decide_eq_true h
    exact decide_eq_true (show 160 ≤ b + 128 ∧ b + 128 ≤ 191 by omega)
  · split
    · next h =>
      have hthirteen : a + 224 = 237 := of_decide_eq_true h
      exact decide_eq_true (show 128 ≤ b + 128 ∧ b + 128 ≤ 159 by omega)
    · rfl

theorem scan_three (ha : a < 16) (hb : b < 64) (hc : c < 64) (hlong : a = 0 → 32 ≤ b)
    (hsurrogate : a = 13 → b < 32) :
    scan (UInt8.ofNat (a + 224) :: UInt8.ofNat (b + 128) :: UInt8.ofNat (c + 128) :: rest) =
      some (Char.ofNat (a * 4096 + b * 64 + c)) :: scan rest := by
  have hfirst : a + 224 < 256 := by omega
  have htwo : (decide (0xC2 ≤ UInt8.ofNat (a + 224)) && decide (UInt8.ofNat (a + 224) ≤ 0xDF)) = false :=
    (between_ofNat hfirst _ _).trans (decide_eq_false (show ¬ (194 ≤ a + 224 ∧ a + 224 ≤ 223) by omega))
  have hthree : (decide (0xE0 ≤ UInt8.ofNat (a + 224)) && decide (UInt8.ofNat (a + 224) ≤ 0xEF)) = true :=
    (between_ofNat hfirst _ _).trans (decide_eq_true (show 224 ≤ a + 224 ∧ a + 224 ≤ 239 by omega))
  have hpayload : (a + 224) % 16 = a := by omega
  rw [scan.eq_def]
  simp only [not_ofNat_lt hfirst (by omega), htwo, hthree, secondOfThree_ofNat ha hb hlong hsurrogate, ↓reduceIte,
    Bool.false_eq_true, Bool.not_true, isTail_ofNat hc, toNat_ofNat hfirst, hpayload, tailBits_ofNat hb,
    tailBits_ofNat hc]

/-- Overlong forms and what is beyond the last character are what the second byte excludes. -/
theorem secondOfFour_ofNat (ha : a < 5) (hb : b < 64) (hlong : a = 0 → 16 ≤ b) (hlast : a = 4 → b < 16) :
    secondOfFour (UInt8.ofNat (a + 240)) (UInt8.ofNat (b + 128)) = true := by
  have hfirst : a + 240 < 256 := by omega
  have hsecond : b + 128 < 256 := by omega
  rw [secondOfFour, ofNat_beq hfirst, ofNat_beq hfirst, between_ofNat hsecond, between_ofNat hsecond, isTail_ofNat hb]
  split
  · next h =>
    have hzero : a + 240 = 240 := of_decide_eq_true h
    exact decide_eq_true (show 144 ≤ b + 128 ∧ b + 128 ≤ 191 by omega)
  · split
    · next h =>
      have hfour : a + 240 = 244 := of_decide_eq_true h
      exact decide_eq_true (show 128 ≤ b + 128 ∧ b + 128 ≤ 143 by omega)
    · rfl

theorem scan_four (ha : a < 5) (hb : b < 64) (hc : c < 64) (hd : d < 64) (hlong : a = 0 → 16 ≤ b)
    (hlast : a = 4 → b < 16) :
    scan (UInt8.ofNat (a + 240) :: UInt8.ofNat (b + 128) :: UInt8.ofNat (c + 128) :: UInt8.ofNat (d + 128) :: rest) =
      some (Char.ofNat (a * 262144 + b * 4096 + c * 64 + d)) :: scan rest := by
  have hfirst : a + 240 < 256 := by omega
  have htwo : (decide (0xC2 ≤ UInt8.ofNat (a + 240)) && decide (UInt8.ofNat (a + 240) ≤ 0xDF)) = false :=
    (between_ofNat hfirst _ _).trans (decide_eq_false (show ¬ (194 ≤ a + 240 ∧ a + 240 ≤ 223) by omega))
  have hthree : (decide (0xE0 ≤ UInt8.ofNat (a + 240)) && decide (UInt8.ofNat (a + 240) ≤ 0xEF)) = false :=
    (between_ofNat hfirst _ _).trans (decide_eq_false (show ¬ (224 ≤ a + 240 ∧ a + 240 ≤ 239) by omega))
  have hfour : (decide (0xF0 ≤ UInt8.ofNat (a + 240)) && decide (UInt8.ofNat (a + 240) ≤ 0xF4)) = true :=
    (between_ofNat hfirst _ _).trans (decide_eq_true (show 240 ≤ a + 240 ∧ a + 240 ≤ 244 by omega))
  have hpayload : (a + 240) % 8 = a := by omega
  rw [scan.eq_def]
  simp only [not_ofNat_lt hfirst (by omega), htwo, hthree, hfour, secondOfFour_ofNat ha hb hlong hlast, ↓reduceIte,
    Bool.false_eq_true, Bool.not_true, isTail_ofNat hc, isTail_ofNat hd, toNat_ofNat hfirst, hpayload,
    tailBits_ofNat hb, tailBits_ofNat hc, tailBits_ofNat hd]

end Characters

theorem scan_encodeChar_append (c : Char) (rest : List UInt8) :
    scan (String.utf8EncodeChar c ++ rest) = some c :: scan rest := by
  obtain ⟨v, hv⟩ : ∃ v, c.val.toNat = v := ⟨_, rfl⟩
  have hc : Char.ofNat v = c := hv ▸ Char.ofNat_toNat c
  have hvalid : v < 0xD800 ∨ 0xDFFF < v ∧ v < 0x110000 := hv ▸ c.valid
  simp only [String.utf8EncodeChar, hv]
  -- one case for each number of bytes; the payloads of the bytes add up to the character
  split
  · next h =>
    simp only [List.cons_append, List.nil_append, scan_one (show v < 128 by omega), hc]
  · split
    · have hvalue : v / 64 % 32 * 64 + v % 64 = v := by omega
      simp only [List.cons_append, List.nil_append, scan_two (show 2 ≤ v / 64 % 32 by omega)
        (show v / 64 % 32 < 32 by omega) (show v % 64 < 64 by omega), hvalue, hc]
    · split
      · have hvalue : v / 4096 % 16 * 4096 + v / 64 % 64 * 64 + v % 64 = v := by omega
        simp only [List.cons_append, List.nil_append, scan_three (show v / 4096 % 16 < 16 by omega)
          (show v / 64 % 64 < 64 by omega) (show v % 64 < 64 by omega)
          (show v / 4096 % 16 = 0 → 32 ≤ v / 64 % 64 by omega)
          (show v / 4096 % 16 = 13 → v / 64 % 64 < 32 by omega), hvalue, hc]
      · have hvalue : v / 262144 % 8 * 262144 + v / 4096 % 64 * 4096 + v / 64 % 64 * 64 + v % 64 = v := by omega
        simp only [List.cons_append, List.nil_append, scan_four (show v / 262144 % 8 < 5 by omega)
          (show v / 4096 % 64 < 64 by omega) (show v / 64 % 64 < 64 by omega) (show v % 64 < 64 by omega)
          (show v / 262144 % 8 = 0 → 16 ≤ v / 4096 % 64 by omega)
          (show v / 262144 % 8 = 4 → v / 4096 % 64 < 16 by omega), hvalue, hc]

/-- The bytes of a text write its characters, and nothing in them is broken. -/
theorem scan_encode (s : List Char) : scan (encode s) = s.map some := by
  induction s with
  | nil => rfl
  | cons c s ih =>
    have hencode : encode (c :: s) = String.utf8EncodeChar c ++ encode s := rfl
    rw [hencode, scan_encodeChar_append, ih, List.map_cons]

/-- A text that was written is read back. -/
theorem decodeLossy_encode (s : List Char) : decodeLossy (encode s) = s := by
  rw [decodeLossy, scan_encode, List.map_map]
  exact List.map_id s

end RestTables.Text.Utf8
