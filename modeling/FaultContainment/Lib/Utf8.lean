/-
Well-formed UTF-8 as RFC 3629 defines it, over byte strings.

The grammar gives the bytes a character may consist of; what the lead byte leaves open at the second byte rules out overlong
forms, surrogates and everything above U+10FFFF. A character of the grammar is the encoding of a scalar value, and a text is
characters one after the other.

- `character_iff`: the characters of the grammar are the encodings of the scalar values.
- `text_iff`: the texts of the grammar are the encodings of the lists of scalar values.
-/
import Mathlib.Tactic

namespace FaultContainment.Lib.Utf8

/-- UTF8-tail -/
def Tail (b : UInt8) : Prop := 0x80 ≤ b.toNat ∧ b.toNat ≤ 0xBF

/-- UTF8-char, by length -/
inductive Character : List UInt8 → Prop where
  | one {a : UInt8} (ha : a.toNat ≤ 0x7F) : Character [a]
  | two {a b : UInt8} (ha : 0xC2 ≤ a.toNat ∧ a.toNat ≤ 0xDF) (hb : Tail b) : Character [a, b]
  | three {a b c : UInt8} (ha : 0xE0 ≤ a.toNat ∧ a.toNat ≤ 0xEF) (hb : Tail b) (hc : Tail c)
      (hshort : a.toNat = 0xE0 → 0xA0 ≤ b.toNat) (hsurrogate : a.toNat = 0xED → b.toNat ≤ 0x9F) : Character [a, b, c]
  | four {a b c d : UInt8} (ha : 0xF0 ≤ a.toNat ∧ a.toNat ≤ 0xF4) (hb : Tail b) (hc : Tail c) (hd : Tail d)
      (hshort : a.toNat = 0xF0 → 0x90 ≤ b.toNat) (hlast : a.toNat = 0xF4 → b.toNat ≤ 0x8F) : Character [a, b, c, d]

/-- UTF8-octets -/
inductive Text : List UInt8 → Prop where
  | nil : Text []
  | cons {c rest : List UInt8} (hc : Character c) (hrest : Text rest) : Text (c ++ rest)

/-! ## Encodings -/

/-- the character with a number that is neither too large nor a surrogate -/
def charOf (n : ℕ) (h : n < 0xD800 ∨ 0xDFFF < n ∧ n < 0x110000) : Char :=
  ⟨UInt32.ofNatLT n (show n < 4294967296 by omega), h⟩

@[simp] theorem charOf_toNat {n : ℕ} (h : n < 0xD800 ∨ 0xDFFF < n ∧ n < 0x110000) : (charOf n h).val.toNat = n :=
  UInt32.toNat_ofNatLT

theorem byte_eq {n : ℕ} {b : UInt8} (h : n = b.toNat) : UInt8.ofNat n = b := by
  rw [h, UInt8.ofNat_toNat]

/-- every character of the grammar encodes a scalar value -/
theorem Character.encodes {bs : List UInt8} (h : Character bs) : ∃ c : Char, String.utf8EncodeChar c = bs := by
  cases h with
  | @one a ha =>
    refine ⟨charOf a.toNat (by omega), ?_⟩
    unfold String.utf8EncodeChar
    rw [charOf_toNat]
    dsimp only
    rw [if_pos ha, byte_eq rfl]
  | @two a b ha hb =>
    obtain ⟨hb1, hb2⟩ := hb
    refine ⟨charOf (a.toNat % 32 * 64 + b.toNat % 64) (by omega), ?_⟩
    unfold String.utf8EncodeChar
    rw [charOf_toNat]
    dsimp only
    rw [if_neg (by omega), if_pos (by omega), @byte_eq _ a (by omega), @byte_eq _ b (by omega)]
  | @three a b c ha hb hc hshort hsurrogate =>
    obtain ⟨hb1, hb2⟩ := hb
    obtain ⟨hc1, hc2⟩ := hc
    refine ⟨charOf ((a.toNat % 16 * 64 + b.toNat % 64) * 64 + c.toNat % 64) (by omega), ?_⟩
    unfold String.utf8EncodeChar
    rw [charOf_toNat]
    dsimp only
    rw [if_neg (by omega), if_neg (by omega), if_pos (by omega), @byte_eq _ a (by omega), @byte_eq _ b (by omega),
      @byte_eq _ c (by omega)]
  | @four a b c d ha hb hc hd hshort hlast =>
    obtain ⟨hb1, hb2⟩ := hb
    obtain ⟨hc1, hc2⟩ := hc
    obtain ⟨hd1, hd2⟩ := hd
    refine ⟨charOf (((a.toNat % 8 * 64 + b.toNat % 64) * 64 + c.toNat % 64) * 64 + d.toNat % 64) (by omega), ?_⟩
    unfold String.utf8EncodeChar
    rw [charOf_toNat]
    dsimp only
    rw [if_neg (by omega), if_neg (by omega), if_neg (by omega), @byte_eq _ a (by omega), @byte_eq _ b (by omega),
      @byte_eq _ c (by omega), @byte_eq _ d (by omega)]

theorem toNat_byte {n : ℕ} (h : n < 256) : (UInt8.ofNat n).toNat = n := UInt8.toNat_ofNat_of_lt h

theorem tail_byte (n : ℕ) : Tail (UInt8.ofNat (n % 64 + 128)) := by
  rw [Tail, toNat_byte (by omega)]
  omega

/-- the encoding of a scalar value is a character of the grammar -/
theorem character_encode (c : Char) : Character (String.utf8EncodeChar c) := by
  have hv : c.val.toNat < 0xD800 ∨ 0xDFFF < c.val.toNat ∧ c.val.toNat < 0x110000 := c.valid
  unfold String.utf8EncodeChar
  generalize c.val.toNat = v at hv
  dsimp only
  split_ifs with h1 h2 h3
  · refine .one ?_
    rw [toNat_byte (by omega)]
    exact h1
  · refine .two ?_ (tail_byte v)
    rw [toNat_byte (by omega)]
    omega
  · refine .three ?_ (tail_byte _) (tail_byte v) ?_ ?_
    all_goals
      rw [toNat_byte (by omega)]
    · omega
    all_goals
      intro hlead
      rw [toNat_byte (by omega)]
      omega
  · refine .four ?_ (tail_byte _) (tail_byte _) (tail_byte v) ?_ ?_
    all_goals
      rw [toNat_byte (by omega)]
    · omega
    all_goals
      intro hlead
      rw [toNat_byte (by omega)]
      omega

/-- **The characters of the grammar are the encodings of the scalar values.** -/
theorem character_iff (bs : List UInt8) : Character bs ↔ ∃ c : Char, String.utf8EncodeChar c = bs := by
  constructor
  · exact Character.encodes
  · rintro ⟨c, rfl⟩
    exact character_encode c

/-- **The texts of the grammar are the encodings of the lists of scalar values.** -/
theorem text_iff (bs : List UInt8) : Text bs ↔ ∃ cs : List Char, cs.flatMap String.utf8EncodeChar = bs := by
  constructor
  · intro h
    induction h with
    | nil => exact ⟨[], rfl⟩
    | cons hc _ ih =>
      obtain ⟨c, rfl⟩ := hc.encodes
      obtain ⟨cs, rfl⟩ := ih
      exact ⟨c :: cs, List.flatMap_cons⟩
  · rintro ⟨cs, rfl⟩
    induction cs with
    | nil => exact .nil
    | cons c cs ih =>
      rw [List.flatMap_cons]
      exact .cons (character_encode c) ih

end FaultContainment.Lib.Utf8
