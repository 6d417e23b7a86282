/-
Strict UTF-8 validation (`is_valid_utf8`) and the texts that pass it.

The byte tests of the source are on bit masks; here they are the same tests on the byte's number, `(c & 0xE0) == 0xC0` being
`n / 32 = 6`. Concatenation splits only at a character boundary, so validity of the parts gives validity of the whole, and
everything the program renders from characters (`ofChars`: literals, decimals, identities) is valid.

- `isValidUtf8_append`: two valid texts one after the other.
- `isValidUtf8_ofChars`: every rendered text is valid.
-/
import FaultContainment.Types.Enums

namespace FaultContainment.Utf8

open FaultContainment.Lib FaultContainment.Ids FaultContainment.Enums

/-- `(byte & 0xC0) == 0x80` -/
def isContinuation (b : UInt8) : Bool := b.toNat / 64 = 2

/-- not overlong, not above U+10FFFF, not a surrogate half -/
def isScalar (minimum code : ℕ) : Bool := minimum ≤ code && code ≤ 0x10FFFF && !(0xD800 ≤ code && code ≤ 0xDFFF)

/-- `is_valid_utf8` -/
def isValidUtf8 : Bytes → Bool
  | [] => true
  | c0 :: rest =>
    if c0.toNat < 0x80 then isValidUtf8 rest
    else if c0.toNat / 32 = 6 then
      match rest with
      | c1 :: rest =>
        isContinuation c1 && isScalar 0x80 (c0.toNat % 32 * 64 + c1.toNat % 64) && isValidUtf8 rest
      | [] => false
    else if c0.toNat / 16 = 14 then
      match rest with
      | c1 :: c2 :: rest =>
        isContinuation c1 && isContinuation c2 &&
          isScalar 0x800 ((c0.toNat % 16 * 64 + c1.toNat % 64) * 64 + c2.toNat % 64) && isValidUtf8 rest
      | _ => false
    else if c0.toNat / 8 = 30 then
      match rest with
      | c1 :: c2 :: c3 :: rest =>
        isContinuation c1 && isContinuation c2 && isContinuation c3 &&
          isScalar 0x10000 (((c0.toNat % 8 * 64 + c1.toNat % 64) * 64 + c2.toNat % 64) * 64 + c3.toNat % 64) &&
          isValidUtf8 rest
      | _ => false
    else false

theorem isValidUtf8_append {s t : Bytes} (hs : isValidUtf8 s = true) (ht : isValidUtf8 t = true) :
    isValidUtf8 (s ++ t) = true := by
  fun_induction isValidUtf8 s with
  | case1 => exact ht
  | case2 c0 rest h ih =>
    rw [List.cons_append, isValidUtf8.eq_def]
    simp only [if_pos h]
    exact ih hs
  | case3 c0 h1 h2 c1 rest ih =>
    simp only [List.cons_append, isValidUtf8, if_neg h1, if_pos h2]
    simp only [Bool.and_eq_true] at hs ⊢
    exact ⟨hs.1, ih hs.2⟩
  | case4 c0 h1 h2 => simp at hs
  | case5 c0 h1 h2 h3 c1 c2 rest ih =>
    simp only [List.cons_append, isValidUtf8, if_neg h1, if_neg h2, if_pos h3]
    simp only [Bool.and_eq_true] at hs ⊢
    exact ⟨hs.1, ih hs.2⟩
  | case6 => simp at hs
  | case7 c0 h1 h2 h3 h4 c1 c2 c3 rest ih =>
    simp only [List.cons_append, isValidUtf8, if_neg h1, if_neg h2, if_neg h3, if_pos h4]
    simp only [Bool.and_eq_true] at hs ⊢
    exact ⟨hs.1, ih hs.2⟩
  | case8 => simp at hs
  | case9 => simp at hs

/-- one encoded character in front changes nothing -/
theorem isValidUtf8_encodeChar (c : Char) (t : Bytes) (ht : isValidUtf8 t = true) :
    isValidUtf8 (String.utf8EncodeChar c ++ t) = true := by
  have hv : c.val.toNat < 0xd800 ∨ 0xdfff < c.val.toNat ∧ c.val.toNat < 0x110000 := c.valid
  unfold String.utf8EncodeChar
  generalize c.val.toNat = v at hv
  dsimp only
  split_ifs with h1 h2 h3
  · have e1 : (UInt8.ofNat v).toNat = v := by rw [UInt8.toNat_ofNat']; omega
    rw [List.cons_append, List.nil_append, isValidUtf8.eq_def]
    simp only [e1, if_pos (show v < 0x80 by omega), ht]
  · have e1 : (UInt8.ofNat (v / 64 % 32 + 192)).toNat = v / 64 + 192 := by rw [UInt8.toNat_ofNat']; omega
    have e2 : (UInt8.ofNat (v % 64 + 128)).toNat = v % 64 + 128 := by rw [UInt8.toNat_ofNat']; omega
    have c1 : ¬ v / 64 + 192 < 128 := by omega
    have c2 : (v / 64 + 192) / 32 = 6 := by omega
    have c3 : (v % 64 + 128) / 64 = 2 := by omega
    have c4 : (v / 64 + 192) % 32 * 64 + (v % 64 + 128) % 64 = v := by omega
    simp only [List.cons_append, List.nil_append, isValidUtf8, e1, e2, if_neg c1, if_pos c2, c4, isContinuation, c3,
      isScalar, ht]
    simp; omega
  · have e1 : (UInt8.ofNat (v / 4096 % 16 + 224)).toNat = v / 4096 + 224 := by rw [UInt8.toNat_ofNat']; omega
    have e2 : (UInt8.ofNat (v / 64 % 64 + 128)).toNat = v / 64 % 64 + 128 := by rw [UInt8.toNat_ofNat']; omega
    have e3 : (UInt8.ofNat (v % 64 + 128)).toNat = v % 64 + 128 := by rw [UInt8.toNat_ofNat']; omega
    have c1 : ¬ v / 4096 + 224 < 128 := by omega
    have c2 : ¬ (v / 4096 + 224) / 32 = 6 := by omega
    have c3 : (v / 4096 + 224) / 16 = 14 := by omega
    have c4 : (v / 64 % 64 + 128) / 64 = 2 := by omega
    have c5 : (v % 64 + 128) / 64 = 2 := by omega
    have c6 : ((v / 4096 + 224) % 16 * 64 + (v / 64 % 64 + 128) % 64) * 64 + (v % 64 + 128) % 64 = v := by omega
    simp only [List.cons_append, List.nil_append, isValidUtf8, e1, e2, e3, if_neg c1, if_neg c2, if_pos c3, c6,
      isContinuation, c4, c5, isScalar, ht]
    simp; omega
  · have e1 : (UInt8.ofNat (v / 262144 % 8 + 240)).toNat = v / 262144 + 240 := by rw [UInt8.toNat_ofNat']; omega
    have e2 : (UInt8.ofNat (v / 4096 % 64 + 128)).toNat = v / 4096 % 64 + 128 := by rw [UInt8.toNat_ofNat']; omega
    have e3 : (UInt8.ofNat (v / 64 % 64 + 128)).toNat = v / 64 % 64 + 128 := by rw [UInt8.toNat_ofNat']; omega
    have e4 : (UInt8.ofNat (v % 64 + 128)).toNat = v % 64 + 128 := by rw [UInt8.toNat_ofNat']; omega
    have c1 : ¬ v / 262144 + 240 < 128 := by omega
    have c2 : ¬ (v / 262144 + 240) / 32 = 6 := by omega
    have c3 : ¬ (v / 262144 + 240) / 16 = 14 := by omega
    have c4 : (v / 262144 + 240) / 8 = 30 := by omega
    have c5 : (v / 4096 % 64 + 128) / 64 = 2 := by omega
    have c6 : (v / 64 % 64 + 128) / 64 = 2 := by omega
    have c7 : (v % 64 + 128) / 64 = 2 := by omega
    have c8 : (((v / 262144 + 240) % 8 * 64 + (v / 4096 % 64 + 128) % 64) * 64 + (v / 64 % 64 + 128) % 64) * 64 +
        (v % 64 + 128) % 64 = v := by omega
    simp only [List.cons_append, List.nil_append, isValidUtf8, e1, e2, e3, e4, if_neg c1, if_neg c2, if_neg c3,
      if_pos c4, c8, isContinuation, c5, c6, c7, isScalar, ht]
    simp; omega

theorem isValidUtf8_ofChars (cs : List Char) : isValidUtf8 (ofChars cs) = true := by
  induction cs with
  | nil => rfl
  | cons c cs ih => exact isValidUtf8_encodeChar c (ofChars cs) ih

@[simp] theorem isValidUtf8_lit (s : String) : isValidUtf8 (lit s) = true := isValidUtf8_ofChars _

@[simp] theorem isValidUtf8_decimal (n : ℕ) : isValidUtf8 (decimal n) = true := isValidUtf8_ofChars _

@[simp] theorem isValidUtf8_tag (t : IdTag) : isValidUtf8 t.name = true := by
  cases t <;> exact isValidUtf8_lit _

@[simp] theorem isValidUtf8_id {t : IdTag} (i : Id t) : isValidUtf8 i.text = true := by
  unfold Id.text
  refine isValidUtf8_append (isValidUtf8_append (isValidUtf8_tag t) (isValidUtf8_lit _)) ?_
  split_ifs
  · exact isValidUtf8_decimal _
  · exact isValidUtf8_lit _

@[simp] theorem isValidUtf8_name {α : Type} [DecidableEq α] [Coded α] (a : α) : isValidUtf8 (Coded.name a) = true := by
  unfold Coded.name
  split <;> exact isValidUtf8_lit _

end FaultContainment.Utf8
