/-
The checksum class (`crc32c.hpp`, `crc32c.cpp`): a table of 256 entries that is generated once, and a register that takes
any number of pieces.

- `crc32c_exact`: whatever the pieces, the value is that of the bit-at-a-time check with the Castagnoli polynomial.
- `crc32c_ne`: a burst of at most 32 bits changes the value.
-/
import FaultContainment.Detail.Digest
import FaultContainment.Lib.Crc

namespace FaultContainment.Digest

open FaultContainment.Lib FaultContainment.Records

/-! ## The class -/

/-- `kTable` -/
def kTable : Vector UInt32 256 := Vector.ofFn fun i => crcEntry (UInt32.ofNat i)

theorem table_index (v : UInt32) : (v &&& 0xFF).toNat < 256 := by
  rw [UInt32.toNat_and]
  exact lt_of_le_of_lt Nat.and_le_right (by decide)

structure Crc32c where
  state : UInt32 := 0xFFFFFFFF

namespace Crc32c

/-- `Crc32c::update` -/
def update (c : Crc32c) (data : Bytes) : Crc32c where
  state := data.foldl (fun crc byte => kTable.get ⟨((crc ^^^ byte.toUInt32) &&& 0xFF).toNat, table_index _⟩ ^^^ (crc >>> 8))
    c.state

/-- `Crc32c::value` -/
def value (c : Crc32c) : UInt32 := c.state ^^^ 0xFFFFFFFF

/-- `Crc32c::compute` -/
def compute (data : Bytes) : UInt32 := (update {} data).value

end Crc32c

/-! ## The polynomial -/

/-- the Castagnoli polynomial, its highest coefficient first and the leading one left out -/
def castagnoli : BitVec 32 := 0x1EDC6F41

/-- the check computed one bit at a time: all ones before the first bit, and a complement after the last -/
def crc32cBitwise (bs : Bytes) : UInt32 := ⟨Crc.reflected castagnoli (BitVec.allOnes 32) (BitVec.allOnes 32) bs⟩

theorem castagnoli_reverse : castagnoli.reverse = 0x82F63B78 := by decide +kernel

theorem castagnoli_msb : castagnoli.reverse.msb = true := by decide +kernel

/-- an entry of the table is eight steps of its index -/
theorem crcEntry_eq (i : UInt32) : (crcEntry i).toBitVec = Crc.entry castagnoli.reverse i.toBitVec := by
  have hstep : Function.Semiconj UInt32.toBitVec
      (fun crc => if crc &&& 1 ≠ 0 then (crc >>> 1) ^^^ 0x82F63B78 else crc >>> 1) (Crc.shift castagnoli.reverse) := by
    intro crc
    have hlow : crc &&& 1 ≠ 0 ↔ crc.toBitVec.getLsbD 0 = true := by
      have hmod : (crc &&& 1).toNat = crc.toNat % 2 := by
        rw [UInt32.toNat_and]
        exact Nat.and_one_is_mod _
      have hbit : crc.toBitVec.getLsbD 0 = decide (crc.toNat % 2 = 1) := by
        rw [BitVec.getLsbD, Nat.testBit_zero]
        rfl
      rw [hbit, decide_eq_true_iff, Ne, ← UInt32.toNat_inj, hmod]
      exact Nat.mod_two_ne_zero
    dsimp only
    rw [castagnoli_reverse, Crc.shift]
    by_cases h : crc &&& 1 ≠ 0
    · rw [if_pos h, if_pos (hlow.mp h)]
      rfl
    · rw [if_neg h, if_neg (fun hbit => h (hlow.mpr hbit))]
      rfl
  exact hstep.iterate_right 8 i

/-- a byte through the table is its eight bits -/
theorem crcByte_eq (crc : UInt32) (b : UInt8) :
    (crcByte crc b).toBitVec = Crc.register castagnoli.reverse crc.toBitVec (Crc.bitsOf b) := by
  rw [Crc.register_byte (by decide), crcByte, UInt32.toBitVec_xor, crcEntry_eq]
  rfl

/-- bytes through the table are their bits -/
theorem foldl_crcByte (crc : UInt32) (bs : Bytes) :
    (bs.foldl crcByte crc).toBitVec = Crc.register castagnoli.reverse crc.toBitVec (Crc.bits bs) := by
  induction bs generalizing crc with
  | nil => rfl
  | cons b bs ih =>
    calc ((b :: bs).foldl crcByte crc).toBitVec
        = Crc.register castagnoli.reverse (crcByte crc b).toBitVec (Crc.bits bs) := ih _
      _ = Crc.register castagnoli.reverse crc.toBitVec (Crc.bitsOf b ++ Crc.bits bs) := by
        rw [crcByte_eq, Crc.register_append]

/-! ## Pieces -/

namespace Crc32c

/-- a piece goes through the table byte by byte -/
theorem state_update (c : Crc32c) (data : Bytes) : (c.update data).state = data.foldl crcByte c.state := by
  have hbyte : (fun (crc : UInt32) (byte : UInt8) =>
      kTable.get ⟨((crc ^^^ byte.toUInt32) &&& 0xFF).toNat, table_index _⟩ ^^^ (crc >>> 8)) = crcByte := by
    funext crc byte
    have hentry : kTable.get ⟨((crc ^^^ byte.toUInt32) &&& 0xFF).toNat, table_index _⟩ =
        crcEntry (UInt32.ofNat ((crc ^^^ byte.toUInt32) &&& 0xFF).toNat) := Vector.getElem_ofFn _
    rw [hentry, UInt32.ofNat_toNat]
    rfl
  unfold update
  rw [hbyte]

/-- the register does not know where a piece ended -/
theorem state_updates (c : Crc32c) (pieces : List Bytes) :
    (pieces.foldl update c).state = pieces.flatten.foldl crcByte c.state := by
  induction pieces generalizing c with
  | nil => rfl
  | cons data pieces ih =>
    rw [List.foldl_cons, ih, state_update, List.flatten_cons, List.foldl_append]

/-- the checksum of one piece is the one the rest of the model uses -/
theorem compute_eq (data : Bytes) : compute data = crc32c data := by
  unfold compute value crc32c
  rw [state_update]

end Crc32c

theorem crc32c_eq (bs : Bytes) : crc32c bs = crc32cBitwise bs := by
  apply UInt32.toBitVec_inj.mp
  unfold crc32c crc32cBitwise Crc.reflected
  rw [UInt32.toBitVec_xor, foldl_crcByte]
  rfl

/-- **The checksum is CRC32C.** However a byte string is cut into pieces, the class that is handed the pieces has the value
of the bit-at-a-time check over the string, which is also what one call over the whole string returns. -/
theorem crc32c_exact (pieces : List Bytes) :
    (pieces.foldl Crc32c.update {}).value = crc32cBitwise pieces.flatten ∧
    (pieces.foldl Crc32c.update {}).value = Crc32c.compute pieces.flatten := by
  have hvalue : (pieces.foldl Crc32c.update {}).value = crc32c pieces.flatten := by
    unfold Crc32c.value crc32c
    rw [Crc32c.state_updates]
  exact ⟨hvalue.trans (crc32c_eq _), hvalue.trans (Crc32c.compute_eq _).symm⟩

example : Crc32c.compute [0x31, 0x32, 0x33, 0x34, 0x35, 0x36, 0x37, 0x38, 0x39] = 0xE3069283 := by decide +kernel

/-! ## Bursts -/

/-- **Bursts change the checksum.** Byte strings of one length that differ, and only inside a window of 32 bits, have
different checksums. -/
theorem crc32c_ne {a b : Bytes} (hlen : a.length = b.length) (hne : a ≠ b) {lo : ℕ}
    (hwindow : Crc.DifferWithin lo 32 (Crc.bits a) (Crc.bits b)) : crc32c a ≠ crc32c b := by
  intro h
  have hregister := congrArg UInt32.toBitVec ((UInt32.xor_left_inj _).mp h)
  rw [foldl_crcByte, foldl_crcByte] at hregister
  have hbits : (Crc.bits a).length = (Crc.bits b).length := by
    rw [Crc.length_bits, Crc.length_bits, hlen]
  exact Crc.register_ne castagnoli_msb _ hbits (Crc.bits_injective.ne hne) hwindow hregister

end FaultContainment.Digest
