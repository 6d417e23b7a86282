/-
The SHA-256 class (`sha256.hpp`, `sha256.cpp`): a hash value, and a buffer for the bytes that do not fill a block yet.

- `update_absorbs`: after any pieces the state and the buffered bytes are those of the bytes taken so far.
- `zeros_ends`: the loop that pads with zeros ends, before a whole block of them.
- `compress_bits`, `sha256_bits`: in bits the digest is that of the standard.
- `finish_exact`: whatever the pieces, the digest is that of their concatenation.
-/
import FaultContainment.Detail.Digest
import FaultContainment.Lib.SecureHash

namespace FaultContainment.Digest

open FaultContainment.Lib FaultContainment.Records
open SecureHash (bitsOf number word bytesBits)

/-! ## The class -/

structure Sha256 where
  state : ShaState := {}
  bitLength : UInt64 := 0
  buffer : Vector UInt8 64 := Vector.replicate 64 0
  buffered : ℕ := 0

namespace Sha256

/-- `buffer_[buffered_++] = byte` -/
def push (h : Sha256) (byte : UInt8) : Sha256 :=
  { h with buffer := h.buffer.setIfInBounds h.buffered byte, buffered := h.buffered + 1 }

/-- the buffer is compressed, and empty -/
def flush (h : Sha256) : Sha256 := { h with state := compress h.state h.buffer.toList, buffered := 0 }

/-- the first loop of `update`, and the bytes that it leaves -/
def fill : Sha256 → Bytes → Sha256 × Bytes
  | h, [] => (h, [])
  | h, byte :: bytes => if h.buffered < 64 then fill (h.push byte) bytes else (h, byte :: bytes)

/-- the second loop of `update`, over the whole blocks that are left -/
def whole (h : Sha256) (bytes : Bytes) : Sha256 × Bytes :=
  if 64 ≤ bytes.length then whole { h with state := compress h.state (bytes.take 64) } (bytes.drop 64) else (h, bytes)
termination_by bytes.length
decreasing_by
  rw [List.length_drop]
  omega

/-- the last loop of `update` -/
def keep : Sha256 → Bytes → Sha256
  | h, [] => h
  | h, byte :: bytes => keep ((if 64 ≤ h.buffered then h.flush else h).push byte) bytes

/-- the beginning of `update`: a buffer that is not empty is filled first, and the bytes that are left -/
def topUp (h : Sha256) (data : Bytes) : Sha256 × Bytes :=
  if h.buffered ≠ 0 then
    let (h, data) := fill h data
    (if h.buffered = 64 then h.flush else h, data)
  else (h, data)

/-- `Sha256::update` -/
def update (h : Sha256) (data : Bytes) : Sha256 :=
  let (h, data) := topUp { h with bitLength := h.bitLength + UInt64.ofNat data.length * 8 } data
  let (h, data) := whole h data
  keep h data

/-- the loop of `finish` that pads with zeros -/
def zeros : ℕ → Sha256 → Option Sha256
  | fuel, h =>
    if h.buffered = 56 then some h
    else
      match fuel with
      | 0 => none
      | fuel + 1 => zeros fuel (h.update [0])

/-- the loop of `finish` that writes the length -/
def writeLength (h : Sha256) (bitLength : UInt64) : Sha256 :=
  (List.range 8).foldl
    (fun h index => { h with
      buffer := h.buffer.setIfInBounds (56 + index) ((bitLength >>> (56 - UInt64.ofNat index * 8)) &&& 0xFF).toUInt8 }) h

/-- the bytes of a word of the digest -/
def wordBytes (v : UInt32) : Bytes :=
  [((v >>> 24) &&& 0xFF).toUInt8, ((v >>> 16) &&& 0xFF).toUInt8, ((v >>> 8) &&& 0xFF).toUInt8, (v &&& 0xFF).toUInt8]

/-- the words of the hash value -/
def stateWords (s : ShaState) : List UInt32 := [s.a, s.b, s.c, s.d, s.e, s.f, s.g, s.h]

/-- the bytes of the hash value -/
def digest (s : ShaState) : Digest where
  bytes := (stateWords s).flatMap wordBytes
  size := rfl

/-- `Sha256::finish` -/
def finish (fuel : ℕ) (h : Sha256) : Option Digest :=
  (zeros fuel (h.update [0x80])).map fun padded => digest (padded.writeLength h.bitLength).flush.state

/-! ## Pieces -/

/-- the state, and the bytes that stand in the buffer -/
structure Buffers (h : Sha256) (p : ShaState × Bytes) : Prop where
  state : h.state = p.1
  taken : h.buffer.toList.take h.buffered = p.2
  buffered : h.buffered = p.2.length

/-- the bytes taken one by one -/
abbrev absorb (p : ShaState × Bytes) (bytes : Bytes) : ShaState × Bytes := Blocks.absorb compress 64 p bytes

theorem absorb_append (p : ShaState × Bytes) (xs ys : Bytes) : absorb p (xs ++ ys) = absorb (absorb p xs) ys :=
  Blocks.absorb_append p xs ys

section Pieces

variable {h : Sha256} {p : ShaState × Bytes}

theorem buffers_start : Buffers {} ({}, []) := ⟨rfl, rfl, rfl⟩

/-- a byte is written behind those that are there -/
theorem take_setIfInBounds (buffer : Vector UInt8 64) {n : ℕ} (hn : n < 64) (byte : UInt8) :
    (buffer.setIfInBounds n byte).toList.take (n + 1) = buffer.toList.take n ++ [byte] := by
  have hlength : n < buffer.toList.length := by
    rw [Vector.length_toList]
    exact hn
  rw [Vector.toList_setIfInBounds, List.take_add_one, List.take_set_of_le le_rfl, List.getElem?_set_self hlength]
  rfl

theorem buffers_push (hp : Buffers h p) (hroom : p.2.length < 64) (byte : UInt8) :
    Buffers (h.push byte) (p.1, p.2 ++ [byte]) where
  state := hp.state
  taken := by
    have hn : h.buffered < 64 := hp.buffered ▸ hroom
    rw [← hp.taken]
    exact take_setIfInBounds h.buffer hn byte
  buffered := by
    rw [List.length_append, ← hp.buffered]
    rfl

theorem buffers_flush (hp : Buffers h p) (hfull : p.2.length = 64) : Buffers h.flush (compress p.1 p.2, []) where
  state := by
    have hwhole : h.buffer.toList = p.2 := by
      rw [← hp.taken, hp.buffered, hfull]
      exact (List.take_of_length_le (le_of_eq h.buffer.length_toList)).symm
    rw [← hp.state, ← hwhole]
    rfl
  taken := rfl
  buffered := rfl

/-- the first loop takes what the buffer has room for -/
theorem fill_takes (hp : Buffers h p) (hroom : p.2.length ≤ 64) (bytes : Bytes) :
    Buffers (fill h bytes).1 (p.1, p.2 ++ bytes.take (64 - p.2.length)) ∧
      (fill h bytes).2 = bytes.drop (64 - p.2.length) := by
  induction bytes generalizing h p with
  | nil =>
    rw [List.take_nil, List.drop_nil, List.append_nil]
    exact ⟨hp, rfl⟩
  | cons byte bytes ih =>
    unfold fill
    by_cases hlt : h.buffered < 64
    · have hlt' : p.2.length < 64 := hp.buffered ▸ hlt
      have hcount : 64 - p.2.length = 64 - (p.1, p.2 ++ [byte]).2.length + 1 := by
        rw [List.length_append, List.length_singleton]
        omega
      obtain ⟨hnext, hrest⟩ := ih (buffers_push hp hlt' byte) (by rw [List.length_append, List.length_singleton]; omega)
      rw [if_pos hlt, hcount, List.take_succ_cons, List.drop_succ_cons]
      rw [List.append_assoc, List.singleton_append] at hnext
      exact ⟨hnext, hrest⟩
    · have hfull : 64 - p.2.length = 0 := by
        rw [← hp.buffered]
        omega
      rw [if_neg hlt, hfull, List.take_zero, List.drop_zero, List.append_nil]
      exact ⟨hp, rfl⟩

/-- the second loop compresses whole blocks where they stand -/
theorem whole_takes {s : ShaState} (hp : Buffers h (s, [])) (bytes : Bytes) :
    ∃ s', Buffers (whole h bytes).1 (s', []) ∧ (whole h bytes).2.length < 64 ∧
      absorb (s, []) bytes = absorb (s', []) (whole h bytes).2 := by
  fun_induction whole h bytes generalizing s with
  | case1 h bytes hlong ih =>
    have hblock : (bytes.take 64).length = 64 := by
      rw [List.length_take]
      omega
    have hnext : Buffers { h with state := compress h.state (bytes.take 64) } (compress s (bytes.take 64), []) := by
      have hs : h.state = s := hp.state
      exact ⟨by rw [hs], hp.taken, hp.buffered⟩
    obtain ⟨s', hs', hshort, heq⟩ := ih hnext
    refine ⟨s', hs', hshort, ?_⟩
    calc absorb (s, []) bytes = absorb (s, []) (bytes.take 64 ++ bytes.drop 64) := by rw [List.take_append_drop]
      _ = absorb (compress s (bytes.take 64), []) (bytes.drop 64) := by
        have hclosed : absorb (s, []) (bytes.take 64) = (compress s (bytes.take 64), []) :=
          Blocks.absorb_block (List.ne_nil_of_length_pos (by omega)) (by rw [hblock]; rfl)
        rw [absorb_append, hclosed]
      _ = _ := heq
  | case2 h bytes hshort => exact ⟨s, hp, Nat.lt_of_not_le hshort, rfl⟩

/-- the last loop keeps what is left -/
theorem keep_takes (hp : Buffers h p) {bytes : Bytes} (hroom : p.2.length + bytes.length < 64) :
    Buffers (keep h bytes) (p.1, p.2 ++ bytes) := by
  induction bytes generalizing h p with
  | nil =>
    rw [List.append_nil]
    exact hp
  | cons byte bytes ih =>
    rw [List.length_cons] at hroom
    have hopen : ¬ 64 ≤ h.buffered := by
      rw [hp.buffered]
      omega
    have hnext := ih (buffers_push hp (by omega) byte) (by rw [List.length_append, List.length_singleton]; omega)
    rw [List.append_assoc, List.singleton_append] at hnext
    rw [keep, if_neg hopen]
    exact hnext

/-- the loops behind the first one, from an empty buffer -/
theorem rest_takes {s : ShaState} (hp : Buffers h (s, [])) (bytes : Bytes) :
    Buffers (keep (whole h bytes).1 (whole h bytes).2) (absorb (s, []) bytes) := by
  obtain ⟨s', hs', hshort, heq⟩ := whole_takes hp bytes
  rw [heq, absorb, Blocks.absorb_room (by rw [List.length_nil]; omega)]
  exact keep_takes hs' (by rw [List.length_nil]; omega)

/-- a buffer that is not empty is filled: the block stays open and nothing is left, or it is closed -/
theorem topUp_takes (hp : Buffers h p) (hroom : p.2.length < 64) (data : Bytes) :
    (Buffers (topUp h data).1 (absorb p data) ∧ (topUp h data).2 = []) ∨
      ∃ s, Buffers (topUp h data).1 (s, []) ∧ absorb p data = absorb (s, []) (topUp h data).2 := by
  unfold topUp
  by_cases hempty : h.buffered ≠ 0
  · obtain ⟨hfilled, hleft⟩ := fill_takes hp hroom.le data
    rw [if_pos hempty]
    rcases hfill : fill h data with ⟨f, left⟩
    rw [hfill] at hfilled hleft
    dsimp only at hfilled hleft ⊢
    by_cases hshort : data.length < 64 - p.2.length
    · left
      have hopen : absorb p data = (p.1, p.2 ++ data) := Blocks.absorb_room (by omega)
      have hlt : (p.2 ++ data).length < 64 := by
        rw [List.length_append]
        omega
      rw [List.take_of_length_le hshort.le] at hfilled
      rw [List.drop_eq_nil_of_le hshort.le] at hleft
      rw [if_neg (by rw [hfilled.buffered]; exact hlt.ne), hopen]
      exact ⟨hfilled, hleft⟩
    · right
      have hlength : (data.take (64 - p.2.length)).length = 64 - p.2.length := by
        rw [List.length_take]
        omega
      have hfull : (p.2 ++ data.take (64 - p.2.length)).length = 64 := by
        rw [List.length_append, hlength]
        omega
      have hclosed : absorb p (data.take (64 - p.2.length)) = (compress p.1 (p.2 ++ data.take (64 - p.2.length)), []) :=
        Blocks.absorb_block (List.ne_nil_of_length_pos (by omega)) (by omega)
      rw [if_pos (hfilled.buffered.trans hfull)]
      refine ⟨_, buffers_flush hfilled hfull, ?_⟩
      calc absorb p data = absorb p (data.take (64 - p.2.length) ++ data.drop (64 - p.2.length)) := by
            rw [List.take_append_drop]
        _ = absorb (absorb p (data.take (64 - p.2.length))) (data.drop (64 - p.2.length)) := absorb_append _ _ _
        _ = _ := by rw [hclosed, hleft]
  · have hnil : p.2 = [] := List.eq_nil_of_length_eq_zero (hp.buffered ▸ not_not.mp hempty)
    rw [if_neg hempty]
    refine .inr ⟨p.1, ⟨hp.state, hp.taken.trans hnil, hp.buffered.trans (congrArg List.length hnil)⟩, ?_⟩
    rw [← hnil]

/-- **A piece is taken byte by byte**, whatever its length and however full the buffer is. -/
theorem update_absorbs (hp : Buffers h p) (hroom : p.2.length < 64) (data : Bytes) :
    Buffers (h.update data) (absorb p data) := by
  have hcounted : Buffers { h with bitLength := h.bitLength + UInt64.ofNat data.length * 8 } p :=
    ⟨hp.state, hp.taken, hp.buffered⟩
  unfold update
  rcases topUp_takes hcounted hroom data with ⟨hopen, hleft⟩ | ⟨s, hs, heq⟩
  · -- nothing is left for the other loops
    have hwhole : ∀ g : Sha256, whole g [] = (g, []) := by
      intro g
      rw [whole, if_neg (by decide)]
    dsimp only
    rw [hleft, hwhole]
    exact hopen
  · rw [heq]
    exact rest_takes hs _

end Pieces

/-! ## The length -/

theorem push_bitLength (h : Sha256) (byte : UInt8) : (h.push byte).bitLength = h.bitLength := rfl

theorem fill_bitLength (h : Sha256) (bytes : Bytes) : (fill h bytes).1.bitLength = h.bitLength := by
  induction bytes generalizing h with
  | nil => rfl
  | cons byte bytes ih =>
    unfold fill
    split_ifs
    · exact (ih _).trans (push_bitLength h byte)
    · rfl

theorem whole_bitLength (h : Sha256) (bytes : Bytes) : (whole h bytes).1.bitLength = h.bitLength := by
  fun_induction whole h bytes with
  | case1 h bytes hlong ih => exact ih
  | case2 h bytes hshort => rfl

theorem keep_bitLength (h : Sha256) (bytes : Bytes) : (keep h bytes).bitLength = h.bitLength := by
  induction bytes generalizing h with
  | nil => rfl
  | cons byte bytes ih =>
    rw [keep, ih, push_bitLength]
    split_ifs <;> rfl

theorem topUp_bitLength (h : Sha256) (bytes : Bytes) : (topUp h bytes).1.bitLength = h.bitLength := by
  unfold topUp
  dsimp only
  split_ifs
  · exact fill_bitLength h bytes
  · exact fill_bitLength h bytes
  · rfl

theorem update_bitLength (h : Sha256) (data : Bytes) :
    (h.update data).bitLength = h.bitLength + UInt64.ofNat data.length * 8 := by
  unfold update
  dsimp only
  rw [keep_bitLength, whole_bitLength, topUp_bitLength]

/-- what any pieces leave -/
structure Taken (h : Sha256) (message : Bytes) : Prop where
  buffers : Buffers h (absorb ({}, []) message)
  bitLength : h.bitLength = UInt64.ofNat (8 * message.length)

theorem taken_start : Taken {} [] := ⟨buffers_start, rfl⟩

theorem taken_update {h : Sha256} {message : Bytes} (ht : Taken h message) (data : Bytes) :
    Taken (h.update data) (message ++ data) where
  buffers := by
    have hroom : (absorb ({}, []) message).2.length < 64 := by
      rw [absorb, Blocks.length_absorb (by decide)]
      exact Nat.mod_lt _ (by decide)
    rw [absorb_append]
    exact update_absorbs ht.buffers hroom data
  bitLength := by
    have height : UInt64.ofNat (data.length * 8) = UInt64.ofNat data.length * 8 := UInt64.ofNat_mul _ _
    rw [update_bitLength, ht.bitLength, List.length_append, Nat.mul_add, UInt64.ofNat_add, Nat.mul_comm 8 data.length,
      height]

theorem taken_updates {h : Sha256} {message : Bytes} (ht : Taken h message) (chunks : List Bytes) :
    Taken (chunks.foldl update h) (message ++ chunks.flatten) := by
  induction chunks generalizing h message with
  | nil =>
    rw [List.flatten_nil, List.append_nil]
    exact ht
  | cons chunk chunks ih =>
    rw [List.flatten_cons, ← List.append_assoc]
    exact ih (taken_update ht chunk)

/-! ## Padding -/

theorem buffered_taken {h : Sha256} {message : Bytes} (ht : Taken h message) : h.buffered = message.length % 64 := by
  rw [ht.buffers.buffered, absorb, Blocks.length_absorb (by decide), List.length_nil, Nat.zero_add]

/-- **The loop that pads ends**: it writes zeros up to the place of the length, fewer than a block of them. -/
theorem zeros_ends {fuel : ℕ} {h : Sha256} {message : Bytes} (ht : Taken h message)
    (hfuel : (120 - message.length % 64) % 64 ≤ fuel) :
    ∃ h', zeros fuel h = some h' ∧ Taken h' (message ++ List.replicate ((120 - message.length % 64) % 64) 0) := by
  have hbuffered := buffered_taken ht
  induction fuel generalizing h message with
  | zero =>
    have hplace : message.length % 64 = 56 := by omega
    refine ⟨h, ?_, ?_⟩
    · rw [zeros, if_pos (hbuffered.trans hplace)]
    · rw [hplace]
      exact (List.append_nil message).symm ▸ ht
  | succ fuel ih =>
    by_cases hplace : message.length % 64 = 56
    · refine ⟨h, ?_, ?_⟩
      · rw [zeros, if_pos (hbuffered.trans hplace)]
      · rw [hplace]
        exact (List.append_nil message).symm ▸ ht
    have hnext := taken_update ht [0]
    have hlength : (message ++ [0]).length = message.length + 1 := List.length_append
    have hcount : (120 - message.length % 64) % 64 = (120 - (message ++ [0]).length % 64) % 64 + 1 := by
      rw [hlength]
      omega
    obtain ⟨h', hzeros, htaken⟩ := ih hnext (by omega) (buffered_taken hnext)
    refine ⟨h', ?_, ?_⟩
    · rw [zeros, if_neg (hbuffered ▸ hplace)]
      exact hzeros
    · rw [hcount, List.replicate_succ]
      rw [List.append_assoc, List.singleton_append] at htaken
      exact htaken

/-- a byte of the length, the highest first -/
def lengthByte (bitLength : UInt64) (index : ℕ) : UInt8 :=
  ((bitLength >>> (56 - UInt64.ofNat index * 8)) &&& 0xFF).toUInt8

/-- the loop writes the bytes of the length one behind the other -/
theorem writeLength_takes (h : Sha256) (bitLength : UInt64) :
    (h.writeLength bitLength).state = h.state ∧
      (h.writeLength bitLength).buffer.toList = h.buffer.toList.take 56 ++ (List.range 8).map (lengthByte bitLength) := by
  have hloop : ∀ n ≤ 8, ∀ g, g = (List.range n).foldl (fun (h : Sha256) index => { h with
      buffer := h.buffer.setIfInBounds (56 + index) (lengthByte bitLength index) }) h →
      g.state = h.state ∧
        g.buffer.toList.take (56 + n) = h.buffer.toList.take 56 ++ (List.range n).map (lengthByte bitLength) := by
    intro n hn
    induction n with
    | zero =>
      rintro g rfl
      exact ⟨rfl, (List.append_nil _).symm⟩
    | succ n ih =>
      rintro g rfl
      obtain ⟨hstate, htake⟩ := ih (by omega) _ rfl
      rw [List.range_succ, List.foldl_append, List.foldl_cons, List.foldl_nil, List.map_append, ← List.append_assoc,
        ← htake]
      have hplace : 56 + n < 64 := by omega
      exact ⟨hstate, take_setIfInBounds _ hplace _⟩
  obtain ⟨hstate, htake⟩ := hloop 8 le_rfl (h.writeLength bitLength) rfl
  refine ⟨hstate, ?_⟩
  rw [← htake]
  exact (List.take_of_length_le (le_of_eq Vector.length_toList)).symm

/-! ## The digest -/

theorem toUInt8_and (n : ℕ) (v : UInt64) (hv : v.toNat = n) : (v &&& 0xFF).toUInt8 = UInt8.ofNat (n % 256) := by
  apply UInt8.toNat_inj.mp
  have h255 : (0xFF : UInt64).toNat = 2 ^ 8 - 1 := rfl
  rw [UInt64.toNat_toUInt8, UInt64.toNat_and, hv, h255, Nat.and_two_pow_sub_one_eq_mod, UInt8.toNat_ofNat']

theorem reverse_leBytes (w n : ℕ) :
    (leBytes w n).reverse = (List.range w).map fun k => UInt8.ofNat (n / 256 ^ (w - 1 - k) % 256) := by
  induction w generalizing n with
  | zero => rfl
  | succ w ih =>
    rw [leBytes, List.reverse_cons, ih, List.range_succ, List.map_append, List.map_singleton, Nat.add_sub_cancel,
      Nat.sub_self, pow_zero, Nat.div_one]
    congr 1
    apply List.map_congr_left
    intro k hk
    have hlt := List.mem_range.mp hk
    have hpow : w - k = (w - 1 - k) + 1 := by omega
    rw [hpow, pow_succ', Nat.div_div_eq_div_mul]

/-- the length big-endian -/
theorem lengthBytes_eq (n : ℕ) : (List.range 8).map (lengthByte (UInt64.ofNat n)) = (leBytes 8 n).reverse := by
  rw [reverse_leBytes]
  apply List.map_congr_left
  intro k hk
  have hlt := List.mem_range.mp hk
  have hshift : (56 - UInt64.ofNat k * 8 : UInt64).toNat % 64 = 56 - 8 * k := by
    interval_cases k <;> rfl
  have hvalue : (UInt64.ofNat n >>> (56 - UInt64.ofNat k * 8)).toNat = n % 2 ^ 64 / 2 ^ (56 - 8 * k) := by
    rw [UInt64.toNat_shiftRight, hshift, UInt64.toNat_ofNat', Nat.shiftRight_eq_div_pow]
  rw [lengthByte, toUInt8_and _ _ hvalue]
  congr 1
  interval_cases k <;> omega

/-- block by block from the front -/
theorem compressBlocks_eq (s : ShaState) (bytes : Bytes) :
    compressBlocks (bytes.length / 64) s bytes = Blocks.blockwise compress 64 s bytes := by
  unfold Blocks.blockwise
  generalize bytes.length / 64 = n
  induction n generalizing s bytes with
  | zero => rfl
  | succ n ih =>
    have hdrop : ∀ k, bytes.drop (64 * Nat.succ k) = (bytes.drop 64).drop (64 * k) := by
      intro k
      rw [List.drop_drop, Nat.mul_succ, Nat.add_comm]
    rw [compressBlocks, ih, List.range_succ_eq_map, List.foldl_cons, List.foldl_map]
    simp only [hdrop]
    rfl

theorem wordBytes_eq (v : UInt32) : wordBytes v = (leBytes 4 v.toNat).reverse := by
  have hbyte : ∀ w : UInt32, (w &&& 0xFF).toUInt8 = UInt8.ofNat (w.toNat % 256) := by
    intro w
    apply UInt8.toNat_inj.mp
    have h255 : (0xFF : UInt32).toNat = 2 ^ 8 - 1 := rfl
    rw [UInt32.toNat_toUInt8, UInt32.toNat_and, h255, Nat.and_two_pow_sub_one_eq_mod, UInt8.toNat_ofNat']
  have hshift : ∀ k : UInt32, k.toNat < 32 → (v >>> k).toNat = v.toNat / 2 ^ k.toNat := by
    intro k hk
    rw [UInt32.toNat_shiftRight, Nat.mod_eq_of_lt hk, Nat.shiftRight_eq_div_pow]
  have h24 : (v >>> 24).toNat = v.toNat / 256 ^ 3 := hshift 24 (by decide)
  have h16 : (v >>> 16).toNat = v.toNat / 256 ^ 2 := hshift 16 (by decide)
  have h8 : (v >>> 8).toNat = v.toNat / 256 := hshift 8 (by decide)
  rw [reverse_leBytes, wordBytes, hbyte, hbyte, hbyte, hbyte, h24, h16, h8]
  exact congrArg (fun n => [_, _, _, UInt8.ofNat (n % 256)]) (Nat.div_one v.toNat).symm

theorem digest_eq (message : Bytes) :
    digest (compressBlocks ((shaPad message).length / 64) {} (shaPad message)) = sha256 message := by
  have hbytes : ∀ s, (stateWords s).flatMap wordBytes = (leBytes 4 s.a.toNat).reverse ++ (leBytes 4 s.b.toNat).reverse ++
      (leBytes 4 s.c.toNat).reverse ++ (leBytes 4 s.d.toNat).reverse ++ (leBytes 4 s.e.toNat).reverse ++
      (leBytes 4 s.f.toNat).reverse ++ (leBytes 4 s.g.toNat).reverse ++ (leBytes 4 s.h.toNat).reverse := by
    intro s
    simp only [stateWords, List.flatMap_cons, List.flatMap_nil, List.append_nil, wordBytes_eq, List.append_assoc]
  unfold digest sha256
  congr 1
  exact hbytes _

/-- the last block is closed by the length -/
theorem flush_writeLength {h : Sha256} {padded : Bytes} (ht : Taken h padded) (hplace : padded.length % 64 = 56) (n : ℕ) :
    (h.writeLength (UInt64.ofNat n)).flush.state = Blocks.blockwise compress 64 {} (padded ++ (leBytes 8 n).reverse) := by
  obtain ⟨hstate, hbuffer⟩ := writeLength_takes h (UInt64.ofNat n)
  have hbuffered := buffered_taken ht
  have hlength : ((leBytes 8 n).reverse).length = 8 := by rw [List.length_reverse, leBytes_length]
  have hopen : (absorb ({}, []) padded).2.length = 56 := by rw [← ht.buffers.buffered, hbuffered, hplace]
  have hclosed : absorb (absorb ({}, []) padded) (leBytes 8 n).reverse =
      (compress (absorb ({}, []) padded).1 ((absorb ({}, []) padded).2 ++ (leBytes 8 n).reverse), []) :=
    Blocks.absorb_block (List.ne_nil_of_length_pos (by omega)) (by omega)
  have htake : h.buffer.toList.take 56 = (absorb ({}, []) padded).2 := by
    rw [← ht.buffers.taken, hbuffered, hplace]
  calc (h.writeLength (UInt64.ofNat n)).flush.state
      = compress (absorb ({}, []) padded).1 ((absorb ({}, []) padded).2 ++ (leBytes 8 n).reverse) := by
        rw [flush, hstate, hbuffer, ht.buffers.state, htake, lengthBytes_eq]
    _ = (absorb ({}, []) (padded ++ (leBytes 8 n).reverse)).1 := by rw [absorb_append, hclosed]
    _ = _ := Blocks.absorb_blockwise (by decide) _ _

/-- **Streaming computes the digest of the concatenation.** Whatever the pieces, the loop that pads ends within 63 rounds,
and the digest is that of all the bytes. -/
theorem finish_eq {fuel : ℕ} (hfuel : 63 ≤ fuel) (chunks : List Bytes) :
    finish fuel (chunks.foldl update {}) = some (sha256 chunks.flatten) := by
  have htaken := taken_updates taken_start chunks
  rw [List.nil_append] at htaken
  generalize chunks.foldl update {} = h at htaken ⊢
  generalize chunks.flatten = message at htaken ⊢
  have hlength : (message ++ [0x80]).length = message.length + 1 := List.length_append
  obtain ⟨h', hzeros, hpadded⟩ := zeros_ends (taken_update htaken [0x80]) (show _ ≤ fuel by omega)
  have hcount : (120 - (message ++ [0x80]).length % 64) % 64 = (119 - message.length % 64) % 64 := by
    rw [hlength]
    omega
  rw [hcount] at hpadded
  have hplace : (message ++ [0x80] ++ List.replicate ((119 - message.length % 64) % 64) 0).length % 64 = 56 := by
    rw [List.length_append, List.length_replicate, hlength]
    omega
  have hpad : message ++ [0x80] ++ List.replicate ((119 - message.length % 64) % 64) 0 ++
      (leBytes 8 (8 * message.length)).reverse = shaPad message := by
    rw [shaPad, List.append_assoc message, List.singleton_append]
  have hfinal := flush_writeLength hpadded hplace (8 * message.length)
  rw [hpad, ← compressBlocks_eq, ← htaken.bitLength] at hfinal
  unfold finish
  rw [hzeros, Option.map_some, hfinal]
  exact congrArg some (digest_eq _)

end Sha256

/-! ## The standard -/

/-- the hash value of the standard -/
def hashValue (s : ShaState) : SecureHash.Variables := ⟨s.a, s.b, s.c, s.d, s.e, s.f, s.g, s.h⟩

theorem roundConstants_eq : roundConstants = SecureHash.constants := by decide +kernel

theorem hashValue_start : hashValue {} = SecureHash.initial := by decide +kernel

theorem number_byte (b : UInt8) : number (bitsOf 8 b.toNat) = b.toNat := by
  rw [SecureHash.number_bitsOf, Nat.mod_eq_of_lt b.toNat_lt]

/-- four bytes are a word -/
theorem word_bytes (b0 b1 b2 b3 : UInt8) : word (bytesBits [b0, b1, b2, b3]) =
    (b0.toUInt32 <<< 24) ||| (b1.toUInt32 <<< 16) ||| (b2.toUInt32 <<< 8) ||| b3.toUInt32 := by
  have hnumber : number (bytesBits [b0, b1, b2, b3]) =
      ((b0.toNat * 2 ^ 8 + b1.toNat) * 2 ^ 8 + b2.toNat) * 2 ^ 8 + b3.toNat := by
    simp only [bytesBits, List.flatMap_cons, List.flatMap_nil, List.append_nil, SecureHash.number_append, number_byte,
      List.length_append, SecureHash.length_bitsOf]
    ring
  -- the shifted bytes do not overlap
  have hor : ∀ (a b : ℕ) (k : ℕ), b < 2 ^ 8 → a <<< (8 + k) ||| b <<< k = (a * 2 ^ 8 + b) <<< k := by
    intro a b k hb
    rw [Nat.shiftLeft_add, ← Nat.shiftLeft_or_distrib, ← Nat.shiftLeft_add_eq_or_of_lt hb, Nat.shiftLeft_eq a 8]
  have hshift : ∀ (b : UInt8) (k : UInt32), k.toNat + 8 ≤ 32 → (b.toUInt32 <<< k).toNat = b.toNat <<< k.toNat := by
    intro b k hk
    have hlt : b.toNat <<< k.toNat < 2 ^ 32 := by
      rw [Nat.shiftLeft_eq]
      calc b.toNat * 2 ^ k.toNat < 2 ^ 8 * 2 ^ k.toNat := Nat.mul_lt_mul_of_pos_right b.toNat_lt (Nat.two_pow_pos _)
        _ = 2 ^ (8 + k.toNat) := (pow_add 2 8 k.toNat).symm
        _ ≤ 2 ^ 32 := Nat.pow_le_pow_right (by decide) (by omega)
    have hk' : k.toNat % 32 = k.toNat := Nat.mod_eq_of_lt (by omega)
    rw [UInt32.toNat_shiftLeft, UInt8.toNat_toUInt32, hk', Nat.mod_eq_of_lt hlt]
  have h24 : (b0.toUInt32 <<< 24).toNat = b0.toNat <<< 24 := hshift b0 24 (by decide)
  have h16 : (b1.toUInt32 <<< 16).toNat = b1.toNat <<< 16 := hshift b1 16 (by decide)
  have h8 : (b2.toUInt32 <<< 8).toNat = b2.toNat <<< 8 := hshift b2 8 (by decide)
  apply UInt32.toNat_inj.mp
  rw [word, hnumber, UInt32.toNat_or, UInt32.toNat_or, UInt32.toNat_or, h24, h16, h8, UInt8.toNat_toUInt32,
    UInt32.toNat_ofNat']
  have h0 := b0.toNat_lt
  have h1 := b1.toNat_lt
  have h2 := b2.toNat_lt
  have h3 := b3.toNat_lt
  have hlow : b3.toNat = b3.toNat <<< 0 := rfl
  rw [hlow, hor _ _ 16 h1, hor _ _ 8 h2, hor _ _ 0 h3, Nat.mod_eq_of_lt (by omega)]
  exact (Nat.shiftLeft_zero).symm

theorem length_bytesBits (bytes : Bytes) : (bytesBits bytes).length = 8 * bytes.length :=
  Blocks.length_flatMap (fun _ => SecureHash.length_bitsOf 8 _) bytes

theorem bytesBits_append (xs ys : Bytes) : bytesBits (xs ++ ys) = bytesBits xs ++ bytesBits ys := List.flatMap_append

/-- the words of a block, read from its bytes or from its bits -/
theorem beWords_eq (n : ℕ) {bytes : Bytes} (hlength : bytes.length = 4 * n) :
    beWords bytes = (List.range n).map (SecureHash.words (bytesBits bytes)) := by
  induction n generalizing bytes with
  | zero =>
    obtain rfl : bytes = [] := List.eq_nil_of_length_eq_zero hlength
    rfl
  | succ n ih =>
    obtain ⟨b0, b1, b2, b3, rest, rfl⟩ : ∃ b0 b1 b2 b3 rest, bytes = b0 :: b1 :: b2 :: b3 :: rest := by
      rcases bytes with _ | ⟨b0, _ | ⟨b1, _ | ⟨b2, _ | ⟨b3, rest⟩⟩⟩⟩
      · simp at hlength
      · simp at hlength; omega
      · simp at hlength; omega
      · simp at hlength; omega
      · exact ⟨b0, b1, b2, b3, rest, rfl⟩
    have hrest : rest.length = 4 * n := by
      simp only [List.length_cons] at hlength
      omega
    have hsplit : bytesBits (b0 :: b1 :: b2 :: b3 :: rest) = bytesBits [b0, b1, b2, b3] ++ bytesBits rest :=
      bytesBits_append [b0, b1, b2, b3] rest
    have hfirst : (bytesBits [b0, b1, b2, b3]).length = 32 := length_bytesBits _
    have hzero : SecureHash.words (bytesBits (b0 :: b1 :: b2 :: b3 :: rest)) 0 = word (bytesBits [b0, b1, b2, b3]) := by
      rw [SecureHash.words, Nat.mul_zero, List.drop_zero, hsplit, List.take_left' hfirst]
    have hsucc : ∀ t, SecureHash.words (bytesBits (b0 :: b1 :: b2 :: b3 :: rest)) (Nat.succ t) =
        SecureHash.words (bytesBits rest) t := by
      intro t
      rw [SecureHash.words, SecureHash.words, Nat.mul_succ, Nat.add_comm, ← List.drop_drop, hsplit, List.drop_left' hfirst]
    rw [beWords, ih hrest, List.range_succ_eq_map, List.map_cons, List.map_map, hzero, word_bytes]
    exact congrArg _ (List.map_congr_left fun t _ => (hsucc t).symm)

/-- the schedule is the one of the standard, its words so far newest first -/
theorem extend_eq (m : ℕ → UInt32) (n k : ℕ) :
    extend n ((List.range (16 + k)).map (SecureHash.schedule m)).reverse =
      ((List.range (16 + k + n)).map (SecureHash.schedule m)).reverse := by
  induction n generalizing k with
  | zero => rfl
  | succ n ih =>
    have hword : ∀ j, 0 < j → j ≤ 16 →
        (((List.range (16 + k)).map (SecureHash.schedule m)).reverse).getD (j - 1) 0 =
          SecureHash.schedule m (16 + k - j) := by
      intro j hpos hle
      rw [List.getD_eq_getElem?_getD, List.getElem?_reverse (by simp; omega), List.getElem?_map, List.length_map,
        List.length_range, List.getElem?_range (by omega), Option.map_some, Option.getD_some]
      congr 1
      omega
    have hnext : SecureHash.schedule m (16 + k) = SecureHash.schedule m (16 + k - 16) +
        SecureHash.sigma0 (SecureHash.schedule m (16 + k - 15)) + SecureHash.schedule m (16 + k - 7) +
        SecureHash.sigma1 (SecureHash.schedule m (16 + k - 2)) := by
      rw [SecureHash.schedule.eq_def, if_neg (by omega)]
      ac_rfl
    have hnewest : ((List.range (16 + (k + 1))).map (SecureHash.schedule m)).reverse =
        SecureHash.schedule m (16 + k) :: ((List.range (16 + k)).map (SecureHash.schedule m)).reverse := by
      rw [← Nat.add_assoc, List.range_succ, List.map_append, List.reverse_append]
      rfl
    have hcount : 16 + k + (n + 1) = 16 + (k + 1) + n := by omega
    rw [hcount, ← ih (k + 1), hnewest, hnext, extend]
    dsimp only
    rw [hword 16 (by decide) le_rfl, hword 15 (by decide) (by decide), hword 7 (by decide) (by decide),
      hword 2 (by decide) (by decide)]
    rfl

/-- **One block**, compressed as in the standard -/
theorem compress_bits (s : ShaState) {block : Bytes} (hlength : block.length = 64) :
    hashValue (compress s block) = SecureHash.compress (hashValue s) (bytesBits block) := by
  have hwords : (extend 48 (beWords block).reverse).reverse =
      (List.range 64).map (SecureHash.schedule (SecureHash.words (bytesBits block))) := by
    have hfirst : beWords block = (List.range 16).map (SecureHash.schedule (SecureHash.words (bytesBits block))) := by
      rw [beWords_eq 16 hlength]
      apply List.map_congr_left
      intro t ht
      rw [SecureHash.schedule.eq_def, if_pos (List.mem_range.mp ht)]
    have hextend := extend_eq (SecureHash.words (bytesBits block)) 48 0
    rw [Nat.add_zero] at hextend
    rw [hfirst, hextend, List.reverse_reverse]
  have hconstants : roundConstants = (List.range 64).map fun t => SecureHash.constants.getD t 0 := by
    rw [← roundConstants_eq]
    rfl
  have hround : ∀ (v : ShaState) (k w : UInt32), hashValue (shaRound v (k, w)) = SecureHash.round (hashValue v) k w :=
    fun _ _ _ => rfl
  have hrounds : ∀ (ts : List ℕ) (v : ShaState), hashValue (ts.foldl (fun v t => shaRound v
        (SecureHash.constants.getD t 0, SecureHash.schedule (SecureHash.words (bytesBits block)) t)) v) =
      ts.foldl (fun v t => SecureHash.round v (SecureHash.constants.getD t 0)
        (SecureHash.schedule (SecureHash.words (bytesBits block)) t)) (hashValue v) := by
    intro ts
    induction ts with
    | nil => exact fun v => rfl
    | cons t ts ih =>
      intro v
      rw [List.foldl_cons, List.foldl_cons, ih, hround]
  have hzip : roundConstants.zip (extend 48 (beWords block).reverse).reverse = (List.range 64).map fun t =>
      (SecureHash.constants.getD t 0, SecureHash.schedule (SecureHash.words (bytesBits block)) t) := by
    rw [hwords, hconstants, List.zip_map']
  unfold compress SecureHash.compress
  dsimp only
  rw [hzip, List.foldl_map, ← hrounds]
  generalize List.foldl _ s (List.range 64) = v
  simp only [hashValue, UInt32.add_comm]

/-- a number, big-endian -/
theorem bytesBits_reverse (w n : ℕ) : bytesBits (leBytes w n).reverse = bitsOf (8 * w) n := by
  induction w generalizing n with
  | zero => rfl
  | succ w ih =>
    have hbyte : bytesBits [UInt8.ofNat (n % 256)] = bitsOf 8 n := by
      rw [bytesBits, List.flatMap_cons, List.flatMap_nil, List.append_nil, UInt8.toNat_ofNat', Nat.mod_mod]
      exact SecureHash.bitsOf_mod 8 n
    rw [leBytes, List.reverse_cons, bytesBits_append, ih, hbyte, Nat.mul_succ, SecureHash.bitsOf_append,
      Nat.shiftRight_eq_div_pow]

/-- the padding of the standard, in bytes -/
theorem padded_bits (bytes : Bytes) : bytesBits (shaPad bytes) = SecureHash.padded (bytesBits bytes) := by
  have hzeros : ∀ n, bytesBits (List.replicate n 0) = List.replicate (8 * n) false := by
    intro n
    induction n with
    | zero => rfl
    | succ n ih =>
      have hzero : bytesBits [0] = List.replicate 8 false := by decide
      have hcons : bytesBits (0 :: List.replicate n 0) = bytesBits [0] ++ bytesBits (List.replicate n 0) :=
        bytesBits_append [0] _
      rw [List.replicate_succ, hcons, hzero, ih, List.replicate_append_replicate, Nat.mul_succ, Nat.add_comm]
  have hmark : bytesBits [0x80] = true :: List.replicate 7 false := by decide
  have hcount : 7 + 8 * ((119 - bytes.length % 64) % 64) = SecureHash.zeros (8 * bytes.length) := by
    unfold SecureHash.zeros
    omega
  have hcons : shaPad bytes = bytes ++ ([0x80] ++ List.replicate ((119 - bytes.length % 64) % 64) 0) ++
      (leBytes 8 (8 * bytes.length)).reverse := rfl
  rw [hcons, bytesBits_append, bytesBits_append, bytesBits_append, hmark, hzeros, bytesBits_reverse, List.cons_append,
    List.replicate_append_replicate, hcount, SecureHash.padded, length_bytesBits]

/-- **The digest is that of the standard.** -/
theorem sha256_bits (bytes : Bytes) : bytesBits (sha256 bytes).bytes = SecureHash.sha256 (bytesBits bytes) := by
  have hblocks : hashValue (Blocks.blockwise compress 64 {} (shaPad bytes)) =
      Blocks.blockwise SecureHash.compress 512 SecureHash.initial (SecureHash.padded (bytesBits bytes)) := by
    rw [← padded_bits, ← hashValue_start]
    exact (Blocks.blockwise_flatMap (fun _ => SecureHash.length_bitsOf 8 _) (by decide)
      (fun s block hlength => compress_bits s hlength) {} (shaPad bytes)).symm
  have hword : ∀ w : UInt32, bytesBits (Sha256.wordBytes w) = bitsOf 32 w.toNat := by
    intro w
    rw [Sha256.wordBytes_eq]
    exact bytesBits_reverse 4 w.toNat
  have hdigest : (sha256 bytes).bytes =
      (Sha256.stateWords (Blocks.blockwise compress 64 {} (shaPad bytes))).flatMap Sha256.wordBytes := by
    rw [← Sha256.digest_eq, Sha256.compressBlocks_eq]
    rfl
  unfold SecureHash.sha256
  rw [← hblocks, hdigest]
  generalize Blocks.blockwise compress 64 {} (shaPad bytes) = s
  simp only [Sha256.stateWords, hashValue, List.flatMap_cons, List.flatMap_nil, bytesBits_append, hword]
  rfl

/-- **Streaming is SHA-256.** Whatever the pieces, `finish` ends, and the digest is that of the standard for all the bytes
that were taken. -/
theorem finish_exact (chunks : List Bytes) :
    (∀ fuel, Sha256.finish (63 + fuel) (chunks.foldl Sha256.update {}) = some (sha256 chunks.flatten)) ∧
      bytesBits (sha256 chunks.flatten).bytes = SecureHash.sha256 (bytesBits chunks.flatten) :=
  ⟨fun _ => Sha256.finish_eq (Nat.le_add_right _ _) chunks, sha256_bits _⟩

end FaultContainment.Digest
