/-
The secure hash algorithm SHA-256 of FIPS 180-4, on messages of bits.

The words of the standard are 32-bit numbers, the highest bit first; its constants are given by what it says they are:
fractional parts of the roots of the first primes.

- `isLeast_zeros`: the padding is the shortest that fills a block.
- `length_padded`: what is hashed is whole blocks.
- `number_append`, `number_bitsOf`, `bitsOf_append`: numbers and their bits.
-/
import Mathlib.Data.Nat.NthRoot.Defs
import FaultContainment.Lib.Blocks

namespace FaultContainment.Lib.SecureHash

/-! ## Bits -/

/-- the lowest bits of a number, the highest of them first -/
def bitsOf : ℕ → ℕ → List Bool
  | 0, _ => []
  | n + 1, v => v.testBit n :: bitsOf n v

/-- the number that bits denote -/
def number (bits : List Bool) : ℕ := bits.foldl (fun v b => 2 * v + b.toNat) 0

/-- the word that bits denote -/
def word (bits : List Bool) : UInt32 := UInt32.ofNat (number bits)

/-- the bits of bytes -/
def bytesBits (bs : List UInt8) : List Bool := bs.flatMap fun b => bitsOf 8 b.toNat

/-! ## Functions -/

def rotr (n x : UInt32) : UInt32 := (x >>> n) ||| (x <<< (32 - n))
def ch (x y z : UInt32) : UInt32 := (x &&& y) ^^^ (~~~x &&& z)
def maj (x y z : UInt32) : UInt32 := (x &&& y) ^^^ (x &&& z) ^^^ (y &&& z)
def bigSigma0 (x : UInt32) : UInt32 := rotr 2 x ^^^ rotr 13 x ^^^ rotr 22 x
def bigSigma1 (x : UInt32) : UInt32 := rotr 6 x ^^^ rotr 11 x ^^^ rotr 25 x
def sigma0 (x : UInt32) : UInt32 := rotr 7 x ^^^ rotr 18 x ^^^ (x >>> 3)
def sigma1 (x : UInt32) : UInt32 := rotr 17 x ^^^ rotr 19 x ^^^ (x >>> 10)

/-! ## Constants -/

/-- the first 32 bits of the fractional part of a root -/
def fraction (k p : ℕ) : UInt32 := UInt32.ofNat (Nat.nthRoot k (p * 2 ^ (32 * k)))

/-- the first 64 primes -/
def primes : List ℕ :=
  [2, 3, 5, 7, 11, 13, 17, 19, 23, 29, 31, 37, 41, 43, 47, 53, 59, 61, 67, 71, 73, 79, 83, 89, 97, 101, 103, 107, 109, 113,
   127, 131, 137, 139, 149, 151, 157, 163, 167, 173, 179, 181, 191, 193, 197, 199, 211, 223, 227, 229, 233, 239, 241, 251,
   257, 263, 269, 271, 277, 281, 283, 293, 307, 311]

/-- one constant for each round -/
def constants : List UInt32 := primes.map (fraction 3)

/-- the working variables, and the hash value between two blocks -/
structure Variables where
  a : UInt32
  b : UInt32
  c : UInt32
  d : UInt32
  e : UInt32
  f : UInt32
  g : UInt32
  h : UInt32
deriving DecidableEq

/-- the initial hash value -/
def initial : Variables where
  a := fraction 2 2
  b := fraction 2 3
  c := fraction 2 5
  d := fraction 2 7
  e := fraction 2 11
  f := fraction 2 13
  g := fraction 2 17
  h := fraction 2 19

/-! ## Hash computation -/

/-- the message schedule of a block of words -/
def schedule (m : ℕ → UInt32) (t : ℕ) : UInt32 :=
  if t < 16 then m t
  else sigma1 (schedule m (t - 2)) + schedule m (t - 7) + sigma0 (schedule m (t - 15)) + schedule m (t - 16)
termination_by t

/-- one round -/
def round (v : Variables) (k w : UInt32) : Variables :=
  let t1 := v.h + bigSigma1 v.e + ch v.e v.f v.g + k + w
  let t2 := bigSigma0 v.a + maj v.a v.b v.c
  { a := t1 + t2, b := v.a, c := v.b, d := v.c, e := v.d + t1, f := v.e, g := v.f, h := v.g }

/-- the words of a block of bits -/
def words (block : List Bool) (t : ℕ) : UInt32 := word ((block.drop (32 * t)).take 32)

/-- the next hash value -/
def compress (s : Variables) (block : List Bool) : Variables :=
  let v := (List.range 64).foldl (fun v t => round v (constants.getD t 0) (schedule (words block) t)) s
  { a := v.a + s.a, b := v.b + s.b, c := v.c + s.c, d := v.d + s.d,
    e := v.e + s.e, f := v.f + s.f, g := v.g + s.g, h := v.h + s.h }

/-- how many zeros follow the one that ends the message -/
def zeros (len : ℕ) : ℕ := (448 + 512 - (len + 1) % 512) % 512

/-- the padded message -/
def padded (m : List Bool) : List Bool := m ++ true :: List.replicate (zeros m.length) false ++ bitsOf 64 m.length

/-- the message digest -/
def sha256 (m : List Bool) : List Bool :=
  let v := Blocks.blockwise compress 512 initial (padded m)
  [v.a, v.b, v.c, v.d, v.e, v.f, v.g, v.h].flatMap fun w => bitsOf 32 w.toNat

/-! ## Numbers and their bits -/

theorem length_bitsOf (n v : ℕ) : (bitsOf n v).length = n := by
  induction n with
  | zero => rfl
  | succ n ih => rw [bitsOf, List.length_cons, ih]

/-- only the lowest bits count -/
theorem bitsOf_mod (n v : ℕ) : bitsOf n (v % 2 ^ n) = bitsOf n v := by
  have hlow : ∀ k ≤ n, bitsOf k (v % 2 ^ n) = bitsOf k v := by
    intro k hk
    induction k with
    | zero => rfl
    | succ k ih =>
      rw [bitsOf, bitsOf, ih (by omega), Nat.testBit_mod_two_pow, decide_eq_true (by omega), Bool.true_and]
  exact hlow n le_rfl

/-- the high bits stand in front -/
theorem bitsOf_append (m n v : ℕ) : bitsOf (m + n) v = bitsOf m (v >>> n) ++ bitsOf n v := by
  induction m with
  | zero => rw [Nat.zero_add]; rfl
  | succ m ih =>
    rw [Nat.succ_add, bitsOf, bitsOf, ih, Nat.testBit_shiftRight, Nat.add_comm n m]
    rfl

theorem foldl_number (v : ℕ) (bits : List Bool) :
    bits.foldl (fun v b => 2 * v + b.toNat) v = v * 2 ^ bits.length + number bits := by
  induction bits generalizing v with
  | nil => rw [List.length_nil, pow_zero, Nat.mul_one]; rfl
  | cons b bits ih =>
    have hnumber : number (b :: bits) = (2 * 0 + b.toNat) * 2 ^ bits.length + number bits := ih (2 * 0 + b.toNat)
    rw [List.foldl_cons, ih, hnumber, List.length_cons, pow_succ]
    ring

theorem number_append (a b : List Bool) : number (a ++ b) = number a * 2 ^ b.length + number b := by
  rw [number, List.foldl_append, foldl_number]
  rfl

/-- the bits of a number denote it -/
theorem number_bitsOf (n v : ℕ) : number (bitsOf n v) = v % 2 ^ n := by
  induction n with
  | zero => exact (Nat.mod_one v).symm
  | succ n ih =>
    have hcons : bitsOf (n + 1) v = [v.testBit n] ++ bitsOf n v := rfl
    have hone : number [v.testBit n] = (v.testBit n).toNat := by
      rw [number, List.foldl_cons, List.foldl_nil]
      omega
    rw [hcons, number_append, ih, length_bitsOf, hone, Nat.toNat_testBit, Nat.mod_pow_succ]
    ring

/-! ## Padding -/

/-- the least number of zeros for which a length of 64 bits fills the last block -/
theorem isLeast_zeros (len : ℕ) : IsLeast {k | (len + 1 + k) % 512 = 448} (zeros len) := by
  have hlt := Nat.mod_lt (len + 1) (by decide : 0 < 512)
  constructor
  · change (len + 1 + zeros len) % 512 = 448
    unfold zeros
    omega
  · intro k hk
    have hk' : (len + 1 + k) % 512 = 448 := hk
    unfold zeros
    omega

theorem length_padded (m : List Bool) : (padded m).length % 512 = 0 := by
  have hzeros : (m.length + 1 + zeros m.length) % 512 = 448 := (isLeast_zeros m.length).1
  rw [padded, List.length_append, List.length_append, List.length_cons, List.length_replicate, length_bitsOf]
  omega

end FaultContainment.Lib.SecureHash
