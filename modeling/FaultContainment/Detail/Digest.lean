/-
CRC32C and SHA-256 over byte strings (`crc32c.cpp`, `sha256.cpp`).

Both are computed as the sources compute them, the incremental buffering of SHA-256 apart: the model hashes the padded
message block by block, which is what `update` and `finish` do for any split of the input.
-/
import FaultContainment.Types.Records

namespace FaultContainment.Digest

open FaultContainment.Lib FaultContainment.Records

/-! ## CRC32C -/

/-- one table entry: eight steps of the reflected polynomial 0x82F63B78 -/
def crcEntry (i : UInt32) : UInt32 :=
  Nat.iterate (fun crc => if crc &&& 1 ≠ 0 then (crc >>> 1) ^^^ 0x82F63B78 else crc >>> 1) 8 i

/-- `Crc32c::update` on one byte -/
def crcByte (crc : UInt32) (b : UInt8) : UInt32 := crcEntry ((crc ^^^ b.toUInt32) &&& 0xFF) ^^^ (crc >>> 8)

/-- `Crc32c::compute` -/
def crc32c (bs : Bytes) : UInt32 := bs.foldl crcByte 0xFFFFFFFF ^^^ 0xFFFFFFFF

/-! ## SHA-256 -/

/-- round constants -/
def roundConstants : List UInt32 :=
  [0x428a2f98, 0x71374491, 0xb5c0fbcf, 0xe9b5dba5, 0x3956c25b, 0x59f111f1, 0x923f82a4, 0xab1c5ed5,
   0xd807aa98, 0x12835b01, 0x243185be, 0x550c7dc3, 0x72be5d74, 0x80deb1fe, 0x9bdc06a7, 0xc19bf174,
   0xe49b69c1, 0xefbe4786, 0x0fc19dc6, 0x240ca1cc, 0x2de92c6f, 0x4a7484aa, 0x5cb0a9dc, 0x76f988da,
   0x983e5152, 0xa831c66d, 0xb00327c8, 0xbf597fc7, 0xc6e00bf3, 0xd5a79147, 0x06ca6351, 0x14292967,
   0x27b70a85, 0x2e1b2138, 0x4d2c6dfc, 0x53380d13, 0x650a7354, 0x766a0abb, 0x81c2c92e, 0x92722c85,
   0xa2bfe8a1, 0xa81a664b, 0xc24b8b70, 0xc76c51a3, 0xd192e819, 0xd6990624, 0xf40e3585, 0x106aa070,
   0x19a4c116, 0x1e376c08, 0x2748774c, 0x34b0bcb5, 0x391c0cb3, 0x4ed8aa4a, 0x5b9cca4f, 0x682e6ff3,
   0x748f82ee, 0x78a5636f, 0x84c87814, 0x8cc70208, 0x90befffa, 0xa4506ceb, 0xbef9a3f7, 0xc67178f2]

def rotr (v : UInt32) (bits : UInt32) : UInt32 := (v >>> bits) ||| (v <<< (32 - bits))

/-- the eight working variables -/
structure ShaState where
  a : UInt32 := 0x6a09e667
  b : UInt32 := 0xbb67ae85
  c : UInt32 := 0x3c6ef372
  d : UInt32 := 0xa54ff53a
  e : UInt32 := 0x510e527f
  f : UInt32 := 0x9b05688c
  g : UInt32 := 0x1f83d9ab
  h : UInt32 := 0x5be0cd19

/-- big-endian words of a block -/
def beWords : Bytes → List UInt32
  | b0 :: b1 :: b2 :: b3 :: rest =>
    ((b0.toUInt32 <<< 24) ||| (b1.toUInt32 <<< 16) ||| (b2.toUInt32 <<< 8) ||| b3.toUInt32) :: beWords rest
  | _ => []

/-- the message schedule; the words so far are held newest first -/
def extend : ℕ → List UInt32 → List UInt32
  | 0, ws => ws
  | n + 1, ws =>
    let w := fun i => ws.getD (i - 1) 0
    let s0 := rotr (w 15) 7 ^^^ rotr (w 15) 18 ^^^ (w 15 >>> 3)
    let s1 := rotr (w 2) 17 ^^^ rotr (w 2) 19 ^^^ (w 2 >>> 10)
    extend n ((w 16 + s0 + w 7 + s1) :: ws)

/-- one round -/
def shaRound (s : ShaState) (kw : UInt32 × UInt32) : ShaState :=
  let s1 := rotr s.e 6 ^^^ rotr s.e 11 ^^^ rotr s.e 25
  let ch := (s.e &&& s.f) ^^^ (~~~s.e &&& s.g)
  let temp1 := s.h + s1 + ch + kw.1 + kw.2
  let s0 := rotr s.a 2 ^^^ rotr s.a 13 ^^^ rotr s.a 22
  let maj := (s.a &&& s.b) ^^^ (s.a &&& s.c) ^^^ (s.b &&& s.c)
  { a := temp1 + (s0 + maj), b := s.a, c := s.b, d := s.c, e := s.d + temp1, f := s.e, g := s.f, h := s.g }

/-- `compress` -/
def compress (s : ShaState) (block : Bytes) : ShaState :=
  let w := (extend 48 (beWords block).reverse).reverse
  let t := (roundConstants.zip w).foldl shaRound s
  { a := s.a + t.a, b := s.b + t.b, c := s.c + t.c, d := s.d + t.d,
    e := s.e + t.e, f := s.f + t.f, g := s.g + t.g, h := s.h + t.h }

/-- a 0x80 byte, zeros up to 56 modulo 64, and the bit length big-endian -/
def shaPad (bs : Bytes) : Bytes :=
  bs ++ 0x80 :: List.replicate ((119 - bs.length % 64) % 64) 0 ++ (leBytes 8 (8 * bs.length)).reverse

/-- `n` blocks of 64 bytes -/
def compressBlocks : ℕ → ShaState → Bytes → ShaState
  | 0, s, _ => s
  | n + 1, s, bs => compressBlocks n (compress s (bs.take 64)) (bs.drop 64)

/-- `Sha256::compute` -/
def sha256 (bs : Bytes) : Digest :=
  let padded := shaPad bs
  let s := compressBlocks (padded.length / 64) {} padded
  let be := fun v : UInt32 => (leBytes 4 v.toNat).reverse
  ⟨be s.a ++ be s.b ++ be s.c ++ be s.d ++ be s.e ++ be s.f ++ be s.g ++ be s.h, by simp [be]⟩

end FaultContainment.Digest
