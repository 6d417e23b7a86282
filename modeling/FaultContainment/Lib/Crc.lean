/-
Reflected cyclic redundancy checks of any width, one message bit at a time.

The register moves one place for each message bit, and the polynomial is added when a one falls out at the low end. That
step is linear, and it can be undone when the polynomial has its top coefficient: everything below follows from the two.

- `register_eq`: up to a register's width of message bits act as a word that is added before the steps.
- `register_byte`: eight bits at a time, through a table of the steps of a byte.
- `register_ne`: a burst no longer than the register never goes unnoticed.
-/
import Mathlib.Tactic

namespace FaultContainment.Lib.Crc

variable {w : ℕ}

/-- the bits of a byte, least significant first -/
def bitsOf (b : UInt8) : List Bool := List.ofFn fun i : Fin 8 => b.toBitVec.getLsbD i

/-- the bits of a message -/
def bits (bs : List UInt8) : List Bool := bs.flatMap bitsOf

/-- the register moves one place -/
def shift (poly r : BitVec w) : BitVec w := if r.getLsbD 0 then (r >>> 1) ^^^ poly else r >>> 1

/-- a message bit enters at the low end -/
def feed (poly r : BitVec w) (b : Bool) : BitVec w := shift poly (r ^^^ (BitVec.ofBool b).setWidth w)

/-- the register after a message -/
def register (poly r : BitVec w) (message : List Bool) : BitVec w := message.foldl (feed poly) r

/-- the check value of a message, for a polynomial that is written with its highest coefficient first -/
def reflected (poly init final : BitVec w) (bs : List UInt8) : BitVec w :=
  register poly.reverse init (bits bs) ^^^ final

/-! ## The step -/

/-- **The step is linear.** -/
theorem shift_xor (poly a b : BitVec w) : shift poly (a ^^^ b) = shift poly a ^^^ shift poly b := by
  have hshift : (a ^^^ b) >>> 1 = a >>> 1 ^^^ b >>> 1 := BitVec.ushiftRight_xor_distrib a b 1
  unfold shift
  rw [BitVec.getLsbD_xor, hshift]
  cases a.getLsbD 0 with
  | false =>
    cases b.getLsbD 0 with
    | false => rfl
    | true => exact BitVec.xor_assoc _ _ _
  | true =>
    cases b.getLsbD 0 with
    | false => exact (BitVec.xor_assoc _ _ _).trans ((congrArg _ (BitVec.xor_comm _ _)).trans (BitVec.xor_assoc _ _ _).symm)
    | true =>
      -- the polynomial comes twice
      have htwice : ∀ x y : BitVec w, x ^^^ y = (x ^^^ poly) ^^^ (y ^^^ poly) := by
        intro x y
        rw [BitVec.xor_assoc, BitVec.xor_comm y, ← BitVec.xor_assoc poly, BitVec.xor_self, BitVec.zero_xor]
      exact htwice _ _

theorem iterate_shift_xor (poly : BitVec w) (n : ℕ) (a b : BitVec w) :
    (shift poly)^[n] (a ^^^ b) = (shift poly)^[n] a ^^^ (shift poly)^[n] b := by
  induction n generalizing a b with
  | zero => rfl
  | succ n ih => rw [Function.iterate_succ_apply, Function.iterate_succ_apply, Function.iterate_succ_apply, shift_xor, ih]

/-- no one falls out of a word whose low bits are clear -/
theorem iterate_shift_high (poly : BitVec w) (n : ℕ) {a : BitVec w} (h : ∀ i < n, a.getLsbD i = false) :
    (shift poly)^[n] a = a >>> n := by
  induction n generalizing a with
  | zero => rw [Function.iterate_zero_apply, BitVec.ushiftRight_zero]
  | succ n ih =>
    have hlow : shift poly a = a >>> 1 := by
      rw [shift, h 0 (Nat.succ_pos n)]
      rfl
    rw [Function.iterate_succ_apply, hlow, ih, ← BitVec.shiftRight_add, Nat.add_comm]
    intro i hi
    rw [BitVec.getLsbD_ushiftRight]
    exact h (1 + i) (by omega)

/-- **The step can be undone** when the polynomial has its top coefficient: that bit tells what fell out. -/
theorem shift_injective {poly : BitVec w} (hpoly : poly.msb = true) : Function.Injective (shift poly) := by
  have hw : 0 < w := by
    rcases Nat.eq_zero_or_pos w with h | h
    · subst h
      rw [BitVec.msb_zero_length] at hpoly
      exact absurd hpoly Bool.false_ne_true
    · exact h
  have htop : ∀ r : BitVec w, (shift poly r).getLsbD (w - 1) = r.getLsbD 0 := by
    intro r
    have hp : poly.getLsbD (w - 1) = true := by
      rwa [BitVec.msb_eq_getLsbD_last] at hpoly
    have hr : (r >>> 1).getLsbD (w - 1) = false := by
      rw [BitVec.getLsbD_ushiftRight]
      exact BitVec.getLsbD_of_ge _ _ (by omega)
    unfold shift
    cases r.getLsbD 0 with
    | false => exact hr
    | true => simp [hr, hp]
  intro a b h
  have hlow : a.getLsbD 0 = b.getLsbD 0 := by
    rw [← htop a, ← htop b, h]
  have hrest : a >>> 1 = b >>> 1 := by
    unfold shift at h
    rw [hlow] at h
    cases hb : b.getLsbD 0 with
    | false => simpa [hb] using h
    | true =>
      rw [hb, if_pos rfl, if_pos rfl] at h
      exact (BitVec.xor_left_inj poly).mp h
  apply BitVec.eq_of_getLsbD_eq
  intro i hi
  cases i with
  | zero => exact hlow
  | succ i =>
    have hi : (a >>> 1).getLsbD i = (b >>> 1).getLsbD i := by rw [hrest]
    rwa [BitVec.getLsbD_ushiftRight, BitVec.getLsbD_ushiftRight, Nat.add_comm] at hi

/-! ## Message bits as words -/

/-- message bits as a word, the first lowest -/
def word : List Bool → BitVec w
  | [] => 0
  | b :: u => (BitVec.ofBool b).setWidth w ^^^ (word u <<< 1)

theorem getLsbD_word (u : List Bool) (i : ℕ) : (word u : BitVec w).getLsbD i = (decide (i < w) && u.getD i false) := by
  induction u generalizing i with
  | nil => simp [word]
  | cons b u ih =>
    cases i with
    | zero =>
      rw [word, BitVec.getLsbD_xor]
      simp
    | succ i =>
      have hi : i + 1 < w → i < w := fun h => by omega
      rw [word, BitVec.getLsbD_xor, BitVec.getLsbD_shiftLeft, Nat.add_sub_cancel, ih]
      by_cases h : i + 1 < w
      · simp [h, hi h]
      · simp [h]

/-- no more bits than a word holds are told apart by it -/
theorem word_injective {u v : List Bool} (hlen : u.length = v.length) (hw : u.length ≤ w)
    (h : (word u : BitVec w) = word v) : u = v := by
  apply List.ext_getElem hlen
  intro i hu hv
  have hi : (word u : BitVec w).getLsbD i = (word v : BitVec w).getLsbD i := by rw [h]
  rw [getLsbD_word, getLsbD_word, decide_eq_true (lt_of_lt_of_le hu hw), Bool.true_and, Bool.true_and,
    List.getD_eq_getElem?_getD, List.getD_eq_getElem?_getD, List.getElem?_eq_getElem hu, List.getElem?_eq_getElem hv] at hi
  exact hi

/-- **Bits enter as a word.** Up to a register's width of message bits are added to the register before its steps. -/
theorem register_eq (poly r : BitVec w) {u : List Bool} (h : u.length ≤ w) :
    register poly r u = (shift poly)^[u.length] (r ^^^ word u) := by
  induction u generalizing r with
  | nil =>
    have hzero : r ^^^ word [] = r := BitVec.xor_zero
    rw [hzero]
    rfl
  | cons b u ih =>
    have hlt : u.length < w := h
    -- the top place is free, so that what was moved up comes down whole
    have hdown : shift poly (word u <<< 1) = word u := by
      have hlow : (word u <<< 1 : BitVec w).getLsbD 0 = false := by simp
      unfold shift
      rw [hlow]
      apply BitVec.eq_of_getLsbD_eq
      intro i hi
      have htop : i = w - 1 → (word u : BitVec w).getLsbD i = false := by
        intro hlast
        rw [getLsbD_word, List.getD_eq_getElem?_getD, List.getElem?_eq_none (by omega)]
        exact Bool.and_false _
      by_cases hlast : 1 + i < w
      · simp [hlast, BitVec.getLsbD_eq_getElem hi]
      · rw [htop (by omega)]
        simp [hlast]
    calc register poly r (b :: u)
        = register poly (feed poly r b) u := rfl
      _ = (shift poly)^[u.length] (feed poly r b ^^^ word u) := ih _ hlt.le
      _ = (shift poly)^[u.length] (shift poly (r ^^^ (BitVec.ofBool b).setWidth w ^^^ word u <<< 1)) := by
        rw [shift_xor, hdown]
        rfl
      _ = (shift poly)^[u.length + 1] (r ^^^ word (b :: u)) := by
        rw [Function.iterate_succ_apply, word, BitVec.xor_assoc]

theorem register_append (poly r : BitVec w) (u v : List Bool) :
    register poly r (u ++ v) = register poly (register poly r u) v := List.foldl_append

/-! ## A byte at a time -/

@[simp] theorem length_bitsOf (b : UInt8) : (bitsOf b).length = 8 := List.length_ofFn

@[simp] theorem length_bits (bs : List UInt8) : (bits bs).length = 8 * bs.length := by
  induction bs with
  | nil => rfl
  | cons b bs ih =>
    have hcons : bits (b :: bs) = bitsOf b ++ bits bs := List.flatMap_cons
    rw [hcons, List.length_append, length_bitsOf, ih, List.length_cons, Nat.mul_succ, Nat.add_comm]

theorem bits_append (as bs : List UInt8) : bits (as ++ bs) = bits as ++ bits bs := List.flatMap_append

theorem bits_take (bs : List UInt8) (n : ℕ) : bits (bs.take n) = (bits bs).take (8 * n) := by
  by_cases h : n ≤ bs.length
  · have hlen : (bits (bs.take n)).length = 8 * n := by
      rw [length_bits, List.length_take, Nat.min_eq_left h]
    nth_rewrite 2 [← List.take_append_drop n bs]
    rw [bits_append, List.take_left' hlen]
  · have hall : (bits bs).length ≤ 8 * n := by
      rw [length_bits]
      omega
    rw [List.take_of_length_le (not_le.mp h).le, List.take_of_length_le hall]

theorem bits_drop (bs : List UInt8) (n : ℕ) : bits (bs.drop n) = (bits bs).drop (8 * n) := by
  have hparts : bits (bs.take n) ++ bits (bs.drop n) = (bits bs).take (8 * n) ++ (bits bs).drop (8 * n) := by
    rw [← bits_append, List.take_append_drop, List.take_append_drop]
  rw [bits_take] at hparts
  exact List.append_cancel_left hparts

theorem word_bitsOf (b : UInt8) : (word (bitsOf b) : BitVec w) = b.toBitVec.setWidth w := by
  apply BitVec.eq_of_getLsbD_eq
  intro i hi
  rw [getLsbD_word, BitVec.getLsbD_setWidth]
  by_cases h : i < 8
  · rw [List.getD_eq_getElem?_getD, List.getElem?_eq_getElem (by rwa [length_bitsOf]), Option.getD_some]
    simp only [bitsOf, List.getElem_ofFn]
  · rw [List.getD_eq_getElem?_getD, List.getElem?_eq_none (by rw [length_bitsOf]; omega),
      BitVec.getLsbD_of_ge _ _ (by omega)]
    rfl

/-- the bits tell the bytes -/
theorem bits_injective : Function.Injective bits := by
  intro as
  induction as with
  | nil =>
    intro bs h
    have hlen := congrArg List.length h
    rw [length_bits, length_bits, List.length_nil] at hlen
    exact (List.length_eq_zero_iff.mp (by omega)).symm
  | cons a as ih =>
    intro bs h
    cases bs with
    | nil =>
      have hlen := congrArg List.length h
      rw [length_bits, length_bits, List.length_nil, List.length_cons] at hlen
      omega
    | cons b bs =>
      have hsplit : bitsOf a ++ bits as = bitsOf b ++ bits bs := h
      obtain ⟨hfirst, hrest⟩ := List.append_inj hsplit (by rw [length_bitsOf, length_bitsOf])
      have hword : (word (bitsOf a) : BitVec 8) = word (bitsOf b) := by rw [hfirst]
      rw [word_bitsOf, word_bitsOf, BitVec.setWidth_eq, BitVec.setWidth_eq] at hword
      rw [UInt8.toBitVec_inj.mp hword, ih hrest]

/-- the entry of the table for the low byte of a register -/
def entry (poly i : BitVec w) : BitVec w := (shift poly)^[8] i

/-- **Eight steps are a look into the table.** -/
theorem register_byte (hw : 8 ≤ w) (poly r : BitVec w) (b : UInt8) :
    register poly r (bitsOf b) =
      entry poly ((r ^^^ b.toBitVec.setWidth w) &&& (255#8).setWidth w) ^^^ (r >>> 8) := by
  have hbyte : ∀ i, (255#8).getLsbD i = decide (i < 8) := by
    intro i
    exact @BitVec.getLsbD_allOnes 8 i
  rw [register_eq poly r (by rw [length_bitsOf]; exact hw), length_bitsOf, word_bitsOf]
  generalize hx : r ^^^ b.toBitVec.setWidth w = x
  -- the word is its low byte and the rest
  have hsplit : x = (x &&& (255#8).setWidth w) ^^^ ((x >>> 8) <<< 8) := by
    apply BitVec.eq_of_getLsbD_eq
    intro i hi
    rw [BitVec.getLsbD_xor, BitVec.getLsbD_and, BitVec.getLsbD_setWidth, hbyte, BitVec.getLsbD_shiftLeft,
      BitVec.getLsbD_ushiftRight]
    by_cases h : i < 8
    · simp [hi, h]
    · rw [Nat.add_sub_of_le (not_lt.mp h)]
      simp [hi, h]
  have hrest : (shift poly)^[8] ((x >>> 8) <<< 8) = r >>> 8 := by
    rw [iterate_shift_high poly 8 (fun i hi => by simp [hi])]
    apply BitVec.eq_of_getLsbD_eq
    intro i hi
    rw [BitVec.getLsbD_ushiftRight, BitVec.getLsbD_shiftLeft, BitVec.getLsbD_ushiftRight, BitVec.getLsbD_ushiftRight, ← hx,
      BitVec.getLsbD_xor, BitVec.getLsbD_setWidth]
    by_cases h : 8 + i < w
    · simp [h]
    · have hout : r.getLsbD (8 + i) = false := BitVec.getLsbD_of_ge _ _ (by omega)
      simp [h, hout]
  calc (shift poly)^[8] x
      = (shift poly)^[8] ((x &&& (255#8).setWidth w) ^^^ ((x >>> 8) <<< 8)) := congrArg _ hsplit
    _ = entry poly (x &&& (255#8).setWidth w) ^^^ (r >>> 8) := by
      rw [iterate_shift_xor, hrest]
      rfl

/-! ## Bursts -/

variable {poly : BitVec w}

theorem feed_injective (hpoly : poly.msb = true) (b : Bool) : Function.Injective fun r => feed poly r b := by
  intro r s h
  exact (BitVec.xor_left_inj _).mp (shift_injective hpoly h)

/-- what two registers differ in is never lost -/
theorem register_injective (hpoly : poly.msb = true) (u : List Bool) :
    Function.Injective fun r => register poly r u := by
  induction u with
  | nil => exact Function.injective_id
  | cons b u ih => exact ih.comp (feed_injective hpoly b)

/-- the bits of a window show in the register -/
theorem register_window (hpoly : poly.msb = true) (r : BitVec w) {u v : List Bool} (hlen : u.length = v.length)
    (hw : u.length ≤ w) (hne : u ≠ v) : register poly r u ≠ register poly r v := by
  intro h
  rw [register_eq poly r hw, register_eq poly r (hlen ▸ hw), ← hlen] at h
  exact hne (word_injective hlen hw ((BitVec.xor_right_inj r).mp ((shift_injective hpoly).iterate _ h)))

/-- the two are the same before and behind a window of `n` places -/
structure DifferWithin (lo n : ℕ) (a b : List Bool) : Prop where
  before : a.take lo = b.take lo
  behind : a.drop (lo + n) = b.drop (lo + n)

instance decidableDifferWithin (lo n : ℕ) (a b : List Bool) : Decidable (DifferWithin lo n a b) :=
  decidable_of_iff (a.take lo = b.take lo ∧ a.drop (lo + n) = b.drop (lo + n)) ⟨fun h => ⟨h.1, h.2⟩, fun h => ⟨h.1, h.2⟩⟩

namespace DifferWithin

variable {lo n : ℕ} {a b : List Bool}

theorem take_eq (h : DifferWithin lo n a b) {k : ℕ} (hk : k ≤ lo) : a.take k = b.take k := by
  have htake : ∀ c : List Bool, c.take k = (c.take lo).take k := by
    intro c
    rw [List.take_take, Nat.min_eq_left hk]
  rw [htake a, htake b, h.before]

theorem drop_eq (h : DifferWithin lo n a b) {k : ℕ} (hk : lo + n ≤ k) : a.drop k = b.drop k := by
  have hdrop : ∀ c : List Bool, c.drop k = (c.drop (lo + n)).drop (k - (lo + n)) := by
    intro c
    rw [List.drop_drop, Nat.add_sub_of_le hk]
  rw [hdrop a, hdrop b, h.behind]

/-- a wider window -/
theorem mono (h : DifferWithin lo n a b) {m : ℕ} (hm : n ≤ m) : DifferWithin lo m a b :=
  ⟨h.before, h.drop_eq (Nat.add_le_add_left hm lo)⟩

/-- what comes first of the two -/
theorem take (h : DifferWithin lo n a b) (k : ℕ) : DifferWithin lo n (a.take k) (b.take k) := by
  constructor
  · rw [List.take_take, List.take_take, h.take_eq (Nat.min_le_left lo k)]
  · rw [List.drop_take, List.drop_take, h.behind]

/-- what is left of the two when the window is still to come -/
theorem drop (h : DifferWithin lo n a b) {k : ℕ} (hk : k ≤ lo) : DifferWithin (lo - k) n (a.drop k) (b.drop k) := by
  constructor
  · rw [← List.drop_take, ← List.drop_take, h.before]
  · rw [List.drop_drop, List.drop_drop, show k + (lo - k + n) = lo + n by omega, h.behind]

end DifferWithin

/-- **Bursts are noticed.** Two messages that differ, and only inside a window as wide as the register, leave different
registers behind. -/
theorem register_ne (hpoly : poly.msb = true) (r : BitVec w) {a b : List Bool} (hlen : a.length = b.length) (hne : a ≠ b)
    {lo : ℕ} (hwindow : DifferWithin lo w a b) : register poly r a ≠ register poly r b := by
  have hparts : ∀ c : List Bool, c = c.take lo ++ ((c.drop lo).take w ++ c.drop (lo + w)) := by
    intro c
    rw [← List.drop_drop, List.take_append_drop, List.take_append_drop]
  have hinside : (a.drop lo).take w ≠ (b.drop lo).take w := by
    intro h
    apply hne
    rw [hparts a, hparts b, hwindow.before, h, hwindow.behind]
  have hwidth : ((a.drop lo).take w).length = ((b.drop lo).take w).length := by
    rw [List.length_take, List.length_take, List.length_drop, List.length_drop, hlen]
  rw [hparts a, hparts b, hwindow.before, hwindow.behind, register_append, register_append, register_append,
    register_append]
  intro h
  exact register_window hpoly _ hwidth (List.length_take_le _ _) hinside (register_injective hpoly _ h)

end FaultContainment.Lib.Crc
