/-
Sequenced records: ordering a log by sequence number and refusing a gap.

Writers take their numbers from one counter and append in any order; a reader sorts and insists on consecutive numbers. The
number a check starts from may be 0, "nothing before", and then the first record may carry any number.

- `order_consecutive_iff`: after sorting the numbers are consecutive exactly when they are a permutation of an interval.
- `checkGaps_iff`: the gap check passes exactly on consecutive numbers.
-/
import Mathlib.Data.List.Sort
import Mathlib.Tactic

namespace FaultContainment.Lib.SequencedLog

variable {α : Type}

/-- a stable sort by sequence number -/
def order (es : List (ℕ × α)) : List (ℕ × α) := es.insertionSort fun a b => a.1 ≤ b.1

/-- every number follows the one before it; 0 is followed by anything. The error is the pair that does not -/
def checkGaps : ℕ → List (ℕ × α) → Except (ℕ × ℕ) Unit
  | _, [] => .ok ()
  | previous, e :: es =>
    if previous ≠ 0 ∧ e.1 ≠ previous + 1 then .error (previous, e.1) else checkGaps e.1 es

/-- the numbers `a, a + 1, ..` -/
def Consecutive (a : ℕ) (es : List (ℕ × α)) : Prop := es.map Prod.fst = List.range' a es.length

instance totalBySequence : Std.Total fun a b : ℕ × α => a.1 ≤ b.1 := ⟨fun a b => le_total a.1 b.1⟩
instance transBySequence : IsTrans (ℕ × α) fun a b => a.1 ≤ b.1 := ⟨fun _ _ _ => le_trans⟩

theorem order_perm (es : List (ℕ × α)) : (order es).Perm es := List.perm_insertionSort _ es

@[simp] theorem order_length (es : List (ℕ × α)) : (order es).length = es.length := (order_perm es).length_eq

theorem order_sorted (es : List (ℕ × α)) : (order es).Pairwise fun a b => a.1 ≤ b.1 :=
  List.pairwise_insertionSort _ es

theorem consecutive_nil (a : ℕ) : Consecutive a ([] : List (ℕ × α)) := rfl

theorem consecutive_cons (a : ℕ) (e : ℕ × α) (es : List (ℕ × α)) :
    Consecutive a (e :: es) ↔ e.1 = a ∧ Consecutive (a + 1) es := by
  simp [Consecutive, List.range'_succ]

theorem consecutive_append (a : ℕ) (es fs : List (ℕ × α)) :
    Consecutive a (es ++ fs) ↔ Consecutive a es ∧ Consecutive (a + es.length) fs := by
  induction es generalizing a with
  | nil => simp [consecutive_nil]
  | cons e es ih =>
    rw [List.cons_append, consecutive_cons, consecutive_cons, ih, List.length_cons, and_assoc,
      show a + 1 + es.length = a + (es.length + 1) by omega]

theorem Consecutive.sorted {a : ℕ} {es : List (ℕ × α)} (h : Consecutive a es) : es.Pairwise fun x y => x.1 < y.1 := by
  have := List.pairwise_lt_range' (s := a) (n := es.length)
  rw [← h, List.pairwise_map] at this
  exact this

theorem Consecutive.mem {a : ℕ} {es : List (ℕ × α)} (h : Consecutive a es) {e : ℕ × α} (he : e ∈ es) :
    a ≤ e.1 ∧ e.1 < a + es.length := by
  have : e.1 ∈ List.range' a es.length := h ▸ List.mem_map_of_mem he
  simpa using this

/-- a log already in order is left alone -/
theorem order_eq_self {es : List (ℕ × α)} (h : es.Pairwise fun a b => a.1 ≤ b.1) : order es = es :=
  List.Pairwise.insertionSort_eq h

theorem Consecutive.order_eq {a : ℕ} {es : List (ℕ × α)} (h : Consecutive a es) : order es = es :=
  order_eq_self (h.sorted.imp fun hlt => hlt.le)

/-- **Sorting makes a permuted interval consecutive, and nothing else.** -/
theorem order_consecutive_iff (a : ℕ) (es : List (ℕ × α)) :
    Consecutive a (order es) ↔ (es.map Prod.fst).Perm (List.range' a es.length) := by
  have hp : ((order es).map Prod.fst).Perm (es.map Prod.fst) := (order_perm es).map _
  rw [Consecutive, order_length]
  constructor
  · intro h; rw [← h]; exact hp.symm
  · intro h
    have hsorted : ((order es).map Prod.fst).Pairwise (· ≤ ·) := by
      rw [List.pairwise_map]; exact order_sorted es
    have hrange : (List.range' a es.length).Pairwise (· ≤ ·) :=
      (List.pairwise_lt_range' 1).imp fun hlt => Nat.le_of_lt hlt
    exact List.Perm.eq_of_pairwise (fun a b _ _ => le_antisymm) hsorted hrange (hp.trans h)

/-- **The gap check.** From a number that counts, it passes exactly on the consecutive numbers after it. -/
theorem checkGaps_iff {previous : ℕ} (h0 : previous ≠ 0) (es : List (ℕ × α)) :
    checkGaps previous es = .ok () ↔ Consecutive (previous + 1) es := by
  induction es generalizing previous with
  | nil => simp [checkGaps, consecutive_nil]
  | cons e es ih =>
    rw [checkGaps, consecutive_cons]
    by_cases he : e.1 = previous + 1
    · rw [if_neg (by simp [he]), ih (by omega), he]; simp
    · rw [if_pos ⟨h0, he⟩]; simp [he]

/-- from 0 the first number is free -/
theorem checkGaps_zero_iff (es : List (ℕ × α)) (hpos : ∀ e ∈ es, e.1 ≠ 0) :
    checkGaps 0 es = .ok () ↔ ∃ a, Consecutive a es := by
  cases es with
  | nil => simp [checkGaps, consecutive_nil]
  | cons e es =>
    rw [checkGaps, if_neg (by simp), checkGaps_iff (hpos e (by simp))]
    constructor
    · intro h; exact ⟨e.1, (consecutive_cons _ _ _).mpr ⟨rfl, h⟩⟩
    · rintro ⟨a, h⟩
      obtain ⟨rfl, h⟩ := (consecutive_cons _ _ _).mp h
      exact h

theorem checkGaps_of_consecutive {previous : ℕ} {es : List (ℕ × α)} (h : Consecutive (previous + 1) es) :
    checkGaps previous es = .ok () := by
  by_cases h0 : previous = 0
  · subst h0
    exact (checkGaps_zero_iff es fun e he => by have := (h.mem he).1; omega).mpr ⟨1, h⟩
  · exact (checkGaps_iff h0 es).mpr h

end FaultContainment.Lib.SequencedLog
