/-
Block-wise absorption: a state takes the blocks of a message one after another.

A message that arrives in pieces is absorbed symbol by symbol; what does not fill a block yet waits for the next symbols.

- `absorb_room`, `absorb_block`: what a piece does that leaves the block open, or closes it.
- `absorb_blockwise`: symbol by symbol the state is that of the whole blocks of the message.
- `blockwise_flatMap`: the blocks of a message that is spelled in smaller symbols.
-/
import Mathlib.Tactic

namespace FaultContainment.Lib.Blocks

variable {σ τ α β : Type}

/-- the state after the whole blocks of a message -/
def blockwise (step : σ → List α → σ) (n : ℕ) (s : σ) (xs : List α) : σ :=
  (List.range (xs.length / n)).foldl (fun s i => step s ((xs.drop (n * i)).take n)) s

/-- a symbol closes the block that is open, or waits in it -/
def feed (step : σ → List α → σ) (n : ℕ) (p : σ × List α) (x : α) : σ × List α :=
  if p.2.length + 1 = n then (step p.1 (p.2 ++ [x]), []) else (p.1, p.2 ++ [x])

/-- the state and the open block after a piece of the message -/
def absorb (step : σ → List α → σ) (n : ℕ) (p : σ × List α) (xs : List α) : σ × List α := xs.foldl (feed step n) p

section Absorb

variable {step : σ → List α → σ} {n : ℕ}

theorem absorb_append (p : σ × List α) (xs ys : List α) :
    absorb step n p (xs ++ ys) = absorb step n (absorb step n p xs) ys := List.foldl_append

/-- a piece that leaves the block open -/
theorem absorb_room {p : σ × List α} {xs : List α} (h : p.2.length + xs.length < n) :
    absorb step n p xs = (p.1, p.2 ++ xs) := by
  induction xs generalizing p with
  | nil => rw [List.append_nil]; rfl
  | cons x xs ih =>
    rw [List.length_cons] at h
    have hfeed : feed step n p x = (p.1, p.2 ++ [x]) := if_neg (by omega)
    have hroom : (p.1, p.2 ++ [x]).2.length + xs.length < n := by
      rw [List.length_append, List.length_singleton]
      omega
    calc absorb step n p (x :: xs) = absorb step n (feed step n p x) xs := rfl
      _ = (p.1, p.2 ++ x :: xs) := by rw [hfeed, ih hroom, List.append_assoc, List.singleton_append]

/-- a piece that closes the block -/
theorem absorb_block {p : σ × List α} {xs : List α} (hne : xs ≠ []) (h : p.2.length + xs.length = n) :
    absorb step n p xs = (step p.1 (p.2 ++ xs), []) := by
  obtain ⟨ys, y, rfl⟩ : ∃ ys y, xs = ys ++ [y] := ⟨_, _, (List.dropLast_append_getLast hne).symm⟩
  rw [List.length_append, List.length_singleton] at h
  have hopen : absorb step n p ys = (p.1, p.2 ++ ys) := absorb_room (by omega)
  have hclose : (p.1, p.2 ++ ys).2.length + 1 = n := by
    rw [List.length_append]
    omega
  calc absorb step n p (ys ++ [y]) = feed step n (p.1, p.2 ++ ys) y := by rw [absorb_append, hopen]; rfl
    _ = (step p.1 (p.2 ++ ys ++ [y]), []) := if_pos hclose
    _ = (step p.1 (p.2 ++ (ys ++ [y])), []) := by rw [List.append_assoc]

/-- how much of a block is open -/
theorem length_absorb {p : σ × List α} (h : p.2.length < n) (xs : List α) :
    (absorb step n p xs).2.length = (p.2.length + xs.length) % n := by
  induction xs generalizing p with
  | nil => exact (Nat.mod_eq_of_lt h).symm
  | cons x xs ih =>
    change (absorb step n (feed step n p x) xs).2.length = _
    rw [List.length_cons]
    unfold feed
    split_ifs with hclose
    · rw [ih (lt_of_le_of_lt (Nat.zero_le _) h), List.length_nil, ← Nat.add_mod_left n (0 + xs.length)]
      congr 1
      omega
    · have hroom : (p.1, p.2 ++ [x]).2.length < n := by
        rw [List.length_append, List.length_singleton]
        omega
      rw [ih hroom, List.length_append, List.length_singleton]
      congr 1
      omega

theorem blockwise_short {xs : List α} (h : xs.length < n) (s : σ) : blockwise step n s xs = s := by
  rw [blockwise, Nat.div_eq_of_lt h]
  rfl

theorem blockwise_append (hn : 0 < n) {block : List α} (h : block.length = n) (s : σ) (xs : List α) :
    blockwise step n s (block ++ xs) = blockwise step n (step s block) xs := by
  have hcount : (block ++ xs).length / n = xs.length / n + 1 := by
    rw [List.length_append, h, Nat.add_div_left _ hn]
  have hfirst : ((block ++ xs).drop (n * 0)).take n = block := List.take_left' h
  have hnext : ∀ i, (block ++ xs).drop (n * (i + 1)) = xs.drop (n * i) := by
    intro i
    rw [Nat.mul_succ, Nat.add_comm, ← List.drop_drop, List.drop_left' h]
  rw [blockwise, hcount, List.range_succ_eq_map, List.foldl_cons, List.foldl_map, hfirst]
  simp only [Nat.succ_eq_add_one, hnext]
  rfl

/-- **Symbol by symbol is block by block.** -/
theorem absorb_blockwise (hn : 0 < n) (s : σ) (xs : List α) :
    (absorb step n (s, []) xs).1 = blockwise step n s xs := by
  induction hlen : xs.length using Nat.strong_induction_on generalizing s xs with
  | _ len ih =>
    by_cases hshort : xs.length < n
    · rw [blockwise_short hshort, absorb_room (by rw [List.length_nil]; omega)]
    have hblock : (xs.take n).length = n := by
      rw [List.length_take]
      omega
    have hne : xs.take n ≠ [] := List.ne_nil_of_length_pos (by omega)
    have hrest : (xs.drop n).length < len := by
      rw [List.length_drop]
      omega
    calc (absorb step n (s, []) xs).1 = (absorb step n (s, []) (xs.take n ++ xs.drop n)).1 := by rw [List.take_append_drop]
      _ = (absorb step n (step s (xs.take n), []) (xs.drop n)).1 := by
        rw [absorb_append, absorb_block hne (by rw [List.length_nil]; omega), List.nil_append]
      _ = blockwise step n (step s (xs.take n)) (xs.drop n) := ih _ hrest _ _ rfl
      _ = blockwise step n s xs := by rw [← blockwise_append hn hblock, List.take_append_drop]

end Absorb

section Spelled

variable {f : α → List β} {k : ℕ}

theorem length_flatMap (hf : ∀ a, (f a).length = k) (xs : List α) : (xs.flatMap f).length = k * xs.length := by
  induction xs with
  | nil => rfl
  | cons x xs ih =>
    rw [List.flatMap_cons, List.length_append, hf, ih, List.length_cons]
    ring

theorem drop_flatMap (hf : ∀ a, (f a).length = k) (n : ℕ) (xs : List α) :
    (xs.flatMap f).drop (k * n) = (xs.drop n).flatMap f := by
  induction n generalizing xs with
  | zero => rfl
  | succ n ih =>
    cases xs with
    | nil => exact List.drop_nil
    | cons x xs =>
      rw [List.flatMap_cons, Nat.mul_succ, Nat.add_comm, ← List.drop_drop, List.drop_left' (hf x), ih, List.drop_succ_cons]

theorem take_flatMap (hf : ∀ a, (f a).length = k) (n : ℕ) (xs : List α) :
    (xs.flatMap f).take (k * n) = (xs.take n).flatMap f := by
  induction n generalizing xs with
  | zero => rfl
  | succ n ih =>
    cases xs with
    | nil => exact List.take_nil
    | cons x xs =>
      have hsplit : k * (n + 1) = (f x).length + k * n := by rw [hf, Nat.mul_succ, Nat.add_comm]
      rw [List.flatMap_cons, hsplit, List.take_length_add_append, ih, List.take_succ_cons, List.flatMap_cons]

/-- **A message that is spelled in smaller symbols** has the same blocks, spelled. -/
theorem blockwise_flatMap (hf : ∀ a, (f a).length = k) (hk : 0 < k) {n : ℕ} {step : σ → List α → σ}
    {step' : τ → List β → τ} {g : σ → τ}
    (hstep : ∀ s block, block.length = n → g (step s block) = step' (g s) (block.flatMap f)) (s : σ) (xs : List α) :
    blockwise step' (k * n) (g s) (xs.flatMap f) = g (blockwise step n s xs) := by
  unfold blockwise
  rw [length_flatMap hf, Nat.mul_div_mul_left _ _ hk]
  have hblock : ∀ i ∈ List.range (xs.length / n), ((xs.drop (n * i)).take n).length = n := by
    intro i hi
    have hle : n * (i + 1) ≤ xs.length :=
      le_trans (Nat.mul_le_mul_left n (List.mem_range.mp hi)) (Nat.mul_div_le _ _)
    rw [Nat.mul_succ] at hle
    rw [List.length_take, List.length_drop]
    omega
  generalize List.range (xs.length / n) = is at hblock
  induction is generalizing s with
  | nil => rfl
  | cons i is ih =>
    have hfirst : step' (g s) (((xs.flatMap f).drop (k * n * i)).take (k * n)) = g (step s ((xs.drop (n * i)).take n)) := by
      rw [Nat.mul_assoc, drop_flatMap hf, take_flatMap hf, hstep _ _ (hblock i List.mem_cons_self)]
    rw [List.foldl_cons, List.foldl_cons, hfirst]
    exact ih _ fun j hj => hblock j (List.mem_cons_of_mem _ hj)

end Spelled

end FaultContainment.Lib.Blocks
