/-
Lists, options and results: facts about their library operations that the developments above share.

- `mem_destutter`: dropping adjacent repetitions loses no element.
- `le_foldl_largest`, `foldl_ahead`: a loop that keeps the largest value it sees.
- `rel_left`, `rel_right`: related options are present together.
- `ok_of_mem_toOption`, `ok_of_toOption_any`, `isOk_eq_false`: what a test of a result says about it.
-/
import Mathlib.Data.List.Destutter
import Mathlib.Tactic

namespace FaultContainment.Lib

/-! ## Lists -/

theorem mem_destutter {α : Type} [DecidableEq α] (l : List α) (a x : α) :
    x ∈ List.destutter' (· ≠ ·) a l ↔ x ∈ a :: l := by
  refine ⟨fun h => (List.destutter'_sublist _ _ a).subset h, fun h => ?_⟩
  induction l generalizing a with
  | nil => exact h
  | cons b l ih =>
    rw [List.destutter'_cons]
    split_ifs with hab
    · rcases List.mem_cons.mp h with rfl | h
      · exact List.mem_cons_self
      · exact List.mem_cons_of_mem _ (ih b h)
    · have hba : a = b := not_not.mp hab
      rw [hba] at h ⊢
      exact ih b (List.mem_of_mem_cons_of_mem h List.mem_cons_self)

section Largest

variable {α β : Type} [LinearOrder β] (f : α → β)

/-- a fold that keeps the largest is above what it starts from, and above everything it has seen -/
theorem le_foldl_largest (as : List α) (b : β) :
    b ≤ as.foldl (fun g a => if g < f a then f a else g) b ∧
      ∀ a ∈ as, f a ≤ as.foldl (fun g a => if g < f a then f a else g) b := by
  induction as generalizing b with
  | nil => simp
  | cons a as ih =>
    obtain ⟨hstart, hrest⟩ := ih (if b < f a then f a else b)
    have hb : b ≤ if b < f a then f a else b := by split_ifs with h <;> order
    have ha : f a ≤ if b < f a then f a else b := by split_ifs with h <;> order
    refine ⟨hb.trans hstart, fun x hx => ?_⟩
    rcases List.mem_cons.mp hx with rfl | hx
    · exact ha.trans hstart
    · exact hrest x hx

/-- what is ahead of everything stays -/
theorem foldl_ahead {as : List α} {b : β} (h : ∀ a ∈ as, f a ≤ b) :
    as.foldl (fun g a => if g < f a then f a else g) b = b := by
  induction as with
  | nil => rfl
  | cons a as ih =>
    rw [List.foldl_cons, if_neg (not_lt.mpr (h a List.mem_cons_self))]
    exact ih fun a' ha' => h a' (List.mem_cons_of_mem _ ha')

end Largest

/-! ## Options -/

section Options

variable {α β : Type} {R : α → β → Prop} {o : Option α} {o' : Option β}

/-- the entry related to one on the left -/
theorem rel_left (h : Option.Rel R o o') {a : α} (ha : o = some a) : ∃ b, o' = some b ∧ R a b := by
  cases h with
  | none => simp at ha
  | some hab => exact ⟨_, rfl, Option.some.inj ha ▸ hab⟩

/-- the entry related to one on the right -/
theorem rel_right (h : Option.Rel R o o') {b : β} (hb : o' = some b) : ∃ a, o = some a ∧ R a b := by
  cases h with
  | none => simp at hb
  | some hab => exact ⟨_, rfl, Option.some.inj hb ▸ hab⟩

end Options

/-! ## Results -/

section Results

variable {ε α : Type} {x : Except ε α}

theorem ok_of_mem_toOption {a : α} (h : a ∈ x.toOption) : x = .ok a := by
  cases x with
  | error e => cases h
  | ok b => exact congrArg _ (Option.some.inj h)

theorem ok_of_toOption_any {p : α → Bool} (h : x.toOption.any p = true) : ∃ a, x = .ok a ∧ p a = true := by
  cases x with
  | error e => simp [Except.toOption] at h
  | ok a => exact ⟨a, rfl, by simpa [Except.toOption] using h⟩

theorem isOk_eq_false (h : ¬ x.isOk = true) : ∃ e, x = .error e := by
  cases x with
  | error e => exact ⟨e, rfl⟩
  | ok a => exact absurd rfl h

end Results

end FaultContainment.Lib
