/-
Runs of a transition system whose step is a function.

A run is a list of actions applied in order. `Along` states a condition on every step of a run, on the state the step starts
from; an invariant carried by each such step holds at the end and at every step on the way.

- `run_inv`: the invariant rule.
- `along_of_inv`: what each step of a run has, given the invariant before it.
- `always_iff_along`, `always_iff`: a property that a step keeps exactly under a condition holds throughout a run exactly under
  it.
- `atMostOnce_of_latch`: a step that can happen at most once in a run.
-/
import Mathlib.Tactic

namespace FaultContainment.Lib.Runs

variable {σ α : Type} (step : α → σ → σ)

/-- the state after a run -/
def run (as : List α) (s : σ) : σ := as.foldl (fun s a => step a s) s

/-- a condition on every step of a run -/
def Along (P : α → σ → Prop) : List α → σ → Prop
  | [], _ => True
  | a :: as, s => P a s ∧ Along P as (step a s)

instance decidableAlong (P : α → σ → Prop) [∀ a s, Decidable (P a s)] : ∀ as s, Decidable (Along step P as s)
  | [], _ => isTrue trivial
  | a :: as, s => @instDecidableAnd _ _ _ (decidableAlong P as (step a s))

@[simp] theorem run_nil (s : σ) : run step [] s = s := rfl
@[simp] theorem run_cons (a : α) (as : List α) (s : σ) : run step (a :: as) s = run step as (step a s) := rfl

theorem run_append (as bs : List α) (s : σ) : run step (as ++ bs) s = run step bs (run step as s) :=
  List.foldl_append

@[simp] theorem along_nil (P : α → σ → Prop) (s : σ) : Along step P [] s := trivial

@[simp] theorem along_cons (P : α → σ → Prop) (a : α) (as : List α) (s : σ) :
    Along step P (a :: as) s ↔ P a s ∧ Along step P as (step a s) := Iff.rfl

theorem along_append (P : α → σ → Prop) (as bs : List α) (s : σ) :
    Along step P (as ++ bs) s ↔ Along step P as s ∧ Along step P bs (run step as s) := by
  induction as generalizing s with
  | nil => simp
  | cons a as ih => rw [List.cons_append, along_cons, along_cons, ih, run_cons, and_assoc]

variable {step} {P Q : α → σ → Prop} {Inv : σ → Prop}

/-- The invariant rule. -/
theorem run_inv (hstep : ∀ a s, P a s → Inv s → Inv (step a s)) {as : List α} {s : σ} (h : Along step P as s)
    (h0 : Inv s) : Inv (run step as s) := by
  induction as generalizing s with
  | nil => exact h0
  | cons a as ih => exact ih h.2 (hstep a s h.1 h0)

/-- The invariant rule when every step keeps the invariant. -/
theorem run_keeps (hstep : ∀ a s, Inv s → Inv (step a s)) (as : List α) {s : σ} (h0 : Inv s) : Inv (run step as s) := by
  induction as generalizing s with
  | nil => exact h0
  | cons a as ih => exact ih (hstep a s h0)

/-- What every step does, a run does. -/
theorem run_rel {R : σ → σ → Prop} (hrefl : ∀ s, R s s) (htrans : ∀ s t u, R s t → R t u → R s u)
    (hstep : ∀ a s, R s (step a s)) (as : List α) (s : σ) : R s (run step as s) := by
  induction as generalizing s with
  | nil => exact hrefl s
  | cons a as ih => exact htrans _ _ _ (hstep a s) (ih _)

/-- What holds of a step from a state with the invariant holds of every step of a run. -/
theorem along_of_inv (hstep : ∀ a s, P a s → Inv s → Inv (step a s)) (hQ : ∀ a s, P a s → Inv s → Q a s) {as : List α}
    {s : σ} (h : Along step P as s) (h0 : Inv s) : Along step Q as s := by
  induction as generalizing s with
  | nil => trivial
  | cons a as ih => exact ⟨hQ a s h.1 h0, ih h.2 (hstep a s h.1 h0)⟩

/-- Equivalent conditions on a step are equivalent along a run. -/
theorem along_congr (h : ∀ a s, P a s ↔ Q a s) (as : List α) (s : σ) : Along step P as s ↔ Along step Q as s := by
  induction as generalizing s with
  | nil => exact Iff.rfl
  | cons a as ih => rw [along_cons, along_cons, h, ih]

/-- A condition on the actions that others stand for. -/
theorem along_map {β : Type} (g : β → α) (bs : List β) (s : σ) :
    Along step P (bs.map g) s ↔ Along (fun b s => step (g b) s) (fun b s => P (g b) s) bs s := by
  induction bs generalizing s with
  | nil => exact Iff.rfl
  | cons b bs ih => rw [List.map_cons, along_cons, along_cons, ih]

/-- Two conditions on every step are one. -/
theorem along_and (as : List α) (s : σ) :
    Along step (fun a s => P a s ∧ Q a s) as s ↔ Along step P as s ∧ Along step Q as s := by
  induction as generalizing s with
  | nil => exact (and_self_iff).symm
  | cons a as ih =>
    rw [along_cons, along_cons, along_cons, ih]
    exact and_and_and_comm

/-- a property of every state of a run, the first and the last included -/
def Always (step : α → σ → σ) (I : σ → Prop) (as : List α) (s : σ) : Prop :=
  ∀ pre post, as = pre ++ post → I (run step pre s)

theorem always_nil {I : σ → Prop} {s : σ} : Always step I [] s ↔ I s := by
  constructor
  · intro h
    exact h [] [] rfl
  · intro h pre post hsplit
    rw [List.nil_eq_append_iff.mp hsplit |>.1]
    exact h

theorem always_cons {I : σ → Prop} {a : α} {as : List α} {s : σ} :
    Always step I (a :: as) s ↔ I s ∧ Always step I as (step a s) := by
  constructor
  · intro h
    refine ⟨h [] _ rfl, fun pre post hsplit => ?_⟩
    exact h (a :: pre) post (by rw [hsplit, List.cons_append])
  · intro ⟨hs, h⟩ pre post hsplit
    cases pre with
    | nil => exact hs
    | cons b pre =>
      rw [List.cons_append, List.cons.injEq] at hsplit
      obtain ⟨rfl, hpost⟩ := hsplit
      exact h pre post hpost

/-- What every step has, every step of a run has. -/
theorem along_of_forall (h : ∀ a s, P a s) (as : List α) (s : σ) : Along step P as s := by
  induction as generalizing s with
  | nil => trivial
  | cons a as ih => exact ⟨h a s, ih _⟩

/-- A property that the steps of a run keep exactly under a condition, over an invariant that they keep while the property
holds. -/
theorem always_iff_along {I : σ → Prop} (hkeep : ∀ a s, Q a s → Inv s → I s → Inv (step a s))
    (hstep : ∀ a s, Q a s → Inv s → I s → (I (step a s) ↔ P a s)) {as : List α} {s : σ} (hrun : Along step Q as s)
    (hinv : Inv s) (h0 : I s) : Always step I as s ↔ Along step P as s := by
  induction as generalizing s with
  | nil => exact iff_of_true (always_nil.mpr h0) trivial
  | cons a as ih =>
    rw [always_cons, along_cons, and_iff_right h0]
    have hnext := ih hrun.2 (hkeep a s hrun.1 hinv h0)
    constructor
    · intro h
      have hfirst : I (step a s) := h [] as rfl
      exact ⟨(hstep a s hrun.1 hinv h0).mp hfirst, (hnext hfirst).mp h⟩
    · intro ⟨hp, h⟩
      exact (hnext ((hstep a s hrun.1 hinv h0).mpr hp)).mpr h

/-- The same for steps that need nothing else. -/
theorem always_iff {I : σ → Prop} (hkeep : ∀ a s, Inv s → I s → Inv (step a s))
    (hstep : ∀ a s, Inv s → I s → (I (step a s) ↔ P a s)) {as : List α} {s : σ} (hinv : Inv s) (h0 : I s) :
    Always step I as s ↔ Along step P as s :=
  always_iff_along (Q := fun _ _ => True) (fun a s _ => hkeep a s) (fun a s _ => hstep a s)
    (along_of_forall (fun _ _ => trivial) as s) hinv h0

/-! ## Steps that happen at most once -/

/-- no two steps of a run have `P` -/
def AtMostOnce (step : α → σ → σ) (P : α → σ → Prop) (as : List α) (s : σ) : Prop :=
  ∀ pre a mid b post, as = pre ++ a :: (mid ++ b :: post) → P a (run step pre s) →
    ¬ P b (run step (pre ++ a :: mid) s)

/-- What a step with `P` latches, what every step keeps, and what excludes another `P`. -/
theorem atMostOnce_of_latch {D : σ → Prop} (hset : ∀ a s, P a s → D (step a s))
    (hkeep : ∀ a s, D s → D (step a s)) (hblock : ∀ a s, D s → ¬ P a s) (as : List α) (s : σ) :
    AtMostOnce step P as s := by
  intro pre a mid b post _ ha
  apply hblock
  rw [run_append, run_cons]
  exact run_keeps hkeep mid (hset a _ ha)

end FaultContainment.Lib.Runs
