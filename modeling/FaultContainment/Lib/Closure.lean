/-
Least closed sets, and what a traversal has found of one.

Labelled edges lead from an element to an element. The least set that contains the seeds and follows every edge is what the
edges reach from the seeds. A traversal holds a set of members and the labels it has followed; when no label out of a member
is left, the members are the least closed set, whatever the order in which the labels were followed.

- `isLeast_reach`: the reached elements are the least closed set.
- `Explored.visit`: following one label.
- `Explored.exact`: a traversal that has nothing left to follow has found exactly the reached elements.
-/
import Mathlib.Tactic

namespace FaultContainment.Lib.Closure

variable {α ι : Type} (seed : Set α) (next : ι → α → α → Prop)

/-- contains the seeds and follows every edge -/
structure Closed (S : Set α) : Prop where
  seeds : seed ⊆ S
  follows : ∀ i a b, a ∈ S → next i a b → b ∈ S

/-- reached from the seeds -/
inductive Reach : α → Prop
  | seed {a : α} (h : a ∈ seed) : Reach a
  | next {i : ι} {a b : α} (ha : Reach a) (h : next i a b) : Reach b

/-- The reached elements are the least closed set. -/
theorem isLeast_reach : IsLeast {S : Set α | Closed seed next S} {a | Reach seed next a} := by
  constructor
  · exact ⟨fun a ha => .seed ha, fun i a b ha h => .next ha h⟩
  · intro S hS a ha
    induction ha with
    | seed h => exact hS.seeds h
    | next _ h ih => exact hS.follows _ _ _ ih h

/-- a traversal that has the members `M` and has followed the labels `E` -/
structure Explored (M : Set α) (E : Set ι) : Prop where
  seeds : seed ⊆ M
  sound : ∀ a ∈ M, Reach seed next a
  followed : ∀ i ∈ E, ∀ a b, next i a b → b ∈ M

variable {seed next} {M M' : Set α} {E : Set ι}

/-- Before the first label is followed the members are the seeds. -/
theorem Explored.start : Explored seed next seed ∅ where
  seeds := subset_rfl
  sound _ ha := .seed ha
  followed _ hi := hi.elim

/-- Following one label out of a member adds where it leads, and nothing else. -/
theorem Explored.visit (h : Explored seed next M E) {i : ι} {a : α} (ha : a ∈ M) (hi : ∀ x b, next i x b → x = a)
    (hM : ∀ b, b ∈ M' ↔ b ∈ M ∨ next i a b) : Explored seed next M' (insert i E) where
  seeds b hb := (hM b).mpr (.inl (h.seeds hb))
  sound b hb := by
    rcases (hM b).mp hb with hb | hb
    · exact h.sound b hb
    · exact .next (h.sound a ha) hb
  followed j hj x b hb := by
    apply (hM b).mpr
    rcases hj with rfl | hj
    · exact .inr (hi x b hb ▸ hb)
    · exact .inl (h.followed j hj x b hb)

/-- **A finished traversal is exact.** -/
theorem Explored.exact (h : Explored seed next M E) (hE : ∀ i a b, a ∈ M → next i a b → i ∈ E) :
    M = {a | Reach seed next a} := by
  apply Set.Subset.antisymm h.sound
  intro a ha
  induction ha with
  | seed hs => exact h.seeds hs
  | next _ hn ih => exact h.followed _ (hE _ _ _ ih hn) _ _ hn

end FaultContainment.Lib.Closure
