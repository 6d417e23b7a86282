/-
Threads that share a state, and what they may rely on.

A program is a tree of accesses to the shared state: each runs alone, and what the program does next depends on what it read.
Any number of threads run such programs, one access at a time, in any order; a thread whose program has ended waits for a
request. `κ` are the accesses, `perform` is what one does to the state, and `ω` is what the environment decides about it.

A program is safe when each of its accesses meets its condition and stays within the guarantee of its thread, whatever steps
of the rely come before it. What a thread knows is a property of the state that steps of the rely leave alone.

- `Safe.bind`: the rule of sequence.
- `safe_act`: the rule of one access.
- `safe_after`: a move keeps every thread safe, when each guarantee lies within the rely of every other thread.
- `contract_run`: in every interleaving every access meets its condition.
-/
import FaultContainment.Lib.Runs

namespace FaultContainment.Lib.Threads

variable {ι κ ω σ ρ α β : Type}

/-! ## Programs -/

/-- what is left of a program; between two accesses any other thread may run -/
inductive Prog (κ ω σ α : Type) where
  | done (a : α)
  | act (deed : κ) (next : ω → σ → Prog κ ω σ α)

/-- one program after another -/
def Prog.bind : Prog κ ω σ α → (α → Prog κ ω σ β) → Prog κ ω σ β
  | .done a, f => f a
  | .act deed next, f => .act deed fun w s => (next w s).bind f

/-- every access of the program is one of `D`, whatever it reads -/
def Prog.All (D : κ → Prop) : Prog κ ω σ α → Prop
  | .done _ => True
  | .act deed next => D deed ∧ ∀ w s, (next w s).All D

/-! ## Safety -/

/-- what a thread is promised and what it owes: the steps of the others, its own steps, what its accesses may meet and what
they must meet -/
structure Terms (κ ω σ : Type) where
  rely : σ → σ → Prop
  guarantee : σ → σ → Prop
  admits : κ → ω → σ → Prop
  meets : κ → ω → σ → Prop

/-- the rely is closed under steps -/
structure Terms.Lawful (T : Terms κ ω σ) : Prop where
  refl : ∀ s, T.rely s s
  trans : ∀ s t u, T.rely s t → T.rely t u → T.rely s u

/-- what a thread knows: steps of the others leave it true -/
def Terms.Stable (T : Terms κ ω σ) (K : σ → Prop) : Prop := ∀ s t, K s → T.rely s t → K t

section Safety

variable (perform : κ → ω → σ → σ)

/-- the program keeps the terms, and ends in `Q` -/
def Prog.Safe (T : Terms κ ω σ) (Q : α → σ → Prop) : Prog κ ω σ α → σ → Prop
  | .done a, s => ∀ s', T.rely s s' → Q a s'
  | .act deed next, s => ∀ s', T.rely s s' → ∀ w, T.admits deed w s' → T.meets deed w s' ∧
      T.guarantee s' (perform deed w s') ∧ (next w s').Safe T Q (perform deed w s')

/-- an access that is made knowing `K` keeps the terms, and leaves `K'` known -/
def Terms.Does (T : Terms κ ω σ) (deed : κ) (K K' : σ → Prop) : Prop :=
  ∀ w s, K s → T.admits deed w s → T.meets deed w s ∧ T.guarantee s (perform deed w s) ∧ K' (perform deed w s)

variable {perform} {T : Terms κ ω σ} {Q : α → σ → Prop} {Q' : β → σ → Prop} {K : σ → Prop}

/-- steps of the others leave a program safe -/
theorem Prog.Safe.stable (hT : T.Lawful) {p : Prog κ ω σ α} {s t : σ} (h : p.Safe perform T Q s) (hst : T.rely s t) :
    p.Safe perform T Q t := by
  cases p with
  | done a => exact fun u hu => h u (hT.trans s t u hst hu)
  | act deed next => exact fun u hu => h u (hT.trans s t u hst hu)

/-- The rule of sequence. -/
theorem Prog.Safe.bind (hT : T.Lawful) {p : Prog κ ω σ α} {f : α → Prog κ ω σ β} {s : σ} (h : p.Safe perform T Q s)
    (hf : ∀ a s, Q a s → (f a).Safe perform T Q' s) : (p.bind f).Safe perform T Q' s := by
  induction p generalizing s with
  | done a => exact hf a s (h s (hT.refl s))
  | act deed next ih =>
    intro s' hs' w hw
    obtain ⟨hmeet, hwithin, hrest⟩ := h s' hs' w hw
    exact ⟨hmeet, hwithin, ih w s' hrest⟩

/-- a program that is done -/
theorem safe_done (hK : T.Stable K) {a : α} {s : σ} (h : K s) (hend : ∀ t, K t → Q a t) :
    (Prog.done a : Prog κ ω σ α).Safe perform T Q s := fun t ht => hend t (hK s t h ht)

/-- The rule of one access. -/
theorem safe_act (hK : T.Stable K) {deed : κ} {next : ω → σ → Prog κ ω σ α} {s : σ} (h : K s)
    (hdeed : ∀ w t, K t → T.admits deed w t → T.meets deed w t ∧ T.guarantee t (perform deed w t) ∧
      (next w t).Safe perform T Q (perform deed w t)) : (Prog.act deed next).Safe perform T Q s :=
  fun t ht w hw => hdeed w t (hK s t h ht) hw

/-- a program that only makes accesses of one kind, each of which keeps what is known -/
theorem safe_of_all (hK : T.Stable K) {D : κ → Prop} (hD : ∀ deed, D deed → T.Does perform deed K K)
    (hend : ∀ a s, K s → Q a s) {p : Prog κ ω σ α} (hp : p.All D) {s : σ} (h : K s) : p.Safe perform T Q s := by
  induction p generalizing s with
  | done a => exact safe_done hK h (hend a)
  | act deed next ih =>
    refine safe_act hK h fun w t ht hw => ?_
    obtain ⟨hmeet, hwithin, hknown⟩ := hD deed hp.1 w t ht hw
    exact ⟨hmeet, hwithin, ih w t (hp.2 w t) hknown⟩

end Safety

/-! ## Interleavings -/

/-- a shared state and what each thread is about to do; a thread that is done waits with what it remembers -/
structure Pool (ι κ ω σ α : Type) where
  shared : σ
  threads : ι → Prog κ ω σ α

/-- an access of a thread, or a request to a thread that waits -/
inductive Move (ι ω ρ : Type) where
  | step (n : ι) (w : ω)
  | request (n : ι) (r : ρ)

section Moves

variable [DecidableEq ι] (perform : κ → ω → σ → σ) (serve : ι → ρ → α → Prog κ ω σ α)

def Move.after : Move ι ω ρ → Pool ι κ ω σ α → Pool ι κ ω σ α
  | .step n w, p =>
    match p.threads n with
    | .done _ => p
    | .act deed next =>
      { shared := perform deed w p.shared, threads := Function.update p.threads n (next w p.shared) }
  | .request n r, p =>
    match p.threads n with
    | .done a => { p with threads := Function.update p.threads n (serve n r a) }
    | .act _ _ => p

omit [DecidableEq ι] in
/-- the access a move makes, if it makes one, has the property `P` -/
def Move.Meets (P : ι → κ → ω → σ → Prop) : Move ι ω ρ → Pool ι κ ω σ α → Prop
  | .step n w, p =>
    match p.threads n with
    | .done _ => True
    | .act deed _ => P n deed w p.shared
  | .request _ _, _ => True

omit [DecidableEq ι] in
instance decidableMeets (P : ι → κ → ω → σ → Prop) [∀ n deed w s, Decidable (P n deed w s)] :
    ∀ (m : Move ι ω ρ) (p : Pool ι κ ω σ α), Decidable (m.Meets P p)
  | .step n w, p =>
    match hn : p.threads n with
    | .done _ => .isTrue (by simp only [Move.Meets, hn])
    | .act deed _ => decidable_of_iff (P n deed w p.shared) (by simp only [Move.Meets, hn])
  | .request _ _, _ => .isTrue trivial

variable {perform serve}

theorem after_act {n : ι} {w : ω} {p : Pool ι κ ω σ α} {deed : κ} {next : ω → σ → Prog κ ω σ α}
    (h : p.threads n = .act deed next) : (Move.step n w : Move ι ω ρ).after perform serve p =
      { shared := perform deed w p.shared, threads := Function.update p.threads n (next w p.shared) } := by
  simp only [Move.after, h]

theorem after_waiting {n : ι} {w : ω} {p : Pool ι κ ω σ α} {a : α} (h : p.threads n = .done a) :
    (Move.step n w : Move ι ω ρ).after perform serve p = p := by
  simp only [Move.after, h]

theorem after_request {n : ι} {r : ρ} {p : Pool ι κ ω σ α} {a : α} (h : p.threads n = .done a) :
    (Move.request n r : Move ι ω ρ).after perform serve p =
      { p with threads := Function.update p.threads n (serve n r a) } := by
  simp only [Move.after, h]

theorem after_busy {n : ι} {r : ρ} {p : Pool ι κ ω σ α} {deed : κ} {next : ω → σ → Prog κ ω σ α}
    (h : p.threads n = .act deed next) : (Move.request n r : Move ι ω ρ).after perform serve p = p := by
  simp only [Move.after, h]

variable {T : ι → Terms κ ω σ} {Q : ι → α → σ → Prop}

/-- every thread keeps its terms -/
def Kept (perform : κ → ω → σ → σ) (T : ι → Terms κ ω σ) (Q : ι → α → σ → Prop) (p : Pool ι κ ω σ α) : Prop :=
  ∀ n, (p.threads n).Safe perform (T n) (Q n) p.shared

/-- the terms fit together, and every request starts a program that keeps them -/
structure Contract (perform : κ → ω → σ → σ) (serve : ι → ρ → α → Prog κ ω σ α) (T : ι → Terms κ ω σ)
    (Q : ι → α → σ → Prop) : Prop where
  lawful : ∀ n, (T n).Lawful
  apart : ∀ m n s t, m ≠ n → (T m).guarantee s t → (T n).rely s t
  serves : ∀ n r a s, Q n a s → (serve n r a).Safe perform (T n) (Q n) s

theorem safe_after (C : Contract perform serve T Q) (m : Move ι ω ρ) {p : Pool ι κ ω σ α}
    (hm : m.Meets (fun n => (T n).admits) p) (h : Kept perform T Q p) : Kept perform T Q (m.after perform serve p) := by
  cases m with
  | step n w =>
    cases hp : p.threads n with
    | done a =>
      rw [after_waiting hp]
      exact h
    | act deed next =>
      have hn := h n
      rw [hp] at hn
      simp only [Move.Meets, hp] at hm
      obtain ⟨-, hwithin, hrest⟩ := hn p.shared ((C.lawful n).refl _) w hm
      rw [after_act hp]
      intro k
      by_cases hk : k = n
      · subst hk
        simp only [Function.update_self]
        exact hrest
      · simp only [Function.update_of_ne hk]
        exact (h k).stable (C.lawful k) (C.apart n k _ _ (Ne.symm hk) hwithin)
  | request n r =>
    cases hp : p.threads n with
    | act deed next =>
      rw [after_busy hp]
      exact h
    | done a =>
      rw [after_request hp]
      intro k
      by_cases hk : k = n
      · subst hk
        have hn := h k
        rw [hp] at hn
        simp only [Function.update_self]
        exact C.serves k r a p.shared (hn p.shared ((C.lawful k).refl _))
      · simp only [Function.update_of_ne hk]
        exact h k

omit [DecidableEq ι] in
/-- an access of a thread that keeps its terms meets its condition -/
theorem meets_of_kept (C : Contract perform serve T Q) (m : Move ι ω ρ) {p : Pool ι κ ω σ α}
    (hm : m.Meets (fun n => (T n).admits) p) (h : Kept perform T Q p) : m.Meets (fun n => (T n).meets) p := by
  cases m with
  | step n w =>
    cases hp : p.threads n with
    | done a => simp only [Move.Meets, hp]
    | act deed next =>
      have hn := h n
      rw [hp] at hn
      simp only [Move.Meets, hp] at hm ⊢
      exact (hn p.shared ((C.lawful n).refl _) w hm).1
  | request n r => trivial

omit [DecidableEq ι] in
theorem meets_of_all {P : ι → κ → ω → σ → Prop} (h : ∀ n deed w s, P n deed w s) (m : Move ι ω ρ) (p : Pool ι κ ω σ α) :
    m.Meets P p := by
  cases m with
  | step n w =>
    cases hp : p.threads n with
    | done a => simp only [Move.Meets, hp]
    | act deed next =>
      simp only [Move.Meets, hp]
      exact h n deed w p.shared
  | request n r => trivial

/-- what every access meets, every interleaving meets -/
theorem along_of_all {P : ι → κ → ω → σ → Prop} (h : ∀ n deed w s, P n deed w s) (ms : List (Move ι ω ρ))
    (p : Pool ι κ ω σ α) : Runs.Along (Move.after perform serve) (Move.Meets P) ms p := by
  induction ms generalizing p with
  | nil => trivial
  | cons m ms ih => exact ⟨meets_of_all h m p, ih _⟩

/-- In every interleaving that meets only what is admitted, every access meets its condition. -/
theorem contract_run (C : Contract perform serve T Q) (ms : List (Move ι ω ρ)) {p : Pool ι κ ω σ α}
    (hms : Runs.Along (Move.after perform serve) (Move.Meets (fun n => (T n).admits)) ms p) (h : Kept perform T Q p) :
    Kept perform T Q (Runs.run (Move.after perform serve) ms p) ∧
      Runs.Along (Move.after perform serve) (Move.Meets (fun n => (T n).meets)) ms p :=
  ⟨Runs.run_inv (fun m _ hm h => safe_after C m hm h) hms h,
    Runs.along_of_inv (fun m _ hm h => safe_after C m hm h) (fun m _ hm h => meets_of_kept C m hm h) hms h⟩

omit [DecidableEq ι] in
/-- a thread that waits ends as its terms say -/
theorem ends_of_kept (hT : ∀ n, (T n).Lawful) {p : Pool ι κ ω σ α} (h : Kept perform T Q p) {n : ι} {a : α}
    (hn : p.threads n = .done a) : Q n a p.shared := by
  have hsafe := h n
  rw [hn] at hsafe
  exact hsafe p.shared ((hT n).refl _)

end Moves

-- from here on a program is shown to be safe by the rules
attribute [irreducible] Prog.Safe

end FaultContainment.Lib.Threads
