/-
The engine under the connections.

The sections the threads enter under the lock of the engine follow one another, whatever happens between them, and each is one
call of the engine that takes the numbers of its records before it leaves. So the interleavings add nothing to the runs of the
engine: what the records say, in the order of their numbers, is what the engine did.

- `recorded_run`: in every interleaving the records of the sections are numbered in one go, none missing and none twice.
- `replicated_run`: so a replica that is told the events in the order of their numbers agrees with the engine.
-/
import FaultContainment.Dispatching.WriteAhead
import FaultContainment.Sessions.Identity
import FaultContainment.Replay.Restart

namespace FaultContainment.Sessions

open FaultContainment.Lib FaultContainment.Records FaultContainment.DurableEvent FaultContainment.Engine
open FaultContainment.Lib.Threads FaultContainment.Replay
open FaultContainment.Answers (Socket)
open FaultContainment.References (Unsaturated)

/-- the call of the engine a turn makes, if it makes one -/
def entered : Turn → Pool Socket Deed Weather Hub Conn → Option Call
  | .step n w, p =>
    match p.threads n with
    | .act (.locked _ op) _ => some ⟨w.clk, op⟩
    | _ => none
  | .request _ _, _ => none

/-- the events of the call -/
def told (t : Turn) (p : Pool Socket Deed Weather Hub Conn) : List Event :=
  match entered t p with
  | some c => events c p.shared.impl
  | none => []

variable (control : Socket → Bytes → Program Unit)

/-- the events of a run, in the order in which the sections were entered -/
def telling : List Turn → Pool Socket Deed Weather Hub Conn → List Event
  | [], _ => []
  | t :: ts, p => told t p ++ telling ts (Turn.after control t p)

/-- the records of a run, each section's with the numbers it took -/
def recorded : List Turn → Pool Socket Deed Weather Hub Conn → List (ℕ × Bytes)
  | [], _ => []
  | t :: ts, p => encodeStaged p.shared.impl.durableSequence (told t p) ++ recorded ts (Turn.after control t p)

/-- an access that leaves generations and action identities to allocate -/
def Roomy : Deed → Weather → Hub → Prop
  | .locked _ op, w, h => Room ⟨w.clk, op⟩ h.impl
  | _, _, _ => True

instance decidableRoomy (w : Weather) (h : Hub) : ∀ deed, Decidable (Roomy deed w h)
  | .locked _ op => inferInstanceAs (Decidable (Room ⟨w.clk, op⟩ h.impl))
  | .append _ _ | .look | .enrol _ _ | .dismiss _ | .send _ _ => .isTrue trivial

/-! ## One turn -/

variable {p : Pool Socket Deed Weather Hub Conn}

theorem impl_outside {t : Turn} (h : entered t p = none) : (Turn.after control t p).shared.impl = p.shared.impl := by
  cases t with
  | request n r =>
    cases hp : p.threads n with
    | done c => rw [Turn.after, after_request hp]
    | act deed next => rw [Turn.after, after_busy hp]
  | step n w =>
    cases hp : p.threads n with
    | done c => rw [Turn.after, after_waiting hp]
    | act deed next =>
      rw [Turn.after, after_act hp]
      cases deed with
      | locked author op => simp [entered, hp] at h
      | send target frame =>
        simp only [Deed.perform]
        split_ifs <;> rfl
      | append | look | enrol | dismiss => rfl

/-- a call is entered by a thread whose next access is a section -/
theorem entered_some {t : Turn} {c : Call} (h : entered t p = some c) : ∃ n w author op next,
    t = .step n w ∧ p.threads n = .act (.locked author op) next ∧ c = ⟨w.clk, op⟩ := by
  cases t with
  | request n r => simp [entered] at h
  | step n w =>
    cases hp : p.threads n with
    | done c => simp [entered, hp] at h
    | act deed next =>
      cases deed with
      | locked author op =>
        simp only [entered, hp, Option.some.injEq] at h
        exact ⟨n, w, author, op, next, rfl, hp, h.symm⟩
      | send | append | look | enrol | dismiss => simp [entered, hp] at h

/-- a section is a call of the engine, and takes numbers for its records -/
theorem impl_inside {t : Turn} {c : Call} (h : entered t p = some c) : (Turn.after control t p).shared.impl =
    { c.after p.shared.impl with durableSequence := p.shared.impl.durableSequence +
        (encodeStaged p.shared.impl.durableSequence (events c p.shared.impl)).length } := by
  obtain ⟨n, w, author, op, next, rfl, hp, rfl⟩ := entered_some h
  rw [Turn.after, after_act hp]
  rfl

theorem sequence_turn (t : Turn) : (Turn.after control t p).shared.impl.durableSequence =
    p.shared.impl.durableSequence + (encodeStaged p.shared.impl.durableSequence (told t p)).length := by
  cases hc : entered t p with
  | none =>
    rw [impl_outside control hc, told, hc]
    rfl
  | some c => rw [impl_inside control hc, told, hc]

variable {control}

theorem room_entered {t : Turn} {c : Call} (h : entered t p = some c)
    (hroom : t.Meets (fun _ deed w h => Roomy deed w h) p) : Room c p.shared.impl := by
  obtain ⟨n, w, author, op, next, rfl, hp, rfl⟩ := entered_some h
  simp only [Move.Meets, hp] at hroom
  exact hroom

theorem fit_turn (t : Turn) (hfit : Fit p.shared.impl) (hroom : t.Meets (fun _ deed w h => Roomy deed w h) p) :
    Fit (Turn.after control t p).shared.impl := by
  cases hc : entered t p with
  | none =>
    rw [impl_outside control hc]
    exact hfit
  | some c =>
    rw [impl_inside control hc]
    exact (fit_after c hfit (room_entered hc hroom)).sealed _

theorem replicated_turn (t : Turn) {j : Impl} (hfit : Fit p.shared.impl)
    (hroom : t.Meets (fun _ deed w h => Roomy deed w h) p) (hm : Mirrors p.shared.impl j) :
    Mirrors (Turn.after control t p).shared.impl (applyAll (told t p) j) := by
  cases hc : entered t p with
  | none =>
    rw [impl_outside control hc, told, hc, applyAll_nil]
    exact hm
  | some c =>
    rw [impl_inside control hc, told, hc]
    exact (mirrors_sealed _ _).symm.trans (mirrors_after c hfit (room_entered hc hroom) hm)

/-! ## Every interleaving -/

/-- the numbers of a run are those of its events, in the order in which the sections were entered -/
theorem recorded_run (turns : List Turn) :
    recorded control turns p = encodeStaged p.shared.impl.durableSequence (telling control turns p) := by
  induction turns generalizing p with
  | nil => rfl
  | cons t ts ih => rw [recorded, telling, Dispatching.encodeStaged_append, ih, sequence_turn]

/-- what is told in a run takes a replica where the sections take the engine -/
theorem mirrored_run (turns : List Turn) {j : Impl} (hfit : Fit p.shared.impl)
    (hroom : Runs.Along (Turn.after control) (Move.Meets fun _ deed w h => Roomy deed w h) turns p)
    (hm : Mirrors p.shared.impl j) :
    Mirrors (Runs.run (Turn.after control) turns p).shared.impl (applyAll (telling control turns p) j) := by
  induction turns generalizing p j with
  | nil => exact hm
  | cons t ts ih =>
    rw [telling, applyAll_append]
    exact ih (fit_turn t hfit hroom.1) hroom.2 (replicated_turn t hfit hroom.1 hm)

/-- **The records say what happened.** In every interleaving of the connections, as long as generations and action identities
are left, the records of all sections are numbered one after the other, and a replica that applies their events in that order
agrees with the engine. -/
theorem replicated_run (turns : List Turn) {j : Impl} (hfit : Fit p.shared.impl)
    (hroom : Runs.Along (Turn.after control) (Move.Meets fun _ deed w h => Roomy deed w h) turns p)
    (hm : Mirrors p.shared.impl j) :
    SequencedLog.Consecutive (p.shared.impl.durableSequence + 1) (recorded control turns p) ∧
      recorded control turns p = encodeStaged p.shared.impl.durableSequence (telling control turns p) ∧
      Mirrors (Runs.run (Turn.after control) turns p).shared.impl (applyAll (telling control turns p) j) := by
  refine ⟨?_, recorded_run turns, mirrored_run turns hfit hroom hm⟩
  rw [recorded_run]
  exact encodeStaged_consecutive _ _

theorem replicated_run_reporting :
    SequencedLog.Consecutive 1 (recorded (handleControl 0) reporting (idle unstored)) ∧
      recorded (handleControl 0) reporting (idle unstored) =
        encodeStaged 0 (telling (handleControl 0) reporting (idle unstored)) ∧
      Mirrors (Runs.run (Turn.after (handleControl 0)) reporting (idle unstored)).shared.impl
        (applyAll (telling (handleControl 0) reporting (idle unstored)) (construct ticks {})) :=
  replicated_run reporting (fit_construct ticks {}) (by decide +kernel) (.refl _)

end FaultContainment.Sessions
