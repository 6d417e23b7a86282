/-
Lives of an engine: locked sections, snapshots, and recoveries.

A recovery may be another process, with its own configuration, on the files it finds. What a development notes about a life
besides the engine is its own; what the notes say of the files is a promise that recoveries keep.

- `promised_inv`: the invariant rule for lives, one obligation for each kind of move.
- `Finds.resumed`: what a recovery from readable files does, from what the files hold.
-/
import FaultContainment.Lib.Runs
import FaultContainment.Engine.Recovery

namespace FaultContainment.Engine

open FaultContainment.Lib FaultContainment.Records FaultContainment.DurableEvent FaultContainment.Persistence

/-- what happens to an engine: a section, a snapshot, or a recovery -/
inductive Move where
  | call (c : Call)
  | snapshot
  | recover (clk : ℕ → Clock) (io : ℕ → Io) (nowMs : UInt64) (s : Sys)

namespace Move

/-- the engine after a move -/
def engine : Move → Impl → Impl
  | call c, i => c.after i
  | snapshot, i => i
  | recover clk io nowMs s, _ => (recoverFromStore clk io nowMs s).1.impl

/-- a promise about the recoveries of a life -/
def Promised {σ : Type} (P : (ℕ → Clock) → (ℕ → Io) → UInt64 → Sys → σ → Prop) : Move → σ → Prop
  | recover clk io nowMs s, l => P clk io nowMs s l
  | _, _ => True

variable {σ : Type} {P : (ℕ → Clock) → (ℕ → Io) → UInt64 → Sys → σ → Prop}

/-- **Invariants of lives.** -/
theorem promised_inv (after : Move → σ → σ) (Inv : σ → Prop) (hcall : ∀ c l, Inv l → Inv (after (call c) l))
    (hsnapshot : ∀ l, Inv l → Inv (after snapshot l))
    (hrecover : ∀ clk io nowMs s l, P clk io nowMs s l → Inv l → Inv (after (recover clk io nowMs s) l)) (m : Move) (l : σ)
    (hm : Promised P m l) (h : Inv l) : Inv (after m l) := by
  cases m with
  | call c => exact hcall c l h
  | snapshot => exact hsnapshot l h
  | recover clk io nowMs s => exact hrecover clk io nowMs s l hm h

end Move

/-- the files are readable to their end, and what they hold is so -/
def Finds (s : Sys) (P : Recovery → Impl → List Event → Prop) : Prop :=
  ∃ (r : Recovery) (loaded : Impl) (es : List Event), recover s.store = .ok r ∧
    loadSnapshot r (resetForRecovery s.impl) = some loaded ∧
    r.journalRecords.map (fun record => decodeEvent record.2) = es.map some ∧ P r loaded es

/-- the records that were found are replayed on the snapshot, and the recovery goes on from there -/
theorem Finds.resumed {s : Sys} {P : Recovery → Impl → List Event → Prop} (h : Finds s P) (clk : ℕ → Clock)
    (io : ℕ → Io) (nowMs : UInt64) :
    ∃ r loaded es last, recover s.store = .ok r ∧ loadSnapshot r (resetForRecovery s.impl) = some loaded ∧ P r loaded es ∧
      replay 0 r.snapshotSequence r.journalRecords loaded = (applyAll es loaded, .ok last) ∧
      recoverFromStore clk io nowMs s = resume clk io nowMs r
        { s with impl := takeOver last nowMs (deriveCounters (applyAll es loaded)), attached := true } := by
  obtain ⟨r, loaded, es, hr, hload, hes, hfound⟩ := h
  obtain ⟨last, hreplay⟩ := replay_all hes 0 r.snapshotSequence loaded
  refine ⟨r, loaded, es, last, hr, hload, hfound, hreplay, ?_⟩
  unfold recoverFromStore
  rw [hr]
  dsimp only
  rw [hload]
  dsimp only
  rw [hreplay]

end FaultContainment.Engine
