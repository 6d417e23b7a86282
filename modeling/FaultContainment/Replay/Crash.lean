/-
A crash in the middle of a flush.

The records of a call are appended one by one, and a process may stop anywhere on the way: after a whole record, or within one.
Recovery discards what is torn. What is left is the engine before the call with a prefix of what the call staged applied,
whatever that prefix is; the counters, which come last, are derived again.

- `appendAll_survivors`: what a flush leaves in the file, however its writes end.
- `Restorable.cutShort`: a restart after a call that was cut short.
- `crash_run`: the same after any run.
-/
import FaultContainment.Replay.Restart

namespace FaultContainment.Replay

open FaultContainment.Lib FaultContainment.Ids FaultContainment.Enums FaultContainment.Records
open FaultContainment.DurableEvent FaultContainment.Engine FaultContainment.Persistence
open FaultContainment.Durability (Honest honest_run noFailure recordsOf)

/-! ## A flush that is cut short -/

/-- how many records of a flush are whole in the file: those before the first write that failed, and its own if all of its
bytes had reached the file -/
def survivors (outcome : ℕ → WriteOutcome) : ℕ → List (ℕ × Bytes) → ℕ
  | _, [] => 0
  | k, (n, bytes) :: ws =>
    match outcome k with
    | .complete => survivors outcome (k + 1) ws + 1
    | .failed written => if written < (journalRecord n bytes).length then 0 else 1

/-- whole records, and a proper prefix of one more -/
theorem appendAll_survivors (outcome : ℕ → WriteOutcome) (k : ℕ) (st : Store) {ws : List (ℕ × Bytes)}
    (h : ∀ w ∈ ws, Readable w) : ∃ (e : ℕ × Bytes) (t : ℕ), Readable e ∧ t < (journalRecord e.1 e.2).length ∧
      (appendAll outcome k st ws).1 = { st with journal := st.journal ++
        (journalBytes (ws.take (survivors outcome k ws)) ++ (journalRecord e.1 e.2).take t) } := by
  have hnone : Readable (0, []) := ⟨by decide, by decide⟩
  induction ws generalizing k st with
  | nil => exact ⟨(0, []), 0, hnone, by simp, by simp [appendAll, survivors]⟩
  | cons w ws ih =>
    obtain ⟨hw, hws⟩ := List.forall_mem_cons.mp h
    have hlen : ¬ kMaxJournalRecordBytes < w.2.length := by
      have := hw.2
      omega
    obtain ⟨n, bytes⟩ := w
    unfold appendAll survivors appendRecord
    rw [if_neg hlen]
    dsimp only
    cases hk : outcome k with
    | complete =>
      obtain ⟨e, t, he, ht, hstore⟩ := ih (k + 1) { st with journal := st.journal ++ journalRecord n bytes } hws
      refine ⟨e, t, he, ht, ?_⟩
      dsimp only
      rw [hstore, List.take_succ_cons]
      simp [journalBytes, journalRecord, FrameFormat.frames]
    | failed written =>
      dsimp only
      by_cases hwritten : written < (journalRecord n bytes).length
      · rw [if_pos hwritten]
        exact ⟨(n, bytes), written, hw, hwritten, by simp⟩
      · rw [if_neg hwritten]
        refine ⟨(0, []), 0, hnone, by simp, ?_⟩
        rw [List.take_of_length_le (not_lt.mp hwritten)]
        simp [journalBytes, journalRecord, FrameFormat.frames]

/-- the files after a call whose writes end one way or another -/
theorem store_call {s : Sys} (ha : s.attached = true) {c : Call} (hs : Honest (c.op.run c.clk s.impl)) (io : Io) :
    (s.call io c).1.store = (appendAll io.outcome 0 s.store (recordsOf c s.impl)).1 := by
  unfold Sys.call Sys.perform Sys.flush recordsOf
  dsimp only
  by_cases hf : (c.op.run c.clk s.impl).flushed = true
  · rw [if_pos hf, if_pos ha]
    rcases appendAll io.outcome 0 s.store ((c.op.run c.clk s.impl).pending s.impl) with ⟨st, _ | e⟩
    · rfl
    · rfl
  · have hp : (c.op.run c.clk s.impl).pending s.impl = [] := by
      unfold Step.pending
      rw [hs.resolve_left hf]
      rfl
    rw [if_neg hf, hp]
    rfl

/-- the engine a crash leaves behind: the first records of the call are applied, and the counters derived again -/
def cutShort (io : Io) (c : Call) (i : Impl) : Impl :=
  deriveCounters (applyAll ((events c i).take (survivors io.outcome 0 (recordsOf c i))) i)

/-- the first of consecutive records -/
theorem consecutive_take {n : ℕ} {es : List (ℕ × Bytes)} (h : SequencedLog.Consecutive n es) (m : ℕ) :
    SequencedLog.Consecutive n (es.take m) := by
  rw [← List.take_append_drop m es] at h
  exact ((SequencedLog.consecutive_append _ _ _).mp h).1

/-- a call that is cut short, on a restorable node -/
theorem Restorable.cutShort {config : Config} {s : Sys} (h : Restorable config s) {c : Call} {io : Io}
    (hlasting : Lasting (.call c) s) (hsize : (s.call io c).1.store.journal.length ≤ kMaxJournalFileBytes)
    (hsmall : s.impl.durableSequence + (events c s.impl).length + 4 < 2 ^ 64) {clk : ℕ → Clock} {nowMs : UInt64} :
    (Engine.restart clk noFailure config nowMs (s.call io c).1).2 =
        .ok (nextGeneration (Replay.cutShort io c s.impl).state.epoch) ∧
      Mirrors ((renewal (clk 0) nowMs).after (Replay.cutShort io c s.impl))
        (Engine.restart clk noFailure config nowMs (s.call io c).1).1.impl := by
  obtain ⟨hscope, -, hrecorded, hroom⟩ := hlasting
  obtain ⟨start, es, hbacked, hmirrors⟩ := h.backed
  obtain ⟨base, records, hf, hseq, hdecoded, hbased⟩ := hbacked.files
  have hhonest := honest_run c s.impl hscope
  have hread : ∀ w ∈ recordsOf c s.impl, Readable w := readable_pending hrecorded hroom
  obtain ⟨e, t, he, ht, hstore⟩ := appendAll_survivors io.outcome 0 s.store hread
  rw [← store_call hbacked.attached hhonest io] at hstore
  -- what the files hold after the crash
  generalize hm : survivors io.outcome 0 (recordsOf c s.impl) = m at hstore
  have hkept : ∀ w ∈ records ++ (recordsOf c s.impl).take m, Readable w := fun w hw =>
    (List.mem_append.mp hw).elim (hf.readable w) fun hw => hread w (List.mem_of_mem_take hw)
  have hnext : SequencedLog.Consecutive (s.impl.durableSequence + 1) (recordsOf c s.impl) :=
    encodeStaged_consecutive _ _
  have hconsecutive : SequencedLog.Consecutive (baseSequence base + 1) (records ++ (recordsOf c s.impl).take m) := by
    refine (SequencedLog.consecutive_append _ _ _).mpr ⟨hf.consecutive, ?_⟩
    rw [show baseSequence base + 1 + records.length = s.impl.durableSequence + 1 by omega]
    exact consecutive_take hnext m
  have hstaged : (recordsOf c s.impl).map (fun record => decodeEvent record.2) = (events c s.impl).map some :=
    encodeStaged_decoded hrecorded _
  have hdecoded' : (records ++ (recordsOf c s.impl).take m).map (fun record => decodeEvent record.2) =
      (es ++ (events c s.impl).take m).map some := by
    rw [List.map_append, List.map_append, hdecoded, List.map_take, hstaged, List.map_take]
  have hjournal : (s.call io c).1.store.journal =
      journalBytes (records ++ (recordsOf c s.impl).take m) ++ (journalRecord e.1 e.2).take t := by
    rw [hstore, journalBytes_append, ← hf.journal, List.append_assoc]
  have hfile : (s.call io c).1.store.snapshotFile = base.map fun b => snapshotImage b.2 b.1 := by
    rw [hstore]
    exact hf.snapshot
  obtain ⟨r, loaded, hstart, hcount, hrecovered⟩ := recovers_torn (s := (s.call io c).1) hbased
    (hbased.holds hfile hf.covered) hkept hconsecutive hdecoded' he ht hjournal hsize (fun k => clk (k + 1)) noFailure nowMs
    (j := construct (clk 0) config) rfl
  have hlength : (recordsOf c s.impl).length = (events c s.impl).length := length_pending hrecorded s.impl
  have hlast : baseSequence base + (records ++ (recordsOf c s.impl).take m).length + 4 < 2 ^ 64 := by
    have htake := List.length_take_le' m (recordsOf c s.impl)
    rw [List.length_append]
    omega
  -- the engine as it was rebuilt
  have hrebuilt : Mirrors (Replay.cutShort io c s.impl)
      (takeOver (baseSequence base + (records ++ (recordsOf c s.impl).take m).length) nowMs
        (deriveCounters (applyAll (es ++ (events c s.impl).take m) loaded))) := by
    unfold Replay.cutShort
    rw [hm, applyAll_append]
    exact (mirrors_counted (mirrors_applyAll (hmirrors loaded hstart) _)).trans (mirrors_takeOver _ _ _)
  have heq : Engine.restart clk noFailure config nowMs (s.call io c).1 = resume (fun k => clk (k + 1)) noFailure nowMs r
      { (s.call io c).1 with
        impl := takeOver (baseSequence base + (records ++ (recordsOf c s.impl).take m).length) nowMs
          (deriveCounters (applyAll (es ++ (events c s.impl).take m) loaded))
        attached := true } := hrecovered
  obtain ⟨hresult, hrenewed⟩ := resume_mirrors (s := { (s.call io c).1 with
      impl := takeOver (baseSequence base + (records ++ (recordsOf c s.impl).take m).length) nowMs
        (deriveCounters (applyAll (es ++ (events c s.impl).take m) loaded))
      attached := true }) rfl hcount (fun k => clk (k + 1)) nowMs hlast
  rw [heq, hresult]
  refine ⟨congrArg (fun p => Except.ok (nextGeneration p.1)) hrebuilt.stamps, Mirrors.trans ?_ hrenewed⟩
  exact mirrors_beginEpoch hrebuilt (clk 0) (clk 2) nowMs nowMs renewalReason renewalReason

/-- **A crash keeps a prefix of what was staged.** However the writes of a call end, after any run, a new process on the
files recovers: it begins the next epoch, and it mirrors the engine before the call with exactly those events applied whose
records are whole. -/
theorem crash_run (clk : Clock) (config : Config) (acts : List Act) (c : Call) (io : Io) (clk' : ℕ → Clock) (nowMs : UInt64)
    (hlasting : Runs.Along (Act.after config) Lasting (acts ++ [.call c]) (fresh clk config))
    (hsize : ((Runs.run (Act.after config) acts (fresh clk config)).call io c).1.store.journal.length ≤ kMaxJournalFileBytes)
    (hsmall : (Runs.run (Act.after config) acts (fresh clk config)).impl.durableSequence +
      (events c (Runs.run (Act.after config) acts (fresh clk config)).impl).length + 4 < 2 ^ 64) :
    let s := Runs.run (Act.after config) acts (fresh clk config)
    let s' := Engine.restart clk' noFailure config nowMs (s.call io c).1
    s'.2 = .ok (nextGeneration (cutShort io c s.impl).state.epoch) ∧
      Mirrors ((renewal (clk' 0) nowMs).after (cutShort io c s.impl)) s'.1.impl := by
  intro s s'
  obtain ⟨hacts, hcall, -⟩ := (Runs.along_append _ _ _ _ _).mp hlasting
  have hs : Restorable config s := Runs.run_inv restorable_after hacts (restorable_fresh clk config)
  exact hs.cutShort hcall hsize hsmall

/-- two records reach the file whole, the third is torn -/
def torn : Io := { outcome := fun k => if k < 2 then .complete else .failed 5 }

/-- the commitment of the containment fences two resources and plans two actions -/
def commitment : Call := ⟨ticks, .authorizeContainment ⟨1⟩ ⟨1⟩⟩

theorem crash_run_torn :
    let s := Runs.run (Act.after {}) (failing.map Act.call ++ [.snapshot]) (fresh ticks {})
    let s' := Engine.restart (fun _ => ticks) noFailure {} 9 (s.call torn commitment).1
    s'.2 = .ok (nextGeneration (cutShort torn commitment s.impl).state.epoch) ∧
      Mirrors ((renewal ticks 9).after (cutShort torn commitment s.impl)) s'.1.impl := by
  refine crash_run ticks {} _ commitment torn (fun _ => ticks) 9 ?_ ?_ ?_
  · rw [List.append_assoc, Runs.along_append]
    refine ⟨lasting_failing, lasting_failed, ?_, trivial⟩
    exact (by decide +kernel : Journaled commitment (Act.after {} .snapshot failed))
  · decide +kernel
  · decide +kernel

end FaultContainment.Replay
