/-
Recovery of an engine from its store (`recover_from_store`).

The state is reset, loaded from the snapshot, and brought forward by the journal's events; counters and indexes are derived
again; the recovery is itself recorded, and a new epoch begins. A replay that fails leaves the engine attached, with what
it had loaded so far. Of a record that cannot be applied the part before the fault in it has been applied.

- `replay_sequence`: a replay of consecutive records resumes at the last of them.
-/
import FaultContainment.Engine.Durable

namespace FaultContainment.Engine

open FaultContainment.Lib FaultContainment.Ids FaultContainment.Enums FaultContainment.Records
open FaultContainment.DurableEvent FaultContainment.Persistence FaultContainment.Dependency

/-! ## Applying an event -/

/-- an audit record read from the journal -/
def replayHistory (h : HistoryEvent) (s : RuntimeSnapshot) : RuntimeSnapshot :=
  { s with
    history := s.history ++ [h]
    historyTotal := s.historyTotal + 1
    historySequence := if s.historySequence < h.sequence then h.sequence else s.historySequence }

/-- `apply_event`: upserts replace the record under its own identity -/
def applyEvent : Event → Impl → Impl
  | ⟨.resourceUpsert, r, _⟩, i => i.withResources (i.state.topology.resources.insert r.id r)
  | ⟨.resourceRemove, id, _⟩, i => i.withResources (i.state.topology.resources.erase id)
  | ⟨.containmentDomainUpsert, d, _⟩, i => i.withContainmentDomains (i.state.topology.containmentDomains.insert d.id d)
  | ⟨.containmentDomainRemove, id, _⟩, i => i.withContainmentDomains (i.state.topology.containmentDomains.erase id)
  | ⟨.isolationDomainUpsert, d, _⟩, i => i.withIsolationDomains (i.state.topology.isolationDomains.insert d.id d)
  | ⟨.isolationDomainRemove, id, _⟩, i => i.withIsolationDomains (i.state.topology.isolationDomains.erase id)
  | ⟨.failureDomainUpsert, d, _⟩, i => i.withFailureDomains (i.state.topology.failureDomains.insert d.id d)
  | ⟨.failureDomainRemove, id, _⟩, i => i.withFailureDomains (i.state.topology.failureDomains.erase id)
  | ⟨.dependencyUpsert, e, _⟩, i => i.withDependencies (insertEdge i.state.topology.dependencies e)
  | ⟨.dependencyRemove, id, _⟩, i => i.withDependencies (eraseEdge i.state.topology.dependencies id)
  | ⟨.policySet, p, _⟩, i => { i with state := { i.state with policy := p, policyGeneration := p.generation } }
  | ⟨.faultUpsert, f, _⟩, i => i.withFaults (i.state.faults.insert f.evidence.id f)
  | ⟨.containmentUpsert, c, _⟩, i => i.withContainments (i.state.containments.insert c.generation c)
  | ⟨.actionUpsert, a, _⟩, i => i.withActions (i.state.actions.insert a.id a)
  | ⟨.workerUpsert, w, _⟩, i => i.withIncarnations (i.state.workers.incarnations.insert w.key w)
  | ⟨.workerCurrentBoot, (worker, boot), _⟩, i =>
    { i with state := { i.state with
        workers := { i.state.workers with currentBoot := i.state.workers.currentBoot.insert worker boot } } }
  | ⟨.currentFault, _, _⟩, i => i
  | ⟨.degradedUpsert, (contract, assessment), _⟩, i =>
    { i with state := { i.state with
        degradedContracts := i.state.degradedContracts.insert contract.id contract
        degradedModes := i.state.degradedModes.insert assessment.contract assessment } }
  | ⟨.counters, c, _⟩, i => i.applyCounters c
  | ⟨.history, _, some h⟩, i => { i with state := replayHistory h i.state }
  | ⟨.history, _, none⟩, i => i
  | ⟨.recoveryMark, _, _⟩, i => i

/-- events applied in order -/
def applyAll (es : List Event) (i : Impl) : Impl := es.foldl (fun i e => applyEvent e i) i

/-- what `apply_event` has applied of a record by the time it finds it invalid: its body, when only the bytes after it are
wrong; a removal that is cut short removes the null identity, which is what its reader returns -/
def appliedPart (e : RawEvent) : Option Event :=
  match (bodyCodec e.kind).dec e.payload with
  | some (body, _) => if e.kind = .history ∧ e.history = none then none else some ⟨e.kind, body, e.history⟩
  | none =>
    match e.kind with
    | .resourceRemove => some ⟨.resourceRemove, {}, none⟩
    | .containmentDomainRemove => some ⟨.containmentDomainRemove, {}, none⟩
    | .isolationDomainRemove => some ⟨.isolationDomainRemove, {}, none⟩
    | .failureDomainRemove => some ⟨.failureDomainRemove, {}, none⟩
    | .dependencyRemove => some ⟨.dependencyRemove, {}, none⟩
    | _ => none

/-- the state an invalid record leaves -/
def applyPart (e : RawEvent) (i : Impl) : Impl := (appliedPart e).elim i fun event => applyEvent event i

/-- the text of a record that reads back but cannot be applied -/
def invalidRecord (index n : ℕ) (raw : RawEvent) : Text :=
  lit "journal record " ++ decimal index ++ lit " (sequence " ++ decimal n ++ lit ", kind " ++ Coded.name raw.kind ++
    lit ", " ++ decimal raw.payload.length ++ lit " payload bytes) is invalid"

/-- the replay loop: the last sequence number applied, or the text of the record that stopped it -/
def replay : ℕ → ℕ → List (ℕ × Bytes) → Impl → Impl × Except Text ℕ
  | _, last, [], i => (i, .ok last)
  | index, _, (n, bytes) :: records, i =>
    match decodeDurableEvent bytes with
    | none => (i, .error (lit "journal record " ++ decimal index ++ lit " does not decode"))
    | some raw =>
      match readBody raw with
      | none => (applyPart raw i, .error (invalidRecord index n raw))
      | some e => replay (index + 1) n records (applyEvent e i)

/-! ## Derived counters -/

/-- one more than every identity in use -/
def nextAfter (ids : List UInt64) (next : UInt64) : UInt64 :=
  ids.foldl (fun next id => if next ≤ id then id + 1 else next) next

/-- the incarnation counters and current boots that follow from the incarnations -/
def deriveWorkers (w : WorkerRegistry) : WorkerRegistry :=
  w.incarnations.toList.foldl (fun w e =>
    { w with
      lastIncarnation := w.lastIncarnation.subscript e.1.worker fun n => if n < e.2.incarnation then e.2.incarnation else n
      currentBoot := w.currentBoot.emplace e.1.worker e.1.boot }) w

/-- "derive the monotonic counters from the recovered state as a safety net" -/
def deriveCounters (i : Impl) : Impl :=
  let s := i.state
  { i with
    nextFault := nextAfter (s.faults.toList.map fun e => e.1.value) i.nextFault
    nextAction := nextAfter (s.actions.toList.map fun e => e.1.value) i.nextAction
    nextDegraded := nextAfter (s.degradedModes.toList.map fun e => e.1.value) i.nextDegraded
    state := { s with
      containmentGeneration := s.containments.toList.foldl (fun g e => if g < e.1 then e.1 else g) s.containmentGeneration
      verificationGeneration := s.containments.toList.foldl
        (fun g e => if g < e.2.verificationGeneration then e.2.verificationGeneration else g) s.verificationGeneration
      workers := deriveWorkers s.workers }
    -- `rebuild_digest_index`
    faultByDigest := s.faults.toList.foldl (fun m e => m.insert e.2.evidence.digest e.1) ∅ }

/-! ## `recover_from_store` -/

/-- the empty state recovery starts from -/
def resetForRecovery (i : Impl) : Impl :=
  { i with
    state := i.config.emptyState, releases := ∅, authorityLossFaults := ∅, nextFault := 1, nextAction := 1
    nextDegraded := 1 }

/-- the state of the snapshot, all of its bytes read -/
def loadSnapshot (r : Recovery) (i : Impl) : Option Impl :=
  if r.snapshotPresent then
    match StateDocument.readStateDocument r.snapshotPayload with
    | some (s, []) => some { i with state := s }
    | _ => none
  else some i

/-- the records a recovery leaves behind; a torn tail is noted in memory only -/
def recoverySection (clk : Clock) (r : Recovery) (i : Impl) : Step Unit :=
  let i := if r.tornTailBytes ≠ 0 then
      i.addHistory (clk 0)
        { type := .recoveryApplied
          detail := lit "discarded " ++ decimal r.tornTailBytes ++ lit " torn journal bytes from the last crash" }
    else i
  commit i (clk 1)
    { type := .recoveryApplied
      detail := lit "recovered durable state at epoch " ++ i.state.epoch.text ++ lit "; snapshot=" ++
        lit (if r.snapshotPresent then "yes" else "no") ++ lit " journal records applied=" ++
        decimal r.journalRecords.length }
    [] (⟨.recoveryMark, (), ·⟩) [] ()

/-- the engine takes over the numbering of the store -/
def takeOver (last : ℕ) (nowMs : UInt64) (i : Impl) : Impl :=
  { i with durableSequence := last, state := { i.state with nowMs := nowMs } }

/-- the end of a recovery: it is recorded, and a new epoch begins -/
def resume (clk : ℕ → Clock) (io : ℕ → Io) (nowMs : UInt64) (r : Recovery) (s : Sys) :
    Sys × Except Error CoordinatorEpoch :=
  match s.perform (io 0) (recoverySection (clk 0) r s.impl) with
  | (s, .error e) => (s, .error e)
  | (s, .ok ()) => s.perform (io 1) (beginEpoch (clk 1) nowMs
      (lit "coordinator restart; live authority requires revalidation") s.impl)

/-- `recover_from_store` -/
def recoverFromStore (clk : ℕ → Clock) (io : ℕ → Io) (nowMs : UInt64) (s : Sys) : Sys × Except Error CoordinatorEpoch :=
  match recover s.store with
  | .error e => (s, .error e)
  | .ok r =>
    let reset := resetForRecovery s.impl
    match loadSnapshot r reset with
    | none => ({ s with impl := reset, attached := true }, .error (makeError .persistenceCorrupt "persist.recover"
        "the durable snapshot is corrupt or was not consumed exactly"))
    | some loaded =>
      match replay 0 r.snapshotSequence r.journalRecords loaded with
      | (i, .error detail) => ({ s with impl := i, attached := true }, .error { makeError .persistenceCorrupt
          "persist.recover" "" with message := lit "durable journal cannot be replayed: " ++ detail })
      | (i, .ok last) =>
        resume clk io nowMs r { s with impl := takeOver last nowMs (deriveCounters i), attached := true }

/-- a recovery that succeeds loaded a snapshot, replayed the journal, and recorded both -/
theorem recoverFromStore_ok {clk : ℕ → Clock} {io : ℕ → Io} {nowMs : UInt64} {s : Sys}
    (h : (recoverFromStore clk io nowMs s).2.isOk = true) :
    ∃ r loaded j last s', recover s.store = .ok r ∧ loadSnapshot r (resetForRecovery s.impl) = some loaded ∧
      replay 0 r.snapshotSequence r.journalRecords loaded = (j, .ok last) ∧
      ({ s with impl := takeOver last nowMs (deriveCounters j), attached := true } : Sys).perform (io 0)
        (recoverySection (clk 0) r (takeOver last nowMs (deriveCounters j))) = (s', .ok ()) ∧
      recoverFromStore clk io nowMs s = s'.perform (io 1) (beginEpoch (clk 1) nowMs
        (lit "coordinator restart; live authority requires revalidation") s'.impl) := by
  unfold recoverFromStore at h ⊢
  split at h
  · simp [Except.isOk, Except.toBool] at h
  · next r hr =>
    dsimp only at h ⊢
    split at h
    · simp [Except.isOk, Except.toBool] at h
    · next loaded hload =>
      split at h
      · simp [Except.isOk, Except.toBool] at h
      · next j last hreplay =>
        unfold resume at h ⊢
        split at h
        · simp [Except.isOk, Except.toBool] at h
        · next s' hmarked =>
          exact ⟨r, loaded, j, last, s', hr, hload, hreplay, hmarked, rfl⟩

section Keeps

variable {P : Impl → Prop} (hseal : ∀ i n, P i → P { i with durableSequence := n })
  (hfault : ∀ clk e i, P i → P (persistenceFault clk e i).impl)
  (hhistory : ∀ time entry i, P i → P (i.addHistory time entry))
  (hepoch : ∀ clk nowMs reason i, P i → P (beginEpoch clk nowMs reason i).impl)

include hseal hfault hhistory hepoch

/-- what the numbering, audit records and an epoch advance leave alone, the end of a recovery leaves alone -/
theorem resume_keeps (clk : ℕ → Clock) (io : ℕ → Io) (nowMs : UInt64) (r : Recovery) {s : Sys} (h : P s.impl) :
    P (resume clk io nowMs r s).1.impl := by
  have hmarked : P (s.perform (io 0) (recoverySection (clk 0) r s.impl)).1.impl := by
    refine perform_keeps hseal hfault ?_
    refine hhistory _ _ _ ?_
    split_ifs
    · exact hhistory _ _ _ h
    · exact h
  unfold resume
  split
  · next s' e hs' =>
    rw [hs'] at hmarked
    exact hmarked
  · next s' hs' =>
    rw [hs'] at hmarked
    exact perform_keeps hseal hfault (hepoch _ _ _ _ hmarked)

/-- and a recovery that succeeds has it as soon as the state is loaded, replayed and counted -/
theorem recoverFromStore_keeps {clk : ℕ → Clock} {io : ℕ → Io} {nowMs : UInt64} {s : Sys}
    (h : (recoverFromStore clk io nowMs s).2.isOk = true) :
    ∃ r loaded j last, recover s.store = .ok r ∧ loadSnapshot r (resetForRecovery s.impl) = some loaded ∧
      replay 0 r.snapshotSequence r.journalRecords loaded = (j, .ok last) ∧
      (P (takeOver last nowMs (deriveCounters j)) → P (recoverFromStore clk io nowMs s).1.impl) := by
  obtain ⟨r, loaded, j, last, -, hr, hload, hreplay, -, -⟩ := recoverFromStore_ok h
  refine ⟨r, loaded, j, last, hr, hload, hreplay, fun hderived => ?_⟩
  have hresumed : (recoverFromStore clk io nowMs s).1 =
      (resume clk io nowMs r { s with impl := takeOver last nowMs (deriveCounters j), attached := true }).1 := by
    unfold recoverFromStore
    rw [hr]
    dsimp only
    rw [hload]
    dsimp only
    rw [hreplay]
  rw [hresumed]
  exact resume_keeps hseal hfault hhistory hepoch clk io nowMs r hderived

end Keeps

/-- a process restart: a new engine, then recovery from the files -/
def restart (clk : ℕ → Clock) (io : ℕ → Io) (config : Config) (nowMs : UInt64) (s : Sys) :
    Sys × Except Error CoordinatorEpoch :=
  recoverFromStore (fun k => clk (k + 1)) io nowMs { s with impl := construct (clk 0) config, attached := false }

/-- what every record keeps, an invalid record keeps -/
theorem applyPart_keeps {P : Impl → Prop} (hstep : ∀ e i, P i → P (applyEvent e i)) (e : RawEvent) {i : Impl}
    (h : P i) : P (applyPart e i) := by
  unfold applyPart
  cases appliedPart e with
  | none => exact h
  | some event => exact hstep event i h

/-- what every record keeps, a replay keeps, whether or not it reaches the end -/
theorem replay_keeps {P : Impl → Prop} (hstep : ∀ e i, P i → P (applyEvent e i)) (es : List (ℕ × Bytes))
    (index last : ℕ) {i : Impl} (h : P i) : P (replay index last es i).1 := by
  induction es generalizing index last i with
  | nil => exact h
  | cons e es ih =>
    unfold replay
    split
    · exact h
    · split
      · exact applyPart_keeps hstep _ h
      · exact ih _ _ (hstep _ _ h)

/-- a journal whose records all read back is replayed to its end -/
theorem replay_all {records : List (ℕ × Bytes)} {es : List Event}
    (h : records.map (fun record => decodeEvent record.2) = es.map some) (index last : ℕ) (i : Impl) :
    ∃ n, replay index last records i = (applyAll es i, .ok n) := by
  induction records generalizing es index last i with
  | nil =>
    obtain rfl := List.map_eq_nil_iff.mp h.symm
    exact ⟨last, rfl⟩
  | cons record records ih =>
    cases es with
    | nil => simp at h
    | cons e es =>
      obtain ⟨he, hes⟩ := List.cons.inj h
      obtain ⟨raw, hraw, hbody⟩ := Option.bind_eq_some_iff.mp he
      unfold replay
      rw [hraw]
      dsimp only
      rw [hbody]
      exact ih hes (index + 1) record.1 (applyEvent e i)

theorem applyEvent_sequence (e : Event) (i : Impl) : (applyEvent e i).durableSequence = i.durableSequence := by
  obtain ⟨kind, body, history⟩ := e
  cases kind
  case history => cases history <;> rfl
  all_goals rfl

/-- a replay does not number anything itself -/
theorem replay_durableSequence (es : List (ℕ × Bytes)) (index last : ℕ) (i : Impl) :
    (replay index last es i).1.durableSequence = i.durableSequence :=
  replay_keeps (P := fun j => j.durableSequence = i.durableSequence)
    (fun e j hj => (applyEvent_sequence e j).trans hj) es index last rfl

theorem loadSnapshot_sequence {r : Recovery} {i j : Impl} (h : loadSnapshot r i = some j) :
    j.durableSequence = i.durableSequence := by
  unfold loadSnapshot at h
  split_ifs at h
  · split at h
    · rw [← Option.some.inj h]
    · simp at h
  · rw [Option.some.inj h]

/-- a replay of consecutive records resumes at the last of them -/
theorem replay_sequence {es : List (ℕ × Bytes)} {index last : ℕ} {i j : Impl} {n : ℕ}
    (hc : SequencedLog.Consecutive (last + 1) es) (h : replay index last es i = (j, .ok n)) : n = last + es.length := by
  induction es generalizing index last i with
  | nil =>
    simp only [replay, Prod.mk.injEq, Except.ok.injEq] at h
    rw [← h.2, List.length_nil, Nat.add_zero]
  | cons e es ih =>
    obtain ⟨he, hc⟩ := (SequencedLog.consecutive_cons _ _ _).mp hc
    unfold replay at h
    split at h
    · simp at h
    · split at h
      · simp at h
      · rw [he] at h
        rw [ih hc h, List.length_cons]
        omega

end FaultContainment.Engine
