/-
Updates of a resource from outside the engine: the control request `set-resource-owner` and worker evidence.

Both take a snapshot, rebuild the stored record from it, and hand the whole record back to `update_resource`, which stores
what it is given.

- `updateResource_fence_iff`: an update keeps a fence exactly when the caller's record carries it.
- `workerEvidence_keeps`: the evidence handler, on a snapshot of the state it updates, lifts no fence.
-/
import FaultContainment.Quarantine
import FaultContainment.Protocol

namespace FaultContainment.Coordinator

open FaultContainment.Lib FaultContainment.Ids FaultContainment.Enums FaultContainment.Records
open FaultContainment.BlastRadius FaultContainment.Engine FaultContainment.Quarantine FaultContainment.Protocol

/-! ## Control requests -/

/-- the loop of `parse_id`: digits only, no overflow -/
def parseDigits : Text → ℕ → Option ℕ
  | [], value => some value
  | c :: cs, value =>
    if c < 48 ∨ 57 < c then none
    else
      let digit := c.toNat - 48
      if (2 ^ 64 - 1 - digit) / 10 < value then none else parseDigits cs (value * 10 + digit)

/-- `parse_id`: `<Domain>:<decimal>` or `<decimal>` -/
def parseId (t : IdTag) (text : Text) : Option (Id t) :=
  if text = [] then none
  else
    match text.span (· ≠ 58) with
    | (_, []) => (parseDigits text 0).map fun n => ⟨UInt64.ofNat n⟩
    | (domain, _ :: digits) =>
      if domain ≠ t.name ∨ digits = [] then none else (parseDigits digits 0).map fun n => ⟨UInt64.ofNat n⟩

/-- `parse_id_argument`: empty, `-` and `0` stand for no identity -/
def parseIdArgument (t : IdTag) (text : Text) : Option (Id t) :=
  if text = [] ∨ text = lit "-" ∨ text = lit "0" then some {} else parseId t text

/-- the `parse_` function of an enumeration -/
def parseCoded (α : Type) [DecidableEq α] [Coded α] (text : Text) : Option α :=
  ((Coded.table (α := α)).map Prod.fst).find? fun a => Coded.name a = text

/-- `failure` -/
def failure (code : ErrorCode) (message : Text) : ControlResponse := { code := code, message := message }

/-- the response to an update -/
def respond : Except Error ResourceRecord → ControlResponse
  | .ok stored => { ok := true, lines := [lit "resource=" ++ stored.id.text,
      lit "resource_generation=" ++ stored.generation.text] }
  | .error e => failure e.code (errorText e)

/-- the record `set-resource-owner` stores: owned, active, fresh -/
def ownedRecord (worker : WorkerId) (boot : WorkerBootId) (r : ResourceRecord) : ResourceRecord :=
  { r with
    ownerWorker := worker, ownerBoot := boot, state := .active, freshness := .fresh
    evidenceSequence := nextGeneration r.evidenceSequence }

/-- the resource, worker and boot `set-resource-owner` is about -/
def ownerArguments : List Text → Except ControlResponse (ResourceId × WorkerId × WorkerBootId)
  | resource :: worker :: boot :: _ =>
    match parseIdArgument .resourceId resource, parseIdArgument .workerId worker, parseIdArgument .workerBootId boot with
    | some resource, some worker, some boot => .ok (resource, worker, boot)
    | _, _, _ => .error (failure .invalidId (lit "set-resource-owner: bad identity argument"))
  | _ => .error (failure .invalidArgument (lit "set-resource-owner <resource> <worker> <boot>"))

/-- `set-resource-owner`; the snapshot is taken before the update's own lock -/
def setResourceOwner (clk : Clock) (args : List Text) (snapshot : RuntimeSnapshot) (i : Impl) : Impl × ControlResponse :=
  match ownerArguments args with
  | .error response => (i, response)
  | .ok (resource, worker, boot) =>
    match snapshot.topology.resources.find resource with
    | none => (i, failure .unknownResource (lit "set-resource-owner: unknown resource"))
    | some r =>
      let step := updateResource clk (ownedRecord worker boot r) r.generation i
      (step.impl, respond step.result)

/-! ## Worker evidence -/

/-- the checks of the `WORKER_EVIDENCE` handler; the record in the snapshot -/
def admitWorkerEvidence (handshake : Option WorkerBootId) (m : WorkerEvidenceMessage) (epoch : CoordinatorEpoch)
    (snapshot : RuntimeSnapshot) : Except (ErrorCode × Text) ResourceRecord :=
  if handshake ≠ some m.boot then
    .error (.staleWorkerBoot, lit "evidence for an incarnation that did not complete the handshake")
  else if m.epoch ≠ epoch then .error (.staleEpoch, lit "stale coordinator epoch")
  else
    match snapshot.topology.resources.find m.resource with
    | none => .error (.unknownResource, lit "unknown resource")
    | some r =>
      if m.generation.valid ∧ m.generation ≠ r.generation then
        .error (.staleResourceGeneration, lit "evidence targets a superseded resource generation")
      else .ok r

/-- the `WORKER_EVIDENCE` handler between the snapshot and the reply: an acknowledgment, or a rejection -/
def workerEvidence (clk : Clock) (handshake : Option WorkerBootId) (m : WorkerEvidenceMessage)
    (snapshot : RuntimeSnapshot) (i : Impl) : Impl × Except (ErrorCode × Text) WorkerEvidenceAck :=
  let source := lit "worker " ++ m.boot.text
  match admitWorkerEvidence handshake m i.state.epoch snapshot with
  | .error e => (i, .error e)
  | .ok r =>
    if r.quarantined ∨ isContained r.state then
      -- a fresh incarnation never inherits the authority of the one that was contained
      let published := publishResourceEvidence clk m.resource {} m.freshness m.sequence m.mechanism source i
      (published.impl, .ok
        { fenced := true
          generation := match published.result with | .ok stored => stored.generation | .error _ => {}
          detail := lit "resource is under containment; evidence recorded without granting authority" })
    else
      let updated := updateResource clk { r with ownerWorker := m.worker, ownerBoot := m.boot, state := .active }
        r.generation i
      match updated.result with
      | .error e => (updated.impl, .error (e.code, errorText e))
      | .ok stored =>
        let published := publishResourceEvidence (fun n => clk (n + 2)) m.resource stored.generation .fresh m.sequence
          m.mechanism source updated.impl
        match published.result with
        | .error e => (published.impl, .error (e.code, errorText e))
        | .ok stored => (published.impl, .ok
            { granted := true, generation := stored.generation
              detail := lit "evidence accepted and authority granted" })

/-! ## What an update leaves of a fence -/

/-- what a successful update stores: the caller's record, under a new generation -/
theorem updateResource_find {clk : Clock} {record : ResourceRecord} {expected : ResourceGeneration} {i : Impl}
    {stored : ResourceRecord} (h : (updateResource clk record expected i).result = .ok stored) :
    stored = { record with generation := nextGeneration record.generation, updatedAtMs := clk 0 } ∧
      (updateResource clk record expected i).impl.state.topology.resources.find record.id = some stored := by
  unfold updateResource at h ⊢
  split at h
  · simp [Step.refuse] at h
  · next previous hp =>
    simp only [commit_topology, Impl.withResources_resources]
    have hs := Except.ok.inj h
    exact ⟨hs.symm, hs ▸ OrderedMap.find_insert_self _ _ _⟩

/-- the fence a record is under: quarantined, in a contained state, for a containment -/
def FencedFor (g : ContainmentGeneration) (r : ResourceRecord) : Prop :=
  r.quarantined = true ∧ isContained r.state = true ∧ r.containmentGeneration = g

instance (g : ContainmentGeneration) (r : ResourceRecord) : Decidable (FencedFor g r) :=
  inferInstanceAs (Decidable (_ ∧ _ ∧ _))

/-- a successful `set-resource-owner` leaves the record it updates without a fence -/
theorem setResourceOwner_lifts {clk : Clock} {args : List Text} {snapshot : RuntimeSnapshot} {i : Impl}
    (h : (setResourceOwner clk args snapshot i).2.ok = true) :
    ∃ resource worker boot r after, ownerArguments args = .ok (resource, worker, boot) ∧
      snapshot.topology.resources.find resource = some r ∧
      (setResourceOwner clk args snapshot i).1.state.topology.resources.find r.id = some after ∧
      ∀ g, ¬ FencedFor g after := by
  unfold setResourceOwner at h ⊢
  cases ha : ownerArguments args with
  | error response =>
    rw [ha] at h
    simp only at h
    unfold ownerArguments at ha
    split at ha
    · split at ha <;> simp only [Except.error.injEq, reduceCtorEq] at ha
      rw [← ha] at h
      simp [failure] at h
    · simp only [Except.error.injEq] at ha
      rw [← ha] at h
      simp [failure] at h
  | ok request =>
    obtain ⟨resource, worker, boot⟩ := request
    rw [ha] at h
    dsimp only at h ⊢
    cases hr : snapshot.topology.resources.find resource with
    | none =>
      rw [hr] at h
      simp [failure] at h
    | some r =>
      rw [hr] at h
      dsimp only at h ⊢
      cases hs : (updateResource clk (ownedRecord worker boot r) r.generation i).result with
      | error e =>
        rw [hs] at h
        simp [respond, failure] at h
      | ok stored =>
        obtain ⟨hstored, hfind⟩ := updateResource_find hs
        refine ⟨resource, worker, boot, r, stored, rfl, hr, hfind, fun g hg => ?_⟩
        have hcontained := hg.2.1
        rw [hstored] at hcontained
        simp [ownedRecord, isContained] at hcontained

/-- **An update keeps a fence exactly when the caller's record carries it.** `set-resource-owner` never does. -/
theorem updateResource_fence_iff (clk : Clock) (i : Impl) :
    (∀ (record previous stored : ResourceRecord) (expected : ResourceGeneration),
      i.state.topology.resources.find record.id = some previous →
      (updateResource clk record expected i).result = .ok stored →
      ((∃ after, (updateResource clk record expected i).impl.state.topology.resources.find record.id = some after ∧
        FencedFor previous.containmentGeneration after) ↔ FencedFor previous.containmentGeneration record)) ∧
    (∀ (args : List Text) (snapshot : RuntimeSnapshot), (setResourceOwner clk args snapshot i).2.ok = true →
      ∃ resource worker boot r after, ownerArguments args = .ok (resource, worker, boot) ∧
        snapshot.topology.resources.find resource = some r ∧
        (setResourceOwner clk args snapshot i).1.state.topology.resources.find r.id = some after ∧
        ∀ g, ¬ FencedFor g after) := by
  refine ⟨fun record previous stored expected _ hs => ?_, fun args snapshot h => setResourceOwner_lifts h⟩
  obtain ⟨hstored, hfind⟩ := updateResource_find hs
  rw [hfind]
  constructor
  · rintro ⟨after, hafter, hf⟩
    rw [← Option.some.inj hafter, hstored] at hf
    exact hf
  · intro hf
    exact ⟨stored, rfl, hstored ▸ hf⟩

/-- a run that contains resource 5 -/
def containment : List Call := [
  ⟨ticks, .registerResource { id := ⟨5⟩ }⟩,
  ⟨ticks, .publishFault { subject := ⟨5⟩, kind := .processDeath }⟩,
  ⟨ticks, .authorizeContainment ⟨1⟩ {}⟩]

/-- resource 5 under containment -/
def contained : Impl := Runs.run Call.after containment (construct ticks {})

/-- the stored record of resource 5, under another name -/
def renamed : ResourceRecord := { (contained.state.topology.resources.find ⟨5⟩).getD {} with name := lit "renamed" }

theorem updateResource_fence_iff_renamed :
    (∃ after, (updateResource ticks renamed renamed.generation contained).impl.state.topology.resources.find ⟨5⟩ =
      some after ∧ FencedFor ⟨1⟩ after) :=
  ((updateResource_fence_iff ticks contained).1 renamed { renamed with name := [] }
    { renamed with generation := nextGeneration renamed.generation, updatedAtMs := 1 } renamed.generation
    (by decide +kernel) (by decide +kernel)).mpr (by decide +kernel)

/-- An update with a fresh record lifts the fence of a contained resource. -/
theorem updateResource_lifts_fence :
    ¬ ∀ (clk : Clock) (config : Config) (calls : List Call) (g : ContainmentGeneration) (live : ContainmentRecord),
      (Runs.run Call.after calls (construct clk config)).state.containments.find g = some live →
      containmentIsLive live.status = true →
      ∀ (record previous stored : ResourceRecord) (expected : ResourceGeneration), record.id ∈ live.mandatory →
      (Runs.run Call.after calls (construct clk config)).state.topology.resources.find record.id = some previous →
      (updateResource clk record expected (Runs.run Call.after calls (construct clk config))).result = .ok stored →
      ∃ after, (updateResource clk record expected
          (Runs.run Call.after calls (construct clk config))).impl.state.topology.resources.find record.id = some after ∧
        FencedFor previous.containmentGeneration after := by
  intro h
  let s := (Runs.run Call.after containment (construct ticks {})).state
  let live := (s.containments.find ⟨1⟩).getD {}
  let previous := (s.topology.resources.find ⟨5⟩).getD {}
  obtain ⟨after, hafter, hf⟩ := h ticks {} containment ⟨1⟩ live (by decide +kernel) (by decide +kernel)
    { id := ⟨5⟩ } previous { id := ⟨5⟩, generation := ⟨1⟩, updatedAtMs := 1 } ⟨2⟩ (by decide +kernel)
    (by decide +kernel) (by decide +kernel)
  have hlifted : ((updateResource ticks { id := ⟨5⟩ } ⟨2⟩ contained).impl.state.topology.resources.find ⟨5⟩).any
      (fun r => !r.quarantined) = true := by decide +kernel
  have hfind : (updateResource ticks { id := ⟨5⟩ } ⟨2⟩ contained).impl.state.topology.resources.find ⟨5⟩ =
      some after := hafter
  rw [hfind] at hlifted
  simp [hf.1] at hlifted

/-! ## Worker evidence lifts nothing -/

/-- an update of a record that is not fenced keeps every fence -/
theorem passes_updateResource (clk : Clock) (record : ResourceRecord) (expected : ResourceGeneration) (i : Impl)
    (h : ∀ previous, i.state.topology.resources.find record.id = some previous → ¬ Fenced previous) :
    Passes i.state (updateResource clk record expected i).impl.state := by
  unfold updateResource
  split
  · exact Passes.refl _
  · next previous hp =>
    have hfind := admitResource_ok hp
    refine ⟨?_, ?_⟩
    · simp only [commit_topology, Impl.withResources_resources, edit_resources, Impl.advanceTopology_topology]
      constructor
      · exact fun hk => hk.insert rfl
      · intro k r hr hf
        have hne : record.id ≠ k := by
          rintro rfl
          exact h r hr hf
        exact ⟨r, by rw [OrderedMap.find_insert_ne _ _ hne, hr], hf⟩
    · simp only [commit_containments, Impl.withResources_containments, edit_containments,
        Impl.advanceTopology_containments]
      exact Follows.refl _

/-- The evidence handler keeps the quarantine invariant, when its snapshot is the state it updates. -/
theorem workerEvidence_keeps (clk : Clock) (handshake : Option WorkerBootId) (m : WorkerEvidenceMessage) (i : Impl)
    (h : QuarantineInv i.state) : QuarantineInv (workerEvidence clk handshake m i.state i).1.state := by
  unfold workerEvidence
  dsimp only
  cases ha : admitWorkerEvidence handshake m i.state.epoch i.state with
  | error e => exact h
  | ok r =>
    have hr : i.state.topology.resources.find m.resource = some r := by
      unfold admitWorkerEvidence at ha
      split_ifs at ha
      split at ha
      · simp at ha
      · next r' hr' =>
        split_ifs at ha
        rw [hr', Except.ok.inj ha]
    dsimp only
    split_ifs with hfenced
    · exact h.passes (passes_publishResourceEvidence clk _ _ _ _ _ _ i)
    · rw [not_or] at hfenced
      have hup := h.passes (passes_updateResource clk
        { r with ownerWorker := m.worker, ownerBoot := m.boot, state := .active } r.generation i fun previous hp hf => by
          have hid : r.id = m.resource := h.keyed _ r hr
          have hp : i.state.topology.resources.find m.resource = some previous := hid ▸ hp
          rw [hr, Option.some.injEq] at hp
          exact hfenced.1 (hp ▸ hf.1))
      split
      · exact hup
      · split
        · exact hup.passes (passes_publishResourceEvidence _ _ _ _ _ _ _ _)
        · exact hup.passes (passes_publishResourceEvidence _ _ _ _ _ _ _ _)

end FaultContainment.Coordinator
