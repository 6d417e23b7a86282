/-
Fault publication: digest deduplication, admission, supersession (`fault.cpp`, `publish_fault`, `supersede_fault`).
-/
import FaultContainment.Engine.Workers

namespace FaultContainment.Engine

open FaultContainment.Lib FaultContainment.Ids FaultContainment.Enums FaultContainment.Records
open FaultContainment.DurableEvent FaultContainment.StateCodec FaultContainment.Lib.Codec

/-! ## The evidence digest -/

/-- the fields the digest covers, in order; the identity is not one of them -/
def digestCodec :
    Codec (UInt64 × Text × UInt64 × UInt64 × Text × UInt64 × UInt64 × UInt64 × Text × UInt64 × UInt64 × Text × Text ×
      UInt16 × Text) :=
  pair u64 <| pair str <| pair u64 <| pair u64 <| pair str <| pair u64 <| pair u64 <| pair u64 <| pair str <|
    pair u64 <| pair u64 <| pair str <| pair str <| pair u16 str

/-- `compute_evidence_digest`: all zeros when the writer refuses a text -/
def computeEvidenceDigest (e : FaultEvidence) : Digest :=
  match digestCodec.enc
      (e.generation.value, Coded.name e.kind, e.subject.value, e.subjectGeneration.value, Coded.name e.reporterKind,
        e.reporterWorker.value, e.reporterBoot.value, e.epoch.value, Coded.name e.provenance,
        e.observationSequence.value, e.publicationTimeMs, Coded.name e.freshness, Coded.name e.integrity,
        e.confidencePermille, e.details) with
  | some bytes => Digest.sha256 bytes
  | none => default

/-! ## Publication -/

/-- the evidence with its defaults filled in and its digest computed -/
def normalizeEvidence (evidence : FaultEvidence) (i : Impl) : FaultEvidence :=
  let e := { evidence with
    id := if evidence.id.valid then evidence.id else ⟨i.nextFault⟩
    generation := if evidence.generation.valid then evidence.generation else ⟨1⟩
    epoch := if evidence.epoch.valid then evidence.epoch else i.state.epoch }
  { e with digest := computeEvidenceDigest e }

/-- `allocate_fault_id` is called only for evidence without an identity -/
def allocateFault (evidence : FaultEvidence) (i : Impl) : Impl :=
  if evidence.id.valid then i else { i with nextFault := i.nextFault + 1 }

/-- the checks on a new observation -/
def admitFault (evidence : FaultEvidence) (i : Impl) : Except Error Unit :=
  if i.state.faults.has evidence.id then
    .error (makeError .duplicateConflict "fault.publish" "a different observation already uses this fault identity"
      evidence.id.text)
  else if ¬ i.state.topology.resources.has evidence.subject then
    .error (makeError .unknownResource "fault.publish" "fault subject is not a registered resource"
      evidence.subject.text)
  else if evidence.reporterKind = .worker ∧ evidence.reporterBoot.valid ∧
      ¬ ((i.state.workers.incarnations.find ⟨evidence.reporterWorker, evidence.reporterBoot⟩).any
        fun w => holdsLiveAuthority w.state) then
    .error (makeError .staleWorkerBoot "fault.publish" "reporter incarnation holds no live authority"
      evidence.reporterBoot.text)
  else .ok ()

/-- a repeated observation counts on the stored fault; the counters are not staged -/
def countDuplicate (clk : Clock) (id : FaultId) (i : Impl) : Step FaultRecord :=
  let existing := (i.state.faults.find id).getD {}
  let copy := { existing with duplicateCount := existing.duplicateCount + 1, lastUpdatedMs := clk 0 }
  let i := i.withFaults (i.state.faults.insert id copy)
  let entry : HistoryEvent :=
    { type := .faultDuplicateIgnored
      detail := lit "identical duplicate observation ignored for fault " ++ copy.evidence.id.text
      resource := copy.evidence.subject, fault := copy.evidence.id }
  { impl := i.addHistory (clk 1) entry
    staged := [⟨.faultUpsert, copy, some (i.stamped (clk 1) entry)⟩]
    result := .ok copy }

/-- the record of a new observation -/
def newFault (time : UInt64) (evidence : FaultEvidence) (policy : ContainmentPolicy) : FaultRecord where
  evidence := evidence
  state := if (policy.ruleFor evidence.kind).mandatoryContainment then .containmentRequired else .observed
  severity := (policy.ruleFor evidence.kind).severity
  actionable := true
  firstSeenMs := time
  lastUpdatedMs := time

/-- a new observation enters the store -/
def storeFault (clk : Clock) (evidence : FaultEvidence) (i : Impl) : Step FaultRecord :=
  let stored := newFault (clk 0) evidence i.state.policy
  let i := i.withFaults (i.state.faults.emplace evidence.id stored)
  let i := { i with faultByDigest := i.faultByDigest.insert evidence.digest evidence.id }
  commit i (clk 1)
    { type := .faultPublished
      detail := Coded.name evidence.kind ++ lit " on " ++ evidence.subject.text ++ lit " (state " ++
        Coded.name stored.state ++ lit ")"
      authority := lit "FaultGeneration " ++ evidence.generation.text ++ lit "; CoordinatorEpoch " ++
        evidence.epoch.text
      resource := evidence.subject, fault := evidence.id }
    [] (⟨.faultUpsert, stored, ·⟩) [⟨.currentFault, evidence.id, none⟩] stored

/-- `publish_fault`; an identity is allocated before the remaining checks -/
def publishFault (clk : Clock) (evidence : FaultEvidence) (i : Impl) : Step FaultRecord :=
  if ¬ evidence.subject.valid then .refuse i (makeError .invalidId "fault.publish" "fault subject is invalid")
  else if i.config.maxFaults ≤ i.state.faults.size then
    .refuse i (makeError .resourceExhausted "fault.publish" "fault ceiling reached")
  else
    let normal := normalizeEvidence evidence i
    let i := allocateFault evidence i
    if normal.epoch ≠ i.state.epoch then
      .refuse i (makeError .staleEpoch "fault.publish" "observation epoch is not current"
        (normal.epoch.text ++ lit " != " ++ i.state.epoch.text))
    else
      match i.faultByDigest.find normal.digest with
      | some id => countDuplicate clk id i
      | none =>
        match admitFault normal i with
        | .error e => .refuse i e
        | .ok () => storeFault clk normal i

/-! ## Supersession -/

/-- the checks of `supersede_fault`; the fault as it was -/
def admitSupersede (id : FaultId) (expected : FaultGeneration) (i : Impl) : Except Error FaultRecord :=
  match i.state.faults.find id with
  | none => .error (makeError .unknownFault "fault.supersede" "fault not found" id.text)
  | some f =>
    if ¬ expected.valid ∨ f.evidence.generation ≠ expected then
      .error (makeError .staleFaultGeneration "fault.supersede" "fault generation has advanced"
        f.evidence.generation.text)
    else if ¬ isFaultCurrent f.state ∨ ¬ isLegalFaultTransition f.state .superseded then
      .error (makeError .faultNotCurrent "fault.supersede" "fault state cannot be superseded" (Coded.name f.state))
    else .ok f

/-- `supersede_fault` -/
def supersedeFault (clk : Clock) (id : FaultId) (expected : FaultGeneration) (reason : Text) (i : Impl) :
    Step FaultRecord :=
  match admitSupersede id expected i with
  | .error e => .refuse i e
  | .ok f =>
    let stored := { f with
      state := .superseded, actionable := false, details := reason, lastUpdatedMs := clk 0
      evidence := { f.evidence with generation := nextGeneration f.evidence.generation } }
    let i := i.withFaults (i.state.faults.insert id stored)
    commit i (clk 1)
      { type := .faultSuperseded, detail := lit "fault " ++ id.text ++ lit " superseded: " ++ stored.details
        authority := lit "FaultGeneration " ++ stored.evidence.generation.text
        resource := stored.evidence.subject, fault := id }
      [] (⟨.faultUpsert, stored, ·⟩) [] stored

end FaultContainment.Engine
