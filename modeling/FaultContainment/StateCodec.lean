/-
Record codecs (`state_codec.cpp`).

Each record is written field by field in the order of the source and read back in the same order. A codec is the pair of
`write_x` and `read_x`: the fields are the writer's and the reader's, a trailing `check` is a test only the reader makes. A
reader that latched a failure is `none`; the 128 MiB ceiling of the byte writer is held against whole documents.

- `coded_sound`, `ids_sound`: what the readers of enumerations and identity sets insist on.
-/
import FaultContainment.Lib.MapCodec
import FaultContainment.Detail.Utf8
import FaultContainment.Types.Records

namespace FaultContainment.StateCodec

open FaultContainment.Lib FaultContainment.Ids FaultContainment.Enums FaultContainment.Records FaultContainment.Utf8
open FaultContainment.Lib.Codec

/-! ## Ceilings -/

abbrev kMaxStringBytes : ℕ := 64 * 1024
abbrev kMaxBlobBytes : ℕ := 4 * 1024 * 1024
abbrev kMaxCollectionCount : ℕ := 4 * 1024 * 1024
abbrev kMaxDocumentBytes : ℕ := 128 * 1024 * 1024
abbrev kMaxMembersPerRecord : ℕ := 1000000
abbrev kMaxRules : ℕ := 4096
abbrev kMaxEnvelopeTargets : ℕ := 100000

theorem kMaxCollectionCount_lt : kMaxCollectionCount < 256 ^ 4 := by decide

/-! ## Values -/

variable {t : IdTag}

/-- `wr_id`, `rd_id` -/
def ident : Codec (Id t) := u64.iso (fun i => i.value) (fun v => ⟨v⟩) (fun _ => rfl) (fun _ => rfl)

/-- `str`: a length-prefixed text, valid UTF-8 on both sides -/
def str : Codec Text := (blob kMaxStringBytes (by decide)).guarded isValidUtf8

/-- `rd_bool`: 0 or 1 and nothing else -/
def boolean : Codec Bool :=
  u8.through (fun b => if b then 1 else 0) (fun n => if n = 0 then some false else if n = 1 then some true else none)
    (by decide) (by
      intro n b h
      split_ifs at h with h0 h1
      · obtain rfl := Option.some.inj h; simp [h0]
      · obtain rfl := Option.some.inj h; simp [h1])

/-- `wr_enum`, `rd_enum_checked`: the reader refuses values above the declared maximum -/
def coded {α : Type} [DecidableEq α] [Coded α] : Codec α :=
  u16.through (fun a => UInt16.ofNat (Coded.code a)) (fun n => Coded.ofCode n.toNat)
    (fun a => by
      have h := Coded.code_lt a
      rw [UInt16.toNat_ofNat_of_lt' (lt_trans h (by decide)), Coded.ofCode_code])
    (fun n a h => by rw [Coded.code_of_ofCode h]; simp)

/-- `wr_ids`, `rd_ids`: the reader insists on strictly increasing identities -/
def ids (ceiling : ℕ) (hc : ceiling < 256 ^ 4 := by decide) : Codec (IdSet t) :=
  (ident.list ceiling hc).check fun s => decide (SortedSet s)

/-- `wr_enum_set`, `rd_enum_set`: the reader insists on strictly increasing enumerators -/
def enumSet {α : Type} [DecidableEq α] [Coded α] : Codec (EnumSet α) :=
  ((coded (α := α)).list (Coded.table (α := α)).length (lt_of_le_of_lt Coded.small (by decide))).check sortedEnums

/-- a counted collection under the common ceiling -/
def many {α : Type} (c : Codec α) : Codec (List α) := c.list kMaxCollectionCount kMaxCollectionCount_lt

/-- the 32 raw bytes of a digest -/
def digest : Codec Digest :=
  (raw 32).iso (fun d => ⟨d.bytes, d.size⟩) (fun b => ⟨b.1, b.2⟩) (fun _ => rfl) (fun _ => rfl)

/-- the required resource generations of an envelope: valid, distinct resources -/
def envelopeTargets : Codec (OrderedMap ResourceId ResourceGeneration) :=
  mapOf pairs ((ident.check Id.valid).pair ident) true kMaxEnvelopeTargets (by decide)

section Requirements

variable {α : Type} [DecidableEq α] [Coded α] (i : Id t) (s : Text) (b : Bool) (a : α) (is : IdSet t) (as : EnumSet α)

@[simp] theorem ident_clean : ident.clean i := trivial
@[simp] theorem ident_fits : ident.fits i := trivial
@[simp] theorem ident_sound : ident.sound i := trivial
@[simp] theorem ident_counted : ident.counted i := trivial
@[simp] theorem str_clean : str.clean s ↔ isValidUtf8 s = true := by simp [str]
@[simp] theorem str_fits : str.fits s ↔ s.length ≤ kMaxStringBytes := Iff.rfl
@[simp] theorem str_sound : str.sound s := trivial
@[simp] theorem str_counted : str.counted s := trivial
@[simp] theorem boolean_clean : boolean.clean b := trivial
@[simp] theorem boolean_fits : boolean.fits b := trivial
@[simp] theorem boolean_sound : boolean.sound b := trivial
@[simp] theorem boolean_counted : boolean.counted b := trivial
@[simp] theorem coded_clean : coded.clean a := trivial
@[simp] theorem coded_fits : coded.fits a := trivial
@[simp] theorem coded_sound : coded.sound a := trivial
@[simp] theorem coded_counted : coded.counted a := trivial
@[simp] theorem ids_clean (n : ℕ) (hn : n < 256 ^ 4) : (ids n hn).clean is := by simp [ids]
@[simp] theorem ids_fits (n : ℕ) (hn : n < 256 ^ 4) : (ids n hn).fits is := by simp [ids]
@[simp] theorem ids_sound (n : ℕ) (hn : n < 256 ^ 4) : (ids n hn).sound is ↔ SortedSet is := by simp [ids]
@[simp] theorem ids_counted (n : ℕ) (hn : n < 256 ^ 4) : (ids n hn).counted is ↔ is.length ≤ n := by simp [ids]
@[simp] theorem enumSet_clean : enumSet.clean as := by simp [enumSet]
@[simp] theorem enumSet_fits : enumSet.fits as := by simp [enumSet]
@[simp] theorem enumSet_sound : enumSet.sound as ↔ sortedEnums as = true := by simp [enumSet]
@[simp] theorem enumSet_counted : enumSet.counted as ↔ as.length ≤ (Coded.table (α := α)).length := by simp [enumSet]
@[simp] theorem digest_clean (d : Digest) : digest.clean d := trivial
@[simp] theorem digest_fits (d : Digest) : digest.fits d := trivial
@[simp] theorem digest_sound (d : Digest) : digest.sound d := trivial
@[simp] theorem digest_counted (d : Digest) : digest.counted d := trivial
@[simp] theorem ident_wf : ident.wf i := ⟨⟨trivial, trivial⟩, trivial, trivial⟩
@[simp] theorem boolean_wf : boolean.wf b := ⟨⟨trivial, trivial⟩, trivial, trivial⟩
@[simp] theorem coded_wf : coded.wf a := ⟨⟨trivial, trivial⟩, trivial, trivial⟩
@[simp] theorem digest_wf (d : Digest) : digest.wf d := ⟨⟨trivial, trivial⟩, trivial, trivial⟩

end Requirements

/-! ## Records -/

/-- `write_resource`, `read_resource` -/
def resource : Codec ResourceRecord :=
  ((pair ident <| pair ident <| pair str <| pair coded <| pair coded <| pair coded <| pair ident <| pair ident <|
    pair ident <| pair ident <| pair ident <| pair ident <| pair ident <| pair ident <| pair ident <| pair ident <|
    pair ident <| pair ident <| pair ident <| pair ident <| pair ident <| pair coded <| pair ident <| pair u64 <|
    pair boolean <| pair coded <| pair ident <| ident).iso
    (fun r => (r.id, r.generation, r.name, r.resourceClass, r.protection, r.state, r.containmentDomain,
      r.isolationDomain, r.failureDomain, r.ownerWorker, r.ownerBoot, r.node, r.host, r.device, r.accelerator,
      r.service, r.workload, r.execution, r.attempt, r.reservation, r.lease, r.freshness, r.evidenceSequence,
      r.updatedAtMs, r.quarantined, r.mechanism, r.containmentGeneration, r.releaseGeneration))
    (fun (id, generation, name, resourceClass, protection, state, containmentDomain, isolationDomain, failureDomain,
      ownerWorker, ownerBoot, node, host, device, accelerator, service, workload, execution, attempt, reservation,
      lease, freshness, evidenceSequence, updatedAtMs, quarantined, mechanism, containmentGeneration,
      releaseGeneration) =>
      { id, generation, name, resourceClass, protection, state, containmentDomain, isolationDomain, failureDomain,
        ownerWorker, ownerBoot, node, host, device, accelerator, service, workload, execution, attempt, reservation,
        lease, freshness, evidenceSequence, updatedAtMs, quarantined, mechanism, containmentGeneration,
        releaseGeneration })
    (fun _ => rfl) (fun _ => rfl)).check fun r => r.id.valid

/-- `write_containment_domain`, `read_containment_domain` -/
def containmentDomain : Codec ContainmentDomain :=
  ((pair ident <| pair ident <| pair str <| pair (ids kMaxMembersPerRecord) <| pair coded <| boolean).iso
    (fun r => (r.id, r.generation, r.name, r.members, r.protection, r.coIsolateMembers))
    (fun (id, generation, name, members, protection, coIsolateMembers) =>
      { id, generation, name, members, protection, coIsolateMembers })
    (fun _ => rfl) (fun _ => rfl)).check fun d => d.id.valid

/-- `write_isolation_domain`, `read_isolation_domain` -/
def isolationDomain : Codec IsolationDomain :=
  ((pair ident <| pair ident <| pair str <| pair (ids kMaxMembersPerRecord) <| pair enumSet <| coded).iso
    (fun r => (r.id, r.generation, r.name, r.members, r.classes, r.mechanism))
    (fun (id, generation, name, members, classes, mechanism) =>
      { id, generation, name, members, classes, mechanism })
    (fun _ => rfl) (fun _ => rfl)).check fun d => d.id.valid

/-- `write_failure_domain`, `read_failure_domain` -/
def failureDomain : Codec FailureDomain :=
  ((pair ident <| pair ident <| pair str <| pair coded <| pair (ids kMaxMembersPerRecord) <| pair coded <| coded).iso
    (fun r => (r.id, r.generation, r.name, r.kind, r.members, r.provenance, r.freshness))
    (fun (id, generation, name, kind, members, provenance, freshness) =>
      { id, generation, name, kind, members, provenance, freshness })
    (fun _ => rfl) (fun _ => rfl)).check fun d => d.id.valid

/-- `write_dependency`, `read_dependency` -/
def dependency : Codec DependencyEdge :=
  ((pair ident <| pair ident <| pair ident <| pair ident <| pair coded <| pair coded <| pair coded <| pair coded <|
    pair u16 <| pair boolean <| pair ident <| str).iso
    (fun r => (r.id, r.generation, r.source, r.destination, r.kind, r.provenance, r.freshness, r.integrity,
      r.confidencePermille, r.conditional, r.observedSequence, r.evidenceSource))
    (fun (id, generation, source, destination, kind, provenance, freshness, integrity, confidencePermille,
      conditional, observedSequence, evidenceSource) =>
      { id, generation, source, destination, kind, provenance, freshness, integrity, confidencePermille, conditional,
        observedSequence, evidenceSource })
    (fun _ => rfl) (fun _ => rfl)).check fun e =>
    e.confidencePermille.toNat ≤ 1000 && e.id.valid && e.source.valid && e.destination.valid

/-- `write_fault_evidence`, `read_fault_evidence` -/
def faultEvidence : Codec FaultEvidence :=
  ((pair ident <| pair ident <| pair coded <| pair ident <| pair ident <| pair coded <| pair ident <| pair ident <|
    pair ident <| pair coded <| pair ident <| pair u64 <| pair coded <| pair coded <| pair u16 <| pair str <|
    digest).iso
    (fun r => (r.id, r.generation, r.kind, r.subject, r.subjectGeneration, r.reporterKind, r.reporterWorker,
      r.reporterBoot, r.epoch, r.provenance, r.observationSequence, r.publicationTimeMs, r.freshness, r.integrity,
      r.confidencePermille, r.details, r.digest))
    (fun (id, generation, kind, subject, subjectGeneration, reporterKind, reporterWorker, reporterBoot, epoch,
      provenance, observationSequence, publicationTimeMs, freshness, integrity, confidencePermille, details,
      digest) =>
      { id, generation, kind, subject, subjectGeneration, reporterKind, reporterWorker, reporterBoot, epoch,
        provenance, observationSequence, publicationTimeMs, freshness, integrity, confidencePermille, details,
        digest })
    (fun _ => rfl) (fun _ => rfl)).check fun e => e.confidencePermille.toNat ≤ 1000 && e.id.valid

/-- `write_fault`, `read_fault` -/
def fault : Codec FaultRecord :=
  (pair faultEvidence <| pair coded <| pair coded <| pair ident <| pair u64 <| pair u64 <| pair boolean <| pair u32 <|
    pair ident <| str).iso
    (fun r => (r.evidence, r.state, r.severity, r.containmentGeneration, r.firstSeenMs, r.lastUpdatedMs, r.actionable,
      r.duplicateCount, r.verificationGeneration, r.details))
    (fun (evidence, state, severity, containmentGeneration, firstSeenMs, lastUpdatedMs, actionable, duplicateCount,
      verificationGeneration, details) =>
      { evidence, state, severity, containmentGeneration, firstSeenMs, lastUpdatedMs, actionable, duplicateCount,
        verificationGeneration, details })
    (fun _ => rfl) (fun _ => rfl)

/-- an incarnation key; both halves must be valid -/
def workerKey : Codec WorkerKey :=
  ((pair ident <| ident).iso
    (fun r => (r.worker, r.boot))
    (fun (worker, boot) =>
      { worker, boot })
    (fun _ => rfl) (fun _ => rfl)).check fun k => k.worker.valid && k.boot.valid

/-- `write_worker`, `read_worker` -/
def worker : Codec WorkerRecord :=
  (pair workerKey <| pair ident <| pair ident <| pair coded <| pair ident <| pair coded <|
    pair (ids kMaxMembersPerRecord) <| pair u64 <| pair u64 <| pair str <| str).iso
    (fun r => (r.key, r.incarnation, r.registeredEpoch, r.state, r.lastSequence, r.freshness, r.liveAuthority,
      r.registeredAtMs, r.lastSeenMs, r.endpoint, r.details))
    (fun (key, incarnation, registeredEpoch, state, lastSequence, freshness, liveAuthority, registeredAtMs,
      lastSeenMs, endpoint, details) =>
      { key, incarnation, registeredEpoch, state, lastSequence, freshness, liveAuthority, registeredAtMs, lastSeenMs,
        endpoint, details })
    (fun _ => rfl) (fun _ => rfl)

/-- `write_fault_rule`, `read_fault_rule` -/
def faultRule : Codec FaultRule :=
  ((pair coded <| pair coded <| pair coded <| pair coded <| pair boolean <| pair coded <| pair coded <| pair u16 <|
    pair u32 <| pair boolean <| pair boolean <| pair u64 <| pair boolean <| pair u32 <| pair u32 <| pair boolean <|
    pair boolean <| pair boolean <| pair coded <| pair enumSet <| pair enumSet <| pair boolean <| boolean).iso
    (fun r => (r.kind, r.preferredOutcome, r.escalationOutcome, r.severity, r.mandatoryContainment, r.uncertainty,
      r.propagation, r.likelyConfidencePermille, r.maxToleratedExposure, r.permitDegradedMode, r.requireFreshEvidence,
      r.maxEvidenceAgeMs, r.allowRelease, r.minRedundancy, r.actionBudget, r.isolateFailureDomain,
      r.isolateIsolationDomain, r.coIsolateContainmentDomain, r.ranking, r.propagatingKinds, r.nonPropagatingKinds,
      r.failClosedOnUnknownEvidence, r.allowProtectedResourceFencing))
    (fun (kind, preferredOutcome, escalationOutcome, severity, mandatoryContainment, uncertainty, propagation,
      likelyConfidencePermille, maxToleratedExposure, permitDegradedMode, requireFreshEvidence, maxEvidenceAgeMs,
      allowRelease, minRedundancy, actionBudget, isolateFailureDomain, isolateIsolationDomain,
      coIsolateContainmentDomain, ranking, propagatingKinds, nonPropagatingKinds, failClosedOnUnknownEvidence,
      allowProtectedResourceFencing) =>
      { kind, preferredOutcome, escalationOutcome, severity, mandatoryContainment, uncertainty, propagation,
        likelyConfidencePermille, maxToleratedExposure, permitDegradedMode, requireFreshEvidence, maxEvidenceAgeMs,
        allowRelease, minRedundancy, actionBudget, isolateFailureDomain, isolateIsolationDomain,
        coIsolateContainmentDomain, ranking, propagatingKinds, nonPropagatingKinds, failClosedOnUnknownEvidence,
        allowProtectedResourceFencing })
    (fun _ => rfl) (fun _ => rfl)).check fun r =>
    r.likelyConfidencePermille.toNat ≤ 1000 && r.minRedundancy != 0 && r.actionBudget != 0

/-- the override part of `write_policy` -/
def adminOverride : Codec AdministrativeOverride :=
  (pair boolean <| pair str <| pair ident <| pair u64 <| pair u64 <| pair coded <| pair (ids kMaxMembersPerRecord) <|
    boolean).iso
    (fun r => (r.active, r.authority, r.policyGeneration, r.notBeforeMs, r.expiresAtMs, r.forcedOutcome, r.scope,
      r.rankingAndAuthorityOnly))
    (fun (active, authority, policyGeneration, notBeforeMs, expiresAtMs, forcedOutcome, scope,
      rankingAndAuthorityOnly) =>
      { active, authority, policyGeneration, notBeforeMs, expiresAtMs, forcedOutcome, scope,
        rankingAndAuthorityOnly })
    (fun _ => rfl) (fun _ => rfl)

/-- `write_policy`, `read_policy` -/
def policy : Codec ContainmentPolicy :=
  ((pair ident <| pair str <| pair (mapOf (records FaultRule.kind) faultRule true kMaxRules (by decide)) <| pair faultRule <|
    pair u32 <| pair boolean <| pair u64 <| adminOverride).iso
    (fun r => (r.generation, r.name, r.rules, r.fallback, r.maxActionsPerContainment, r.allowDegradedModeByDefault,
      r.defaultMaxEvidenceAgeMs, r.adminOverride))
    (fun (generation, name, rules, fallback, maxActionsPerContainment, allowDegradedModeByDefault,
      defaultMaxEvidenceAgeMs, adminOverride) =>
      { generation, name, rules, fallback, maxActionsPerContainment, allowDegradedModeByDefault,
        defaultMaxEvidenceAgeMs, adminOverride })
    (fun _ => rfl) (fun _ => rfl)).check fun p => p.maxActionsPerContainment != 0

/-- `write_authority_envelope`, `read_authority_envelope` -/
def authorityEnvelope : Codec AuthorityEnvelope :=
  (pair ident <| pair ident <| pair ident <| pair ident <| pair ident <| pair ident <| pair ident <| pair ident <|
    pair ident <| pair ident <| pair ident <| pair ident <| pair ident <| pair ident <| pair ident <|
    pair envelopeTargets <| u64).iso
    (fun r => (r.epoch, r.fault, r.faultGeneration, r.containmentGeneration, r.policyGeneration, r.topologyGeneration,
      r.action, r.actionGeneration, r.worker, r.workerBoot, r.target, r.targetGeneration, r.requiredEvidenceSequence,
      r.reservation, r.lease, r.requiredResourceGenerations, r.issuedAtMs))
    (fun (epoch, fault, faultGeneration, containmentGeneration, policyGeneration, topologyGeneration, action,
      actionGeneration, worker, workerBoot, target, targetGeneration, requiredEvidenceSequence, reservation, lease,
      requiredResourceGenerations, issuedAtMs) =>
      { epoch, fault, faultGeneration, containmentGeneration, policyGeneration, topologyGeneration, action,
        actionGeneration, worker, workerBoot, target, targetGeneration, requiredEvidenceSequence, reservation, lease,
        requiredResourceGenerations, issuedAtMs })
    (fun _ => rfl) (fun _ => rfl)

/-- `write_action`, `read_action` -/
def action : Codec ContainmentAction :=
  ((pair ident <| pair ident <| pair coded <| pair ident <| pair ident <| pair ident <| pair ident <| pair coded <|
    pair authorityEnvelope <| pair coded <| pair coded <| pair str <| pair u64 <| pair u64 <| pair u64 <| pair u64 <|
    pair ident <| pair str <| boolean).iso
    (fun r => (r.id, r.generation, r.kind, r.target, r.targetGeneration, r.domain, r.isolationDomain, r.mechanism,
      r.envelope, r.status, r.rejectionCode, r.rejectionDetail, r.createdAtMs, r.dispatchedAtMs, r.acknowledgedAtMs,
      r.completedAtMs, r.verificationGeneration, r.executorToken, r.destructive))
    (fun (id, generation, kind, target, targetGeneration, domain, isolationDomain, mechanism, envelope, status,
      rejectionCode, rejectionDetail, createdAtMs, dispatchedAtMs, acknowledgedAtMs, completedAtMs,
      verificationGeneration, executorToken, destructive) =>
      { id, generation, kind, target, targetGeneration, domain, isolationDomain, mechanism, envelope, status,
        rejectionCode, rejectionDetail, createdAtMs, dispatchedAtMs, acknowledgedAtMs, completedAtMs,
        verificationGeneration, executorToken, destructive })
    (fun _ => rfl) (fun _ => rfl)).check fun a => a.id.valid

/-- `write_propagation_hop`, `read_propagation_hop` -/
def propagationHop : Codec PropagationHop :=
  (pair ident <| pair ident <| pair ident <| pair coded <| pair coded <| coded).iso
    (fun r => (r.source, r.target, r.dependency, r.kind, r.outcome, r.reason))
    (fun (source, target, dependency, kind, outcome, reason) =>
      { source, target, dependency, kind, outcome, reason })
    (fun _ => rfl) (fun _ => rfl)

/-- one line of `write_explanation` -/
def explanationLine : Codec ExplanationLine :=
  (pair str <| pair str <| str).iso
    (fun r => (r.category, r.sortKey, r.text))
    (fun (category, sortKey, text) =>
      { category, sortKey, text })
    (fun _ => rfl) (fun _ => rfl)

/-- one finding of `write_verification` -/
def verificationFinding : Codec VerificationFinding :=
  (pair str <| pair boolean <| str).iso
    (fun r => (r.check, r.passed, r.detail))
    (fun (check, passed, detail) =>
      { check, passed, detail })
    (fun _ => rfl) (fun _ => rfl)

/-- `write_verification`, `read_verification` -/
def verification : Codec ContainmentVerification :=
  (pair ident <| pair ident <| pair ident <| pair ident <| pair ident <| pair coded <|
    pair (many verificationFinding) <| pair (ids kMaxCollectionCount) <| pair (ids kMaxCollectionCount) <|
    pair boolean <| pair boolean <| pair boolean <| pair boolean <| pair boolean <| pair ident <| pair u64 <| str).iso
    (fun r => (r.generation, r.containmentGeneration, r.epoch, r.policyGeneration, r.topologyGeneration, r.outcome,
      r.findings, r.provenContained, r.unproven, r.blastRadiusIncreased, r.secondaryFailure, r.propagationBlocked,
      r.propagationContinued, r.degradedModeValid, r.evidenceSequence, r.verifiedAtMs, r.summary))
    (fun (generation, containmentGeneration, epoch, policyGeneration, topologyGeneration, outcome, findings,
      provenContained, unproven, blastRadiusIncreased, secondaryFailure, propagationBlocked, propagationContinued,
      degradedModeValid, evidenceSequence, verifiedAtMs, summary) =>
      { generation, containmentGeneration, epoch, policyGeneration, topologyGeneration, outcome, findings,
        provenContained, unproven, blastRadiusIncreased, secondaryFailure, propagationBlocked, propagationContinued,
        degradedModeValid, evidenceSequence, verifiedAtMs, summary })
    (fun _ => rfl) (fun _ => rfl)

/-- `write_containment`, `read_containment` -/
def containment : Codec ContainmentRecord :=
  ((pair ident <| pair ident <| pair ident <| pair ident <| pair ident <| pair ident <| pair coded <| pair coded <|
    pair (ids kMaxCollectionCount) <| pair (ids kMaxCollectionCount) <| pair (ids kMaxCollectionCount) <|
    pair (ids kMaxCollectionCount) <| pair (ids kMaxCollectionCount) <| pair (many propagationHop) <|
    pair (ids kMaxCollectionCount) <| pair ident <| pair coded <| pair verification <| pair ident <| pair coded <|
    pair u64 <| pair u64 <| pair boolean <| pair boolean <| many explanationLine).iso
    (fun r => (r.generation, r.epoch, r.fault, r.faultGeneration, r.policyGeneration, r.topologyGeneration, r.outcome,
      r.status, r.mandatory, r.precautionary, r.unaffected, r.unresolved, r.released, r.propagation, r.actions,
      r.verificationGeneration, r.verificationOutcome, r.verification, r.degradedContract, r.degradedStatus,
      r.committedAtMs, r.updatedAtMs, r.verified, r.releasedFlag, r.explanation))
    (fun (generation, epoch, fault, faultGeneration, policyGeneration, topologyGeneration, outcome, status, mandatory,
      precautionary, unaffected, unresolved, released, propagation, actions, verificationGeneration,
      verificationOutcome, verification, degradedContract, degradedStatus, committedAtMs, updatedAtMs, verified,
      releasedFlag, explanation) =>
      { generation, epoch, fault, faultGeneration, policyGeneration, topologyGeneration, outcome, status, mandatory,
        precautionary, unaffected, unresolved, released, propagation, actions, verificationGeneration,
        verificationOutcome, verification, degradedContract, degradedStatus, committedAtMs, updatedAtMs, verified,
        releasedFlag, explanation })
    (fun _ => rfl) (fun _ => rfl)).check fun c => c.generation.valid

/-- `write_degraded`, `read_degraded` -/
def degraded : Codec DegradedModeAssessment :=
  ((pair ident <| pair coded <| pair (ids kMaxCollectionCount) <| pair (ids kMaxCollectionCount) <|
    pair (ids kMaxCollectionCount) <| pair u32 <| pair u32 <| pair u32 <| pair (many str) <| pair ident <|
    pair ident <| pair u64 <| boolean).iso
    (fun r => (r.contract, r.status, r.permitted, r.prohibited, r.revalidationRequired, r.availableCapacityPercent,
      r.requiredRedundancy, r.availableRedundancy, r.reasons, r.topologyGeneration, r.epoch, r.assessedAtMs,
      r.authorized))
    (fun (contract, status, permitted, prohibited, revalidationRequired, availableCapacityPercent, requiredRedundancy,
      availableRedundancy, reasons, topologyGeneration, epoch, assessedAtMs, authorized) =>
      { contract, status, permitted, prohibited, revalidationRequired, availableCapacityPercent, requiredRedundancy,
        availableRedundancy, reasons, topologyGeneration, epoch, assessedAtMs, authorized })
    (fun _ => rfl) (fun _ => rfl)).check fun a => a.availableCapacityPercent.toNat ≤ 100

/-- `write_degraded_contract`, `read_degraded_contract` -/
def degradedContract : Codec DegradedModeContract :=
  ((pair ident <| pair str <| pair ident <| pair ident <| pair (ids kMaxCollectionCount) <|
    pair (ids kMaxCollectionCount) <| pair u32 <| pair u32 <| pair (many str) <| pair enumSet <| pair (many str) <|
    pair u64 <| pair u64 <| pair u64 <| pair (many str) <| boolean).iso
    (fun r => (r.id, r.name, r.topologyGeneration, r.containmentGeneration, r.permittedResources,
      r.prohibitedResources, r.reducedCapacityPercent, r.requiredRedundancy, r.disabledFeatures,
      r.legalWorkloadClasses, r.hardSafetyConstraints, r.maxEvidenceAgeMs, r.expiresAtMs, r.revalidateEveryMs,
      r.exitPreconditions, r.permitByDefault))
    (fun (id, name, topologyGeneration, containmentGeneration, permittedResources, prohibitedResources,
      reducedCapacityPercent, requiredRedundancy, disabledFeatures, legalWorkloadClasses, hardSafetyConstraints,
      maxEvidenceAgeMs, expiresAtMs, revalidateEveryMs, exitPreconditions, permitByDefault) =>
      { id, name, topologyGeneration, containmentGeneration, permittedResources, prohibitedResources,
        reducedCapacityPercent, requiredRedundancy, disabledFeatures, legalWorkloadClasses, hardSafetyConstraints,
        maxEvidenceAgeMs, expiresAtMs, revalidateEveryMs, exitPreconditions, permitByDefault })
    (fun _ => rfl) (fun _ => rfl)).check fun c => c.reducedCapacityPercent.toNat ≤ 100 && c.requiredRedundancy != 0

/-- `write_history_event`, `read_history_event` -/
def historyEvent : Codec HistoryEvent :=
  (pair ident <| pair u64 <| pair ident <| pair coded <| pair ident <| pair ident <| pair ident <| pair ident <|
    pair ident <| pair str <| str).iso
    (fun r => (r.sequence, r.timestampMs, r.epoch, r.type, r.resource, r.fault, r.action, r.containment,
      r.verification, r.detail, r.authority))
    (fun (sequence, timestampMs, epoch, type, resource, fault, action, containment, verification, detail,
      authority) =>
      { sequence, timestampMs, epoch, type, resource, fault, action, containment, verification, detail, authority })
    (fun _ => rfl) (fun _ => rfl)

theorem atMost_ident : (ident : Codec (Id t)).AtMost 8 := (atMost_word 8 _ _ _ _).iso _ _ _ _

theorem atMost_coded {α : Type} [DecidableEq α] [Coded α] : (coded : Codec α).AtMost 2 :=
  (atMost_word 2 _ _ _ _).through _ _ _ _

theorem atMost_str : str.AtMost (4 + kMaxStringBytes) := (atMost_blob _ _).guarded _

/-- an audit record is bounded by its two texts -/
theorem atMost_historyEvent : historyEvent.AtMost (66 + 2 * (4 + kMaxStringBytes)) := by
  have hid : ∀ {t : IdTag}, (ident : Codec (Id t)).AtMost 8 := atMost_ident
  have htexts := atMost_str.pair atMost_str
  exact (hid.pair <| (atMost_word 8 _ _ _ _).pair <| hid.pair <| atMost_coded.pair <| hid.pair <| hid.pair <|
    hid.pair <| hid.pair <| hid.pair htexts).iso _ _ _ _

end FaultContainment.StateCodec
