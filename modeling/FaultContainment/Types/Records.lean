/-
The data model: topology, faults, policy, workers, containments, degraded modes and the runtime state.

Every structure follows the C++ struct field by field, with its default member initialisers. Strings are byte texts, the
identity and enumeration vectors are plain lists: nothing here says that they are sorted or that a text is UTF-8, because
nothing in the program's types does.
-/
import FaultContainment.Lib.Lists
import FaultContainment.Lib.OrderedMap
import FaultContainment.Types.Enums

namespace FaultContainment.Records

open FaultContainment.Lib FaultContainment.Ids FaultContainment.Enums

/-! ## Errors -/

/-- an error: code, producing stage, message, context label -/
structure Error where
  code : ErrorCode := .ok
  message : Text := []
  stage : Text := []
  context : Text := []
  deriving DecidableEq

/-- `make_error` -/
def makeError (code : ErrorCode) (stage message : String) (context : Text := []) : Error :=
  { code := code, message := lit message, stage := lit stage, context := context }

/-! ## Topology -/

/-- a resource the fabric reasons about -/
structure ResourceRecord where
  id : ResourceId := {}
  generation : ResourceGeneration := {}
  name : Text := []
  resourceClass : ResourceClass := .generic
  protection : ProtectionClass := .standard
  state : ResourceOperationalState := .unknown
  containmentDomain : ContainmentDomainId := {}
  isolationDomain : IsolationDomainId := {}
  failureDomain : FailureDomainId := {}
  ownerWorker : WorkerId := {}
  ownerBoot : WorkerBootId := {}
  node : NodeId := {}
  host : HostId := {}
  device : DeviceId := {}
  accelerator : AcceleratorId := {}
  service : ServiceId := {}
  workload : WorkloadId := {}
  execution : ExecutionId := {}
  attempt : AttemptId := {}
  reservation : ReservationId := {}
  lease : LeaseId := {}
  freshness : EvidenceFreshness := .unknown
  evidenceSequence : EvidenceSequence := {}
  updatedAtMs : UInt64 := 0
  quarantined : Bool := false
  mechanism : ContainmentMechanism := .none
  containmentGeneration : ContainmentGeneration := {}
  releaseGeneration : ReleaseGeneration := {}
  deriving DecidableEq, Inhabited

/-- a logical boundary; its members may be declared before they are registered -/
structure ContainmentDomain where
  id : ContainmentDomainId := {}
  generation : TopologyGeneration := {}
  name : Text := []
  members : IdSet .resourceId := []
  protection : ProtectionClass := .standard
  coIsolateMembers : Bool := false
  deriving DecidableEq, Inhabited

/-- resources that must be fenced together -/
structure IsolationDomain where
  id : IsolationDomainId := {}
  generation : TopologyGeneration := {}
  name : Text := []
  members : IdSet .resourceId := []
  classes : EnumSet IsolationClass := []
  mechanism : ContainmentMechanism := .logicalContainment
  deriving DecidableEq, Inhabited

/-- a correlated-failure boundary -/
structure FailureDomain where
  id : FailureDomainId := {}
  generation : TopologyGeneration := {}
  name : Text := []
  kind : FailureDomainKind := .unknown
  members : IdSet .resourceId := []
  provenance : EvidenceProvenance := .unknown
  freshness : EvidenceFreshness := .unknown
  deriving DecidableEq, Inhabited

/-- a directed dependency -/
structure DependencyEdge where
  id : DependencyId := {}
  generation : DependencyGeneration := {}
  source : ResourceId := {}
  destination : ResourceId := {}
  kind : DependencyKind := .serviceDependsOn
  provenance : EvidenceProvenance := .unknown
  freshness : EvidenceFreshness := .unknown
  integrity : IntegrityStatus := .unverified
  confidencePermille : UInt16 := 1000
  conditional : Bool := false
  observedSequence : EvidenceSequence := {}
  evidenceSource : Text := []
  deriving DecidableEq, Inhabited

/-- the edges and the two adjacency indexes -/
structure DependencyGraph where
  edges : OrderedMap DependencyId DependencyEdge := ∅
  outgoing : OrderedMap ResourceId (IdSet .dependencyId) := ∅
  incoming : OrderedMap ResourceId (IdSet .dependencyId) := ∅
  deriving DecidableEq, Inhabited

/-- one edge traversal that included a resource -/
structure PropagationHop where
  source : ResourceId := {}
  target : ResourceId := {}
  dependency : DependencyId := {}
  kind : DependencyKind := .serviceDependsOn
  outcome : PropagationOutcome := .propagationUnknown
  reason : InclusionReason := .propagationHardEdge
  deriving DecidableEq, Inhabited

/-- the structural topology -/
structure Topology where
  generation : TopologyGeneration := {}
  resources : OrderedMap ResourceId ResourceRecord := ∅
  containmentDomains : OrderedMap ContainmentDomainId ContainmentDomain := ∅
  isolationDomains : OrderedMap IsolationDomainId IsolationDomain := ∅
  failureDomains : OrderedMap FailureDomainId FailureDomain := ∅
  dependencies : DependencyGraph := {}
  deriving DecidableEq, Inhabited

/-! ## Faults -/

/-- a SHA-256 digest -/
structure Digest where
  bytes : Bytes := List.replicate 32 0
  size : bytes.length = 32 := by decide
  deriving DecidableEq

instance : Inhabited Digest := ⟨{}⟩

/-- one observation -/
structure FaultEvidence where
  id : FaultId := {}
  generation : FaultGeneration := {}
  kind : FaultKind := .unknownFault
  subject : ResourceId := {}
  subjectGeneration : ResourceGeneration := {}
  reporterKind : ReporterKind := .coordinator
  reporterWorker : WorkerId := {}
  reporterBoot : WorkerBootId := {}
  epoch : CoordinatorEpoch := {}
  provenance : EvidenceProvenance := .unknown
  observationSequence : EvidenceSequence := {}
  publicationTimeMs : UInt64 := 0
  freshness : EvidenceFreshness := .unknown
  integrity : IntegrityStatus := .unverified
  confidencePermille : UInt16 := 1000
  details : Text := []
  digest : Digest := default
  deriving DecidableEq, Inhabited

structure FaultRecord where
  evidence : FaultEvidence := {}
  state : FaultState := .observed
  severity : FaultSeverity := .medium
  containmentGeneration : ContainmentGeneration := {}
  firstSeenMs : UInt64 := 0
  lastUpdatedMs : UInt64 := 0
  actionable : Bool := true
  duplicateCount : UInt32 := 0
  verificationGeneration : VerificationGeneration := {}
  details : Text := []
  deriving DecidableEq, Inhabited

/-! ## Policy -/

/-- an override redirects ranking and authorises release; it never removes a hard inclusion -/
structure AdministrativeOverride where
  active : Bool := false
  authority : Text := []
  policyGeneration : PolicyGeneration := {}
  notBeforeMs : UInt64 := 0
  expiresAtMs : UInt64 := 0
  forcedOutcome : ContainmentActionKind := .outcomeUnknown
  scope : IdSet .resourceId := []
  rankingAndAuthorityOnly : Bool := true
  deriving DecidableEq, Inhabited

/-- the containment rule of one fault kind -/
structure FaultRule where
  kind : FaultKind := .unknownFault
  preferredOutcome : ContainmentActionKind := .escalateContainment
  escalationOutcome : ContainmentActionKind := .fullDomainIsolation
  severity : FaultSeverity := .high
  mandatoryContainment : Bool := true
  uncertainty : UncertaintyBehavior := .containPreemptively
  propagation : PropagationMode := .hard
  likelyConfidencePermille : UInt16 := 700
  maxToleratedExposure : UInt32 := 0
  permitDegradedMode : Bool := true
  requireFreshEvidence : Bool := true
  maxEvidenceAgeMs : UInt64 := 30000
  allowRelease : Bool := true
  minRedundancy : UInt32 := 1
  actionBudget : UInt32 := 1024
  isolateFailureDomain : Bool := true
  isolateIsolationDomain : Bool := true
  coIsolateContainmentDomain : Bool := false
  ranking : RankingPreference := .smallestLegalRadius
  propagatingKinds : EnumSet DependencyKind := []
  nonPropagatingKinds : EnumSet DependencyKind := []
  failClosedOnUnknownEvidence : Bool := true
  allowProtectedResourceFencing : Bool := false
  deriving DecidableEq, Inhabited

/-- the policy document -/
structure ContainmentPolicy where
  generation : PolicyGeneration := {}
  name : Text := lit "default"
  rules : OrderedMap FaultKind FaultRule := ∅
  fallback : FaultRule := {}
  maxActionsPerContainment : UInt32 := 4096
  allowDegradedModeByDefault : Bool := true
  defaultMaxEvidenceAgeMs : UInt64 := 30000
  adminOverride : AdministrativeOverride := {}
  deriving DecidableEq, Inhabited

/-- `rule_for` -/
def ContainmentPolicy.ruleFor (p : ContainmentPolicy) (kind : FaultKind) : FaultRule :=
  (p.rules.find kind).getD p.fallback

/-! ## Workers -/

/-- one incarnation of a worker -/
structure WorkerKey where
  worker : WorkerId := {}
  boot : WorkerBootId := {}
  deriving DecidableEq, Inhabited

theorem WorkerKey.toLex_injective :
    Function.Injective fun k : WorkerKey => (toLex (k.worker, k.boot) : Lex (WorkerId × WorkerBootId)) := by
  rintro ⟨w, b⟩ ⟨w', b'⟩ h
  have h' : (w, b) = (w', b') := toLex.injective h
  simpa using h'

instance : LinearOrder WorkerKey :=
  orderBy (fun k => (toLex (k.worker, k.boot) : Lex (WorkerId × WorkerBootId))) WorkerKey.toLex_injective

structure WorkerRecord where
  key : WorkerKey := {}
  incarnation : WorkerIncarnation := {}
  registeredEpoch : CoordinatorEpoch := {}
  state : WorkerState := .registered
  lastSequence : EvidenceSequence := {}
  freshness : EvidenceFreshness := .unknown
  liveAuthority : IdSet .resourceId := []
  registeredAtMs : UInt64 := 0
  lastSeenMs : UInt64 := 0
  endpoint : Text := []
  details : Text := []
  deriving DecidableEq, Inhabited

/-- every incarnation ever registered, and the current boot of each worker -/
structure WorkerRegistry where
  incarnations : OrderedMap WorkerKey WorkerRecord := ∅
  currentBoot : OrderedMap WorkerId WorkerBootId := ∅
  currentIncarnation : OrderedMap WorkerId WorkerIncarnation := ∅
  lastIncarnation : OrderedMap WorkerId WorkerIncarnation := ∅
  deriving DecidableEq, Inhabited

/-! ## Actions -/

/-- the authority a containment decision was made under -/
structure AuthorityEnvelope where
  epoch : CoordinatorEpoch := {}
  fault : FaultId := {}
  faultGeneration : FaultGeneration := {}
  containmentGeneration : ContainmentGeneration := {}
  policyGeneration : PolicyGeneration := {}
  topologyGeneration : TopologyGeneration := {}
  action : ActionId := {}
  actionGeneration : ActionGeneration := {}
  worker : WorkerId := {}
  workerBoot : WorkerBootId := {}
  target : ResourceId := {}
  targetGeneration : ResourceGeneration := {}
  requiredEvidenceSequence : EvidenceSequence := {}
  reservation : ReservationId := {}
  lease : LeaseId := {}
  requiredResourceGenerations : OrderedMap ResourceId ResourceGeneration := ∅
  issuedAtMs : UInt64 := 0
  deriving DecidableEq, Inhabited

/-- a planned action with its lifecycle -/
structure ContainmentAction where
  id : ActionId := {}
  generation : ActionGeneration := {}
  kind : ContainmentActionKind := .outcomeUnknown
  target : ResourceId := {}
  targetGeneration : ResourceGeneration := {}
  domain : ContainmentDomainId := {}
  isolationDomain : IsolationDomainId := {}
  mechanism : ContainmentMechanism := .none
  envelope : AuthorityEnvelope := {}
  status : ActionStatus := .candidate
  rejectionCode : ErrorCode := .ok
  rejectionDetail : Text := []
  createdAtMs : UInt64 := 0
  dispatchedAtMs : UInt64 := 0
  acknowledgedAtMs : UInt64 := 0
  completedAtMs : UInt64 := 0
  verificationGeneration : VerificationGeneration := {}
  executorToken : Text := []
  destructive : Bool := false
  deriving DecidableEq, Inhabited

structure ActionAcknowledgment where
  action : ActionId := {}
  actionGeneration : ActionGeneration := {}
  epoch : CoordinatorEpoch := {}
  worker : WorkerId := {}
  workerBoot : WorkerBootId := {}
  accepted : Bool := false
  executorToken : Text := []
  detail : Text := []

structure ActionResult where
  action : ActionId := {}
  actionGeneration : ActionGeneration := {}
  epoch : CoordinatorEpoch := {}
  worker : WorkerId := {}
  workerBoot : WorkerBootId := {}
  success : Bool := false
  mechanism : ContainmentMechanism := .none
  detail : Text := []

/-! ## Blast radius, verification, degraded modes, containments -/

structure ExplanationLine where
  category : Text := []
  sortKey : Text := []
  text : Text := []
  deriving DecidableEq, Inhabited

abbrev ContainmentExplanation := List ExplanationLine

/-- why a resource sits in its bucket -/
structure ClassifiedResource where
  resource : ResourceId := {}
  generation : ResourceGeneration := {}
  inclusion : InclusionReason := .faultSubject
  exclusion : ExclusionReason := .noProvenPropagationPath
  unresolved : UnresolvedReason := .evidenceMissing
  hasInclusion : Bool := false
  hasExclusion : Bool := false
  hasUnresolved : Bool := false
  detail : Text := []
  deriving Inhabited

/-- the result of evaluating containment for one fault -/
structure BlastRadius where
  generation : ContainmentGeneration := {}
  mandatory : IdSet .resourceId := []
  precautionary : IdSet .resourceId := []
  unaffected : IdSet .resourceId := []
  unresolved : IdSet .resourceId := []
  classifications : OrderedMap ResourceId ClassifiedResource := ∅
  propagation : List PropagationHop := []
  edgeOutcomes : OrderedMap DependencyId PropagationOutcome := ∅
  legalActions : List ContainmentActionKind := []
  illegalActions : List ContainmentActionKind := []
  recommended : ContainmentActionKind := .noActionRequired
  hardConstraintsSatisfied : Bool := true
  uncertaintyEscalated : Bool := false
  failClosedApplied : Bool := false
  budgetExhausted : Bool := false
  policyGeneration : PolicyGeneration := {}
  topologyGeneration : TopologyGeneration := {}
  epoch : CoordinatorEpoch := {}
  fault : FaultId := {}
  faultGeneration : FaultGeneration := {}
  explanation : ContainmentExplanation := []
  deriving Inhabited

structure VerificationFinding where
  check : Text := []
  passed : Bool := false
  detail : Text := []
  deriving DecidableEq, Inhabited

/-- the result of verifying one containment -/
structure ContainmentVerification where
  generation : VerificationGeneration := {}
  containmentGeneration : ContainmentGeneration := {}
  epoch : CoordinatorEpoch := {}
  policyGeneration : PolicyGeneration := {}
  topologyGeneration : TopologyGeneration := {}
  outcome : VerificationOutcome := .outcomeUnknown
  findings : List VerificationFinding := []
  provenContained : IdSet .resourceId := []
  unproven : IdSet .resourceId := []
  blastRadiusIncreased : Bool := false
  secondaryFailure : Bool := false
  propagationBlocked : Bool := false
  propagationContinued : Bool := false
  degradedModeValid : Bool := false
  evidenceSequence : EvidenceSequence := {}
  verifiedAtMs : UInt64 := 0
  summary : Text := []
  deriving DecidableEq, Inhabited

/-- the legal envelope for continuing work while infrastructure is contained -/
structure DegradedModeContract where
  id : DegradedModeId := {}
  name : Text := []
  topologyGeneration : TopologyGeneration := {}
  containmentGeneration : ContainmentGeneration := {}
  permittedResources : IdSet .resourceId := []
  prohibitedResources : IdSet .resourceId := []
  reducedCapacityPercent : UInt32 := 100
  requiredRedundancy : UInt32 := 1
  disabledFeatures : List Text := []
  legalWorkloadClasses : EnumSet ResourceClass := []
  hardSafetyConstraints : List Text := []
  maxEvidenceAgeMs : UInt64 := 30000
  expiresAtMs : UInt64 := 0
  revalidateEveryMs : UInt64 := 0
  exitPreconditions : List Text := []
  permitByDefault : Bool := true
  deriving DecidableEq, Inhabited

structure DegradedModeAssessment where
  contract : DegradedModeId := {}
  status : DegradedModeStatus := .noLegalDegradedMode
  permitted : IdSet .resourceId := []
  prohibited : IdSet .resourceId := []
  revalidationRequired : IdSet .resourceId := []
  availableCapacityPercent : UInt32 := 0
  requiredRedundancy : UInt32 := 1
  availableRedundancy : UInt32 := 0
  reasons : List Text := []
  topologyGeneration : TopologyGeneration := {}
  epoch : CoordinatorEpoch := {}
  assessedAtMs : UInt64 := 0
  authorized : Bool := false
  deriving DecidableEq, Inhabited

/-- the record of one containment decision -/
structure ContainmentRecord where
  generation : ContainmentGeneration := {}
  epoch : CoordinatorEpoch := {}
  fault : FaultId := {}
  faultGeneration : FaultGeneration := {}
  policyGeneration : PolicyGeneration := {}
  topologyGeneration : TopologyGeneration := {}
  outcome : ContainmentActionKind := .noActionRequired
  status : ContainmentStatus := .committed
  mandatory : IdSet .resourceId := []
  precautionary : IdSet .resourceId := []
  unaffected : IdSet .resourceId := []
  unresolved : IdSet .resourceId := []
  released : IdSet .resourceId := []
  propagation : List PropagationHop := []
  actions : List ActionId := []
  verificationGeneration : VerificationGeneration := {}
  verificationOutcome : VerificationOutcome := .outcomeUnknown
  verification : ContainmentVerification := {}
  degradedContract : DegradedModeId := {}
  degradedStatus : DegradedModeStatus := .noLegalDegradedMode
  committedAtMs : UInt64 := 0
  updatedAtMs : UInt64 := 0
  verified : Bool := false
  releasedFlag : Bool := false
  explanation : ContainmentExplanation := []
  deriving DecidableEq, Inhabited

structure ReleaseAssessment where
  decision : ReleaseDecision := .releaseUnknown
  generation : ReleaseGeneration := {}
  containmentGeneration : ContainmentGeneration := {}
  resource : ResourceId := {}
  criteria : List VerificationFinding := []
  summary : Text := []
  granted : Bool := false
  deriving Inhabited

structure ReleaseRequest where
  resource : ResourceId := {}
  expectedGeneration : ResourceGeneration := {}
  containmentGeneration : ContainmentGeneration := {}
  epoch : CoordinatorEpoch := {}
  requesterWorker : WorkerId := {}
  requesterBoot : WorkerBootId := {}
  evidenceSequence : EvidenceSequence := {}
  authority : Text := []

structure DispatchSummary where
  containmentGeneration : ContainmentGeneration := {}
  dispatched : List ActionId := []
  refused : List ActionId := []
  refusals : List Text := []
  budgetRemaining : ℕ := 0
  deriving Inhabited

/-! ## History and the runtime state -/

/-- one audit record -/
structure HistoryEvent where
  sequence : HistorySequence := {}
  timestampMs : UInt64 := 0
  epoch : CoordinatorEpoch := {}
  type : HistoryEventType := .coordinatorStarted
  resource : ResourceId := {}
  fault : FaultId := {}
  action : ActionId := {}
  containment : ContainmentGeneration := {}
  verification : VerificationGeneration := {}
  detail : Text := []
  authority : Text := []
  deriving DecidableEq, Inhabited

/-- the whole in-memory state of the engine -/
structure RuntimeSnapshot where
  epoch : CoordinatorEpoch := {}
  topologyGeneration : TopologyGeneration := {}
  policyGeneration : PolicyGeneration := {}
  containmentGeneration : ContainmentGeneration := {}
  verificationGeneration : VerificationGeneration := {}
  releaseGeneration : ReleaseGeneration := {}
  historySequence : HistorySequence := {}
  nowMs : UInt64 := 0
  topology : Topology := {}
  policy : ContainmentPolicy := {}
  faults : OrderedMap FaultId FaultRecord := ∅
  workers : WorkerRegistry := {}
  containments : OrderedMap ContainmentGeneration ContainmentRecord := ∅
  actions : OrderedMap ActionId ContainmentAction := ∅
  degradedModes : OrderedMap DegradedModeId DegradedModeAssessment := ∅
  degradedContracts : OrderedMap DegradedModeId DegradedModeContract := ∅
  history : List HistoryEvent := []
  historyTotal : UInt64 := 0
  deriving Inhabited

end FaultContainment.Records
