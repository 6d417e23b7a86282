/-
The closed enumerations of the program (`FCF_DEFINE_ENUM`).

Each enumeration is an inductive type with its table: the enumerators in declaration order, so that the position is the
underlying value, together with the spelling `to_string` renders. The predicates the headers define on an enumeration
stand right after it.

- `Coded.ofCode_code`: the value read back from its number is the value.
-/
import FaultContainment.Types.Ids
import Mathlib.Data.List.Sort
import Mathlib.Data.List.Destutter

namespace FaultContainment.Enums

open FaultContainment.Ids

/-- an enumeration with its declaration-order table -/
class Coded (α : Type) [DecidableEq α] where
  table : List (α × String)
  complete : ∀ a, a ∈ table.map Prod.fst
  small : table.length ≤ 256
  distinct : (table.map Prod.fst).Nodup

namespace Coded

variable {α : Type} [DecidableEq α] [Coded α]

/-- the underlying value -/
def code (a : α) : ℕ := (table.map Prod.fst).idxOf a

/-- the enumerator of a value, absent above the declared maximum -/
def ofCode (n : ℕ) : Option α := (table.map Prod.fst)[n]?

/-- `to_string` -/
def name (a : α) : Text :=
  match (table (α := α)).find? fun p => p.1 = a with
  | some p => lit p.2
  | none => lit "<invalid>"

theorem code_lt (a : α) : code a < 256 := by
  have h1 : code a < ((table (α := α)).map Prod.fst).length := List.idxOf_lt_length_of_mem (complete a)
  have h2 : (Coded.table (α := α)).length ≤ 256 := small
  rw [List.length_map] at h1
  omega

theorem ofCode_code (a : α) : ofCode (code a) = some a := by
  have h := List.idxOf_lt_length_of_mem (complete a)
  unfold ofCode code
  rw [List.getElem?_eq_getElem h, List.getElem_idxOf h]

theorem code_of_ofCode {n : ℕ} {a : α} (h : ofCode n = some a) : code a = n := by
  obtain ⟨hn, rfl⟩ := List.getElem?_eq_some_iff.mp h
  exact List.Nodup.idxOf_getElem distinct n hn

theorem code_injective : Function.Injective (code : α → ℕ) := by
  intro a b h
  have := congrArg (ofCode (α := α)) h
  rw [ofCode_code, ofCode_code] at this
  exact Option.some.inj this

end Coded

/-- sorted, duplicate-free vector of enumerators, by the same convention as `IdSet` -/
abbrev EnumSet (α : Type) := List α

section EnumSets

variable {α : Type} [DecidableEq α] [Coded α]

/-- `enum_set_contains` -/
def enumSetContains : EnumSet α → α → Bool
  | [], _ => false
  | e :: s, a => if Coded.code e = Coded.code a then true else if Coded.code a < Coded.code e then false
      else enumSetContains s a

/-- `enum_set_normalize`: sorted by value, adjacent repetitions dropped -/
def enumSetNormalize (s : EnumSet α) : EnumSet α :=
  (s.insertionSort fun a b => Coded.code a ≤ Coded.code b).destutter (· ≠ ·)

/-- what the convention says -/
def sortedEnums : EnumSet α → Bool
  | [] => true
  | [_] => true
  | a :: b :: s => Coded.code a < Coded.code b && sortedEnums (b :: s)

instance : Std.Total fun a b : α => Coded.code a ≤ Coded.code b := ⟨fun a b => le_total (Coded.code a) (Coded.code b)⟩
instance : IsTrans α fun a b => Coded.code a ≤ Coded.code b := ⟨fun _ _ _ => le_trans⟩

end EnumSets

/-! ## `error.hpp` -/

/-- `ErrorCode` -/
inductive ErrorCode where
  | ok | invalidArgument | invalidId | invalidDomainGraph | invalidDependency | unknownResource | unknownDomain
  | unknownWorker | unknownFault | unknownAction | unknownContainment | duplicateId | duplicateConflict | staleEpoch
  | staleWorker | staleWorkerBoot | staleFaultGeneration | stalePolicyGeneration | staleTopologyGeneration
  | staleResourceGeneration | staleActionGeneration | staleContainmentGeneration | staleEvidence | faultNotCurrent
  | faultNotActionable | containmentAlreadyCommitted | noLegalContainment | actionInfeasible
  | actionRevalidationFailed | executorUnavailable | propagationUnknown | degradedModeForbidden | releaseForbidden
  | revalidationRequired | verificationRequired | policyInvalid | persistenceCorrupt | persistenceUnsupportedVersion
  | persistenceIo | frameCorrupt | frameTooLarge | protocolVersionUnsupported | budgetExhausted | resourceExhausted
  | notFound | busy | shuttingDown | cancelled | unsupported | capabilityAbsent | internal
  deriving DecidableEq, Repr

instance : Coded ErrorCode where
  table := [(.ok, "OK"), (.invalidArgument, "INVALID_ARGUMENT"), (.invalidId, "INVALID_ID"),
    (.invalidDomainGraph, "INVALID_DOMAIN_GRAPH"), (.invalidDependency, "INVALID_DEPENDENCY"),
    (.unknownResource, "UNKNOWN_RESOURCE"), (.unknownDomain, "UNKNOWN_DOMAIN"), (.unknownWorker, "UNKNOWN_WORKER"),
    (.unknownFault, "UNKNOWN_FAULT"), (.unknownAction, "UNKNOWN_ACTION"),
    (.unknownContainment, "UNKNOWN_CONTAINMENT"), (.duplicateId, "DUPLICATE_ID"),
    (.duplicateConflict, "DUPLICATE_CONFLICT"), (.staleEpoch, "STALE_EPOCH"), (.staleWorker, "STALE_WORKER"),
    (.staleWorkerBoot, "STALE_WORKER_BOOT"), (.staleFaultGeneration, "STALE_FAULT_GENERATION"),
    (.stalePolicyGeneration, "STALE_POLICY_GENERATION"), (.staleTopologyGeneration, "STALE_TOPOLOGY_GENERATION"),
    (.staleResourceGeneration, "STALE_RESOURCE_GENERATION"), (.staleActionGeneration, "STALE_ACTION_GENERATION"),
    (.staleContainmentGeneration, "STALE_CONTAINMENT_GENERATION"), (.staleEvidence, "STALE_EVIDENCE"),
    (.faultNotCurrent, "FAULT_NOT_CURRENT"), (.faultNotActionable, "FAULT_NOT_ACTIONABLE"),
    (.containmentAlreadyCommitted, "CONTAINMENT_ALREADY_COMMITTED"), (.noLegalContainment, "NO_LEGAL_CONTAINMENT"),
    (.actionInfeasible, "ACTION_INFEASIBLE"), (.actionRevalidationFailed, "ACTION_REVALIDATION_FAILED"),
    (.executorUnavailable, "EXECUTOR_UNAVAILABLE"), (.propagationUnknown, "PROPAGATION_UNKNOWN"),
    (.degradedModeForbidden, "DEGRADED_MODE_FORBIDDEN"), (.releaseForbidden, "RELEASE_FORBIDDEN"),
    (.revalidationRequired, "REVALIDATION_REQUIRED"), (.verificationRequired, "VERIFICATION_REQUIRED"),
    (.policyInvalid, "POLICY_INVALID"), (.persistenceCorrupt, "PERSISTENCE_CORRUPT"),
    (.persistenceUnsupportedVersion, "PERSISTENCE_UNSUPPORTED_VERSION"), (.persistenceIo, "PERSISTENCE_IO"),
    (.frameCorrupt, "FRAME_CORRUPT"), (.frameTooLarge, "FRAME_TOO_LARGE"),
    (.protocolVersionUnsupported, "PROTOCOL_VERSION_UNSUPPORTED"), (.budgetExhausted, "BUDGET_EXHAUSTED"),
    (.resourceExhausted, "RESOURCE_EXHAUSTED"), (.notFound, "NOT_FOUND"), (.busy, "BUSY"),
    (.shuttingDown, "SHUTTING_DOWN"), (.cancelled, "CANCELLED"), (.unsupported, "UNSUPPORTED"),
    (.capabilityAbsent, "CAPABILITY_ABSENT"), (.internal, "INTERNAL")]
  complete a := by cases a <;> decide
  small := by decide
  distinct := by decide

/-! ## `evidence.hpp` -/

/-- where an observation came from -/
inductive EvidenceProvenance where
  | workerReport | coordinatorObservation | operator | topologyImport | syntheticInjection | derived | unknown
  deriving DecidableEq, Repr

instance : Coded EvidenceProvenance where
  table := [(.workerReport, "WORKER_REPORT"), (.coordinatorObservation, "COORDINATOR_OBSERVATION"),
    (.operator, "OPERATOR"), (.topologyImport, "TOPOLOGY_IMPORT"), (.syntheticInjection, "SYNTHETIC_INJECTION"),
    (.derived, "DERIVED"), (.unknown, "UNKNOWN")]
  complete a := by cases a <;> decide
  small := by decide
  distinct := by decide

/-- how far evidence may be trusted -/
inductive EvidenceFreshness where
  | fresh | aging | stale | revalidationRequired | unknown
  deriving DecidableEq, Repr

instance : Coded EvidenceFreshness where
  table := [(.fresh, "FRESH"), (.aging, "AGING"), (.stale, "STALE"), (.revalidationRequired, "REVALIDATION_REQUIRED"),
    (.unknown, "UNKNOWN")]
  complete a := by cases a <;> decide
  small := by decide
  distinct := by decide

/-- integrity of an observation -/
inductive IntegrityStatus where
  | verified | unverified | suspect | corrupt
  deriving DecidableEq, Repr

instance : Coded IntegrityStatus where
  table := [(.verified, "VERIFIED"), (.unverified, "UNVERIFIED"), (.suspect, "SUSPECT"), (.corrupt, "CORRUPT")]
  complete a := by cases a <;> decide
  small := by decide
  distinct := by decide

/-- how containment of a resource is enforced -/
inductive ContainmentMechanism where
  | none | logicalContainment | processContainment | resourceContainment | hardwareEnforcedContainment
  | syntheticContainment | unsupportedContainment
  deriving DecidableEq, Repr

instance : Coded ContainmentMechanism where
  table := [(.none, "NONE"), (.logicalContainment, "LOGICAL_CONTAINMENT"),
    (.processContainment, "PROCESS_CONTAINMENT"), (.resourceContainment, "RESOURCE_CONTAINMENT"),
    (.hardwareEnforcedContainment, "HARDWARE_ENFORCED_CONTAINMENT"), (.syntheticContainment, "SYNTHETIC_CONTAINMENT"),
    (.unsupportedContainment, "UNSUPPORTED_CONTAINMENT")]
  complete a := by cases a <;> decide
  small := by decide
  distinct := by decide

/-! ## `domain.hpp` -/

/-- what a resource is -/
inductive ResourceClass where
  | worker | process | accelerator | acceleratorPartition | device | host | rackLocalGroup | service
  | serviceReplicaGroup | memoryDependencySet | clusterPartition | attempt | execution | memoryOwnership | assignment
  | route | registration | lease | reservation | stateStore | capability | generic
  deriving DecidableEq, Repr

instance : Coded ResourceClass where
  table := [(.worker, "WORKER"), (.process, "PROCESS"), (.accelerator, "ACCELERATOR"),
    (.acceleratorPartition, "ACCELERATOR_PARTITION"), (.device, "DEVICE"), (.host, "HOST"),
    (.rackLocalGroup, "RACK_LOCAL_GROUP"), (.service, "SERVICE"), (.serviceReplicaGroup, "SERVICE_REPLICA_GROUP"),
    (.memoryDependencySet, "MEMORY_DEPENDENCY_SET"), (.clusterPartition, "CLUSTER_PARTITION"), (.attempt, "ATTEMPT"),
    (.execution, "EXECUTION"), (.memoryOwnership, "MEMORY_OWNERSHIP"), (.assignment, "ASSIGNMENT"), (.route, "ROUTE"),
    (.registration, "REGISTRATION"), (.lease, "LEASE"), (.reservation, "RESERVATION"), (.stateStore, "STATE_STORE"),
    (.capability, "CAPABILITY"), (.generic, "GENERIC")]
  complete a := by cases a <;> decide
  small := by decide
  distinct := by decide

/-- protection class of a resource -/
inductive ProtectionClass where
  | standard | protectedClass | critical
  deriving DecidableEq, Repr

instance : Coded ProtectionClass where
  table := [(.standard, "STANDARD"), (.protectedClass, "PROTECTED"), (.critical, "CRITICAL")]
  complete a := by cases a <;> decide
  small := by decide
  distinct := by decide

/-- operational state of a resource -/
inductive ResourceOperationalState where
  | active | fenced | quarantined | draining | disabled | released | superseded | unknown
  deriving DecidableEq, Repr

instance : Coded ResourceOperationalState where
  table := [(.active, "ACTIVE"), (.fenced, "FENCED"), (.quarantined, "QUARANTINED"), (.draining, "DRAINING"),
    (.disabled, "DISABLED"), (.released, "RELEASED"), (.superseded, "SUPERSEDED"), (.unknown, "UNKNOWN")]
  complete a := by cases a <;> decide
  small := by decide
  distinct := by decide

/-- the resource may receive new work or state -/
def isOperable (s : ResourceOperationalState) : Bool := s = .active || s = .draining

/-- containment forbids new work on the resource -/
def isContained : ResourceOperationalState → Bool
  | .fenced | .quarantined | .disabled => true
  | _ => false

/-- kind of correlated-failure boundary -/
inductive FailureDomainKind where
  | process | host | pcieRoot | numaDomain | powerDomain | rack | networkPartition | syntheticCorrelatedGroup
  | unknown
  deriving DecidableEq, Repr

instance : Coded FailureDomainKind where
  table := [(.process, "PROCESS"), (.host, "HOST"), (.pcieRoot, "PCIE_ROOT"), (.numaDomain, "NUMA_DOMAIN"),
    (.powerDomain, "POWER_DOMAIN"), (.rack, "RACK"), (.networkPartition, "NETWORK_PARTITION"),
    (.syntheticCorrelatedGroup, "SYNTHETIC_CORRELATED_GROUP"), (.unknown, "UNKNOWN")]
  complete a := by cases a <;> decide
  small := by decide
  distinct := by decide

/-- why resources must be fenced together -/
inductive IsolationClass where
  | authority | hardware | state | transport | security | synthetic
  deriving DecidableEq, Repr

instance : Coded IsolationClass where
  table := [(.authority, "AUTHORITY"), (.hardware, "HARDWARE"), (.state, "STATE"), (.transport, "TRANSPORT"),
    (.security, "SECURITY"), (.synthetic, "SYNTHETIC")]
  complete a := by cases a <;> decide
  small := by decide
  distinct := by decide

/-! ## `dependency.hpp` -/

/-- kind of a dependency edge -/
inductive DependencyKind where
  | executionDependsOn | stateOwnedBy | memoryOwnedBy | routeDependsOn | serviceDependsOn | replicaMemberOf
  | sharesFailureDomainWith | sharesAuthorityWith | controlledBy | requiresCapabilityFrom | reservationBoundTo
  | leaseBoundTo | registrationBoundTo
  deriving DecidableEq, Repr

instance : Coded DependencyKind where
  table := [(.executionDependsOn, "EXECUTION_DEPENDS_ON"), (.stateOwnedBy, "STATE_OWNED_BY"),
    (.memoryOwnedBy, "MEMORY_OWNED_BY"), (.routeDependsOn, "ROUTE_DEPENDS_ON"),
    (.serviceDependsOn, "SERVICE_DEPENDS_ON"), (.replicaMemberOf, "REPLICA_MEMBER_OF"),
    (.sharesFailureDomainWith, "SHARES_FAILURE_DOMAIN_WITH"), (.sharesAuthorityWith, "SHARES_AUTHORITY_WITH"),
    (.controlledBy, "CONTROLLED_BY"), (.requiresCapabilityFrom, "REQUIRES_CAPABILITY_FROM"),
    (.reservationBoundTo, "RESERVATION_BOUND_TO"), (.leaseBoundTo, "LEASE_BOUND_TO"),
    (.registrationBoundTo, "REGISTRATION_BOUND_TO")]
  complete a := by cases a <;> decide
  small := by decide
  distinct := by decide

/-- answer to one propagation question -/
inductive PropagationOutcome where
  | propagationImpossible | propagationBlocked | propagationPossible | propagationLikely | propagationConfirmed
  | propagationUnknown
  deriving DecidableEq, Repr

instance : Coded PropagationOutcome where
  table := [(.propagationImpossible, "PROPAGATION_IMPOSSIBLE"), (.propagationBlocked, "PROPAGATION_BLOCKED"),
    (.propagationPossible, "PROPAGATION_POSSIBLE"), (.propagationLikely, "PROPAGATION_LIKELY"),
    (.propagationConfirmed, "PROPAGATION_CONFIRMED"), (.propagationUnknown, "PROPAGATION_UNKNOWN")]
  complete a := by cases a <;> decide
  small := by decide
  distinct := by decide

/-- why a resource is inside the mandatory set -/
inductive InclusionReason where
  | faultSubject | faultSubjectWorkerIncarnation | sharedAuthority | stateOwnershipBound | memoryOwnershipBound
  | sharedIsolationDomain | sharedFailureDomain | mandatoryCoIsolationRule | domainCoIsolation | propagationHardEdge
  | propagationConditionalEdge | escalatedUncertainty | unknownEvidenceFailClosed | administrativeOverride
  | actionRequiredByPolicy
  deriving DecidableEq, Repr

instance : Coded InclusionReason where
  table := [(.faultSubject, "FAULT_SUBJECT"), (.faultSubjectWorkerIncarnation, "FAULT_SUBJECT_WORKER_INCARNATION"),
    (.sharedAuthority, "SHARED_AUTHORITY"), (.stateOwnershipBound, "STATE_OWNERSHIP_BOUND"),
    (.memoryOwnershipBound, "MEMORY_OWNERSHIP_BOUND"), (.sharedIsolationDomain, "SHARED_ISOLATION_DOMAIN"),
    (.sharedFailureDomain, "SHARED_FAILURE_DOMAIN"), (.mandatoryCoIsolationRule, "MANDATORY_CO_ISOLATION_RULE"),
    (.domainCoIsolation, "DOMAIN_CO_ISOLATION"), (.propagationHardEdge, "PROPAGATION_HARD_EDGE"),
    (.propagationConditionalEdge, "PROPAGATION_CONDITIONAL_EDGE"), (.escalatedUncertainty, "ESCALATED_UNCERTAINTY"),
    (.unknownEvidenceFailClosed, "UNKNOWN_EVIDENCE_FAIL_CLOSED"),
    (.administrativeOverride, "ADMINISTRATIVE_OVERRIDE"), (.actionRequiredByPolicy, "ACTION_REQUIRED_BY_POLICY")]
  complete a := by cases a <;> decide
  small := by decide
  distinct := by decide

/-- why a resource is proven outside -/
inductive ExclusionReason where
  | noProvenPropagationPath | freshIndependentAuthority | separateIsolationDomain | separateFailureDomain
  | dependencyKindDoesNotPropagate | propagationPathAlreadySevered | conditionalOnlyInclusion
  | degradedModePermittedIndependence
  deriving DecidableEq, Repr

instance : Coded ExclusionReason where
  table := [(.noProvenPropagationPath, "NO_PROVEN_PROPAGATION_PATH"),
    (.freshIndependentAuthority, "FRESH_INDEPENDENT_AUTHORITY"),
    (.separateIsolationDomain, "SEPARATE_ISOLATION_DOMAIN"), (.separateFailureDomain, "SEPARATE_FAILURE_DOMAIN"),
    (.dependencyKindDoesNotPropagate, "DEPENDENCY_KIND_DOES_NOT_PROPAGATE"),
    (.propagationPathAlreadySevered, "PROPAGATION_PATH_ALREADY_SEVERED"),
    (.conditionalOnlyInclusion, "CONDITIONAL_ONLY_INCLUSION"),
    (.degradedModePermittedIndependence, "DEGRADED_MODE_PERMITTED_INDEPENDENCE")]
  complete a := by cases a <;> decide
  small := by decide
  distinct := by decide

/-- why a resource could not be classified -/
inductive UnresolvedReason where
  | evidenceStale | evidenceInvalid | evidenceMissing | topologyUnknown | dependencyFreshnessUnknown
  | authorityStateUnknown
  deriving DecidableEq, Repr

instance : Coded UnresolvedReason where
  table := [(.evidenceStale, "EVIDENCE_STALE"), (.evidenceInvalid, "EVIDENCE_INVALID"),
    (.evidenceMissing, "EVIDENCE_MISSING"), (.topologyUnknown, "TOPOLOGY_UNKNOWN"),
    (.dependencyFreshnessUnknown, "DEPENDENCY_FRESHNESS_UNKNOWN"),
    (.authorityStateUnknown, "AUTHORITY_STATE_UNKNOWN")]
  complete a := by cases a <;> decide
  small := by decide
  distinct := by decide

/-! ## `fault.hpp` -/

/-- kind of fault -/
inductive FaultKind where
  | processDeath | processUnresponsive | workerAuthorityLost | deviceFailure | deviceUnavailable | deviceReset
  | memoryIntegrityFailure | persistenceCorruption | transportPartition | transportCorruption | controlPlaneLoss
  | coordinatorRestart | staleAuthority | resourceExhaustion | thermalViolation | powerViolation
  | topologyInconsistency | dependencyFailure | healthDegraded | securityIsolationRequest | administrativeQuarantine
  | unknownFault
  deriving DecidableEq, Repr

instance : Coded FaultKind where
  table := [(.processDeath, "PROCESS_DEATH"), (.processUnresponsive, "PROCESS_UNRESPONSIVE"),
    (.workerAuthorityLost, "WORKER_AUTHORITY_LOST"), (.deviceFailure, "DEVICE_FAILURE"),
    (.deviceUnavailable, "DEVICE_UNAVAILABLE"), (.deviceReset, "DEVICE_RESET"),
    (.memoryIntegrityFailure, "MEMORY_INTEGRITY_FAILURE"), (.persistenceCorruption, "PERSISTENCE_CORRUPTION"),
    (.transportPartition, "TRANSPORT_PARTITION"), (.transportCorruption, "TRANSPORT_CORRUPTION"),
    (.controlPlaneLoss, "CONTROL_PLANE_LOSS"), (.coordinatorRestart, "COORDINATOR_RESTART"),
    (.staleAuthority, "STALE_AUTHORITY"), (.resourceExhaustion, "RESOURCE_EXHAUSTION"),
    (.thermalViolation, "THERMAL_VIOLATION"), (.powerViolation, "POWER_VIOLATION"),
    (.topologyInconsistency, "TOPOLOGY_INCONSISTENCY"), (.dependencyFailure, "DEPENDENCY_FAILURE"),
    (.healthDegraded, "HEALTH_DEGRADED"), (.securityIsolationRequest, "SECURITY_ISOLATION_REQUEST"),
    (.administrativeQuarantine, "ADMINISTRATIVE_QUARANTINE"), (.unknownFault, "UNKNOWN_FAULT")]
  complete a := by cases a <;> decide
  small := by decide
  distinct := by decide

instance : LinearOrder FaultKind := orderBy Coded.code Coded.code_injective

/-- lifecycle of a fault -/
inductive FaultState where
  | observed | suspected | confirmed | containmentRequired | containmentInProgress | contained | containmentPartial
  | containmentFailed | revalidationRequired | cleared | superseded
  deriving DecidableEq, Repr

instance : Coded FaultState where
  table := [(.observed, "OBSERVED"), (.suspected, "SUSPECTED"), (.confirmed, "CONFIRMED"),
    (.containmentRequired, "CONTAINMENT_REQUIRED"), (.containmentInProgress, "CONTAINMENT_IN_PROGRESS"),
    (.contained, "CONTAINED"), (.containmentPartial, "CONTAINMENT_PARTIAL"),
    (.containmentFailed, "CONTAINMENT_FAILED"), (.revalidationRequired, "REVALIDATION_REQUIRED"),
    (.cleared, "CLEARED"), (.superseded, "SUPERSEDED")]
  complete a := by cases a <;> decide
  small := by decide
  distinct := by decide

/-- `is_legal_fault_transition` -/
def isLegalFaultTransition (source target : FaultState) : Bool :=
  source = target ||
  match source, target with
  | .observed, .suspected | .observed, .confirmed | .observed, .containmentRequired | .observed, .superseded
  | .observed, .cleared | .observed, .revalidationRequired => true
  | .suspected, .confirmed | .suspected, .containmentRequired | .suspected, .cleared | .suspected, .superseded
  | .suspected, .revalidationRequired => true
  | .confirmed, .containmentRequired | .confirmed, .containmentInProgress | .confirmed, .cleared
  | .confirmed, .superseded | .confirmed, .revalidationRequired => true
  | .containmentRequired, .containmentInProgress | .containmentRequired, .contained
  | .containmentRequired, .containmentPartial | .containmentRequired, .containmentFailed
  | .containmentRequired, .revalidationRequired | .containmentRequired, .superseded => true
  | .containmentInProgress, .contained | .containmentInProgress, .containmentPartial
  | .containmentInProgress, .containmentFailed | .containmentInProgress, .revalidationRequired
  | .containmentInProgress, .superseded => true
  | .contained, .containmentPartial | .contained, .containmentFailed | .contained, .revalidationRequired
  | .contained, .cleared | .contained, .superseded => true
  | .containmentPartial, .contained | .containmentPartial, .containmentFailed
  | .containmentPartial, .containmentInProgress | .containmentPartial, .revalidationRequired
  | .containmentPartial, .superseded => true
  | .containmentFailed, .containmentInProgress | .containmentFailed, .containmentRequired
  | .containmentFailed, .revalidationRequired | .containmentFailed, .superseded => true
  | .revalidationRequired, .confirmed | .revalidationRequired, .containmentRequired
  | .revalidationRequired, .contained | .revalidationRequired, .cleared | .revalidationRequired, .superseded => true
  | .cleared, .superseded => true
  | _, _ => false

/-- the fault still governs containment decisions -/
def isFaultCurrent : FaultState → Bool
  | .cleared | .superseded => false
  | _ => true

/-- severity of a fault -/
inductive FaultSeverity where
  | low | medium | high | critical
  deriving DecidableEq, Repr

instance : Coded FaultSeverity where
  table := [(.low, "LOW"), (.medium, "MEDIUM"), (.high, "HIGH"), (.critical, "CRITICAL")]
  complete a := by cases a <;> decide
  small := by decide
  distinct := by decide

/-- who reported a fault -/
inductive ReporterKind where
  | worker | coordinator | operator | syntheticInjector | derived
  deriving DecidableEq, Repr

instance : Coded ReporterKind where
  table := [(.worker, "WORKER"), (.coordinator, "COORDINATOR"), (.operator, "OPERATOR"),
    (.syntheticInjector, "SYNTHETIC_INJECTOR"), (.derived, "DERIVED")]
  complete a := by cases a <;> decide
  small := by decide
  distinct := by decide

/-! ## `actions.hpp` -/

/-- containment outcomes and actions -/
inductive ContainmentActionKind where
  | noActionRequired | observe | fenceProcess | fenceWorker | fenceAttempt | fenceDevice | fenceResourceSet
  | quarantineResource | quarantineDomain | drainDomain | disableAdmission | revokeAuthority | revokeReservation
  | revokeRoute | revokeRegistration | degradeService | requireRevalidation | escalateContainment
  | fullDomainIsolation | outcomeUnknown
  deriving DecidableEq, Repr

instance : Coded ContainmentActionKind where
  table := [(.noActionRequired, "NO_ACTION_REQUIRED"), (.observe, "OBSERVE"), (.fenceProcess, "FENCE_PROCESS"),
    (.fenceWorker, "FENCE_WORKER"), (.fenceAttempt, "FENCE_ATTEMPT"), (.fenceDevice, "FENCE_DEVICE"),
    (.fenceResourceSet, "FENCE_RESOURCE_SET"), (.quarantineResource, "QUARANTINE_RESOURCE"),
    (.quarantineDomain, "QUARANTINE_DOMAIN"), (.drainDomain, "DRAIN_DOMAIN"),
    (.disableAdmission, "DISABLE_ADMISSION"), (.revokeAuthority, "REVOKE_AUTHORITY"),
    (.revokeReservation, "REVOKE_RESERVATION"), (.revokeRoute, "REVOKE_ROUTE"),
    (.revokeRegistration, "REVOKE_REGISTRATION"), (.degradeService, "DEGRADE_SERVICE"),
    (.requireRevalidation, "REQUIRE_REVALIDATION"), (.escalateContainment, "ESCALATE_CONTAINMENT"),
    (.fullDomainIsolation, "FULL_DOMAIN_ISOLATION"), (.outcomeUnknown, "OUTCOME_UNKNOWN")]
  complete a := by cases a <;> decide
  small := by decide
  distinct := by decide

/-- re-dispatching after an ambiguous failure could do harm -/
def isDestructiveAction : ContainmentActionKind → Bool
  | .fenceProcess | .fenceWorker | .fenceDevice | .quarantineResource | .quarantineDomain
  | .fullDomainIsolation => true
  | _ => false

/-- lifecycle of an action -/
inductive ActionStatus where
  | candidate | rejectedInfeasible | rejectedUnsafe | planned | authorized | dispatched | acknowledged
  | resultRecorded | verifiedEffective | verifiedIneffective | ambiguous | superseded | cancelled
  deriving DecidableEq, Repr

instance : Coded ActionStatus where
  table := [(.candidate, "CANDIDATE"), (.rejectedInfeasible, "REJECTED_INFEASIBLE"),
    (.rejectedUnsafe, "REJECTED_UNSAFE"), (.planned, "PLANNED"), (.authorized, "AUTHORIZED"),
    (.dispatched, "DISPATCHED"), (.acknowledged, "ACKNOWLEDGED"), (.resultRecorded, "RESULT_RECORDED"),
    (.verifiedEffective, "VERIFIED_EFFECTIVE"), (.verifiedIneffective, "VERIFIED_INEFFECTIVE"),
    (.ambiguous, "AMBIGUOUS"), (.superseded, "SUPERSEDED"), (.cancelled, "CANCELLED")]
  complete a := by cases a <;> decide
  small := by decide
  distinct := by decide

/-! ## `policy.hpp` -/

/-- what a rule does when evidence is not conclusive -/
inductive UncertaintyBehavior where
  | containPreemptively | boundedExposure | observeOnly
  deriving DecidableEq, Repr

instance : Coded UncertaintyBehavior where
  table := [(.containPreemptively, "CONTAIN_PREEMPTIVELY"), (.boundedExposure, "BOUNDED_EXPOSURE"),
    (.observeOnly, "OBSERVE_ONLY")]
  complete a := by cases a <;> decide
  small := by decide
  distinct := by decide

/-- how a rule treats propagation -/
inductive PropagationMode where
  | hard | conditional | none
  deriving DecidableEq, Repr

instance : Coded PropagationMode where
  table := [(.hard, "HARD"), (.conditional, "CONDITIONAL"), (.none, "NONE")]
  complete a := by cases a <;> decide
  small := by decide
  distinct := by decide

/-- how candidates are ranked -/
inductive RankingPreference where
  | smallestLegalRadius | preferProcessScope | preferDomainScope
  deriving DecidableEq, Repr

instance : Coded RankingPreference where
  table := [(.smallestLegalRadius, "SMALLEST_LEGAL_RADIUS"), (.preferProcessScope, "PREFER_PROCESS_SCOPE"),
    (.preferDomainScope, "PREFER_DOMAIN_SCOPE")]
  complete a := by cases a <;> decide
  small := by decide
  distinct := by decide

/-! ## `verification.hpp` -/

/-- outcome of a verification -/
inductive VerificationOutcome where
  | contained | partiallyContained | notContained | containmentBreached | propagationBlocked | propagationContinued
  | secondaryFailureCreated | degradedModeValid | degradedModeInvalid | outcomeUnknown
  deriving DecidableEq, Repr

instance : Coded VerificationOutcome where
  table := [(.contained, "CONTAINED"), (.partiallyContained, "PARTIALLY_CONTAINED"), (.notContained, "NOT_CONTAINED"),
    (.containmentBreached, "CONTAINMENT_BREACHED"), (.propagationBlocked, "PROPAGATION_BLOCKED"),
    (.propagationContinued, "PROPAGATION_CONTINUED"), (.secondaryFailureCreated, "SECONDARY_FAILURE_CREATED"),
    (.degradedModeValid, "DEGRADED_MODE_VALID"), (.degradedModeInvalid, "DEGRADED_MODE_INVALID"),
    (.outcomeUnknown, "OUTCOME_UNKNOWN")]
  complete a := by cases a <;> decide
  small := by decide
  distinct := by decide

/-! ## `degraded.hpp` -/

/-- status of a degraded mode -/
inductive DegradedModeStatus where
  | normal | degradedAuthorized | degradedRevalidationRequired | degradedUnsafe | noLegalDegradedMode
  deriving DecidableEq, Repr

instance : Coded DegradedModeStatus where
  table := [(.normal, "NORMAL"), (.degradedAuthorized, "DEGRADED_AUTHORIZED"),
    (.degradedRevalidationRequired, "DEGRADED_REVALIDATION_REQUIRED"), (.degradedUnsafe, "DEGRADED_UNSAFE"),
    (.noLegalDegradedMode, "NO_LEGAL_DEGRADED_MODE")]
  complete a := by cases a <;> decide
  small := by decide
  distinct := by decide

/-! ## `containment.hpp` -/

/-- lifecycle of a containment -/
inductive ContainmentStatus where
  | committed | enforcing | verifiedContained | partialStatus | failed | released | superseded
  deriving DecidableEq, Repr

instance : Coded ContainmentStatus where
  table := [(.committed, "COMMITTED"), (.enforcing, "ENFORCING"), (.verifiedContained, "VERIFIED_CONTAINED"),
    (.partialStatus, "PARTIAL"), (.failed, "FAILED"), (.released, "RELEASED"), (.superseded, "SUPERSEDED")]
  complete a := by cases a <;> decide
  small := by decide
  distinct := by decide

/-- the containment still forbids new work on its members -/
def containmentIsLive : ContainmentStatus → Bool
  | .released | .superseded => false
  | _ => true

/-- decision on a release request -/
inductive ReleaseDecision where
  | releaseGranted | releaseDeniedEvidence | releaseDeniedAuthority | releaseDeniedPropagation
  | releaseDeniedUnverified | releaseDeniedPolicy | releaseUnknown
  deriving DecidableEq, Repr

instance : Coded ReleaseDecision where
  table := [(.releaseGranted, "RELEASE_GRANTED"), (.releaseDeniedEvidence, "RELEASE_DENIED_EVIDENCE"),
    (.releaseDeniedAuthority, "RELEASE_DENIED_AUTHORITY"), (.releaseDeniedPropagation, "RELEASE_DENIED_PROPAGATION"),
    (.releaseDeniedUnverified, "RELEASE_DENIED_UNVERIFIED"), (.releaseDeniedPolicy, "RELEASE_DENIED_POLICY"),
    (.releaseUnknown, "RELEASE_UNKNOWN")]
  complete a := by cases a <;> decide
  small := by decide
  distinct := by decide

/-! ## `worker.hpp` -/

/-- state of a worker incarnation -/
inductive WorkerState where
  | registered | active | suspect | authorityRevoked | retired
  deriving DecidableEq, Repr

instance : Coded WorkerState where
  table := [(.registered, "REGISTERED"), (.active, "ACTIVE"), (.suspect, "SUSPECT"),
    (.authorityRevoked, "AUTHORITY_REVOKED"), (.retired, "RETIRED")]
  complete a := by cases a <;> decide
  small := by decide
  distinct := by decide

/-- the incarnation may still hold live authority; SUSPECT is excluded on purpose -/
def holdsLiveAuthority (s : WorkerState) : Bool := s = .registered || s = .active

/-! ## `history.hpp` -/

/-- kinds of audit records -/
inductive HistoryEventType where
  | coordinatorStarted | epochAdvanced | topologyUpdated | domainRegistered | domainUpdated | domainRemoved
  | dependencyRegistered | dependencyRemoved | resourceRegistered | resourceEvidenceUpdated | workerRegistered
  | workerRetired | workerAuthorityRevoked | faultPublished | faultDuplicateIgnored | faultConflictRejected
  | faultSuperseded | faultStateChanged | containmentEvaluated | containmentCommitted | actionPlanned
  | actionAuthorized | actionDispatched | actionAcknowledged | actionResultRecorded | actionRejected
  | actionCancelled | containmentVerified | degradedAuthorized | degradedRevalidated | releaseRequested
  | releaseGranted | releaseRefused | staleMessageRejected | recoveryApplied | persistenceFault
  deriving DecidableEq, Repr

instance : Coded HistoryEventType where
  table := [(.coordinatorStarted, "COORDINATOR_STARTED"), (.epochAdvanced, "EPOCH_ADVANCED"),
    (.topologyUpdated, "TOPOLOGY_UPDATED"), (.domainRegistered, "DOMAIN_REGISTERED"),
    (.domainUpdated, "DOMAIN_UPDATED"), (.domainRemoved, "DOMAIN_REMOVED"),
    (.dependencyRegistered, "DEPENDENCY_REGISTERED"), (.dependencyRemoved, "DEPENDENCY_REMOVED"),
    (.resourceRegistered, "RESOURCE_REGISTERED"), (.resourceEvidenceUpdated, "RESOURCE_EVIDENCE_UPDATED"),
    (.workerRegistered, "WORKER_REGISTERED"), (.workerRetired, "WORKER_RETIRED"),
    (.workerAuthorityRevoked, "WORKER_AUTHORITY_REVOKED"), (.faultPublished, "FAULT_PUBLISHED"),
    (.faultDuplicateIgnored, "FAULT_DUPLICATE_IGNORED"), (.faultConflictRejected, "FAULT_CONFLICT_REJECTED"),
    (.faultSuperseded, "FAULT_SUPERSEDED"), (.faultStateChanged, "FAULT_STATE_CHANGED"),
    (.containmentEvaluated, "CONTAINMENT_EVALUATED"), (.containmentCommitted, "CONTAINMENT_COMMITTED"),
    (.actionPlanned, "ACTION_PLANNED"), (.actionAuthorized, "ACTION_AUTHORIZED"),
    (.actionDispatched, "ACTION_DISPATCHED"), (.actionAcknowledged, "ACTION_ACKNOWLEDGED"),
    (.actionResultRecorded, "ACTION_RESULT_RECORDED"), (.actionRejected, "ACTION_REJECTED"),
    (.actionCancelled, "ACTION_CANCELLED"), (.containmentVerified, "CONTAINMENT_VERIFIED"),
    (.degradedAuthorized, "DEGRADED_AUTHORIZED"), (.degradedRevalidated, "DEGRADED_REVALIDATED"),
    (.releaseRequested, "RELEASE_REQUESTED"), (.releaseGranted, "RELEASE_GRANTED"),
    (.releaseRefused, "RELEASE_REFUSED"), (.staleMessageRejected, "STALE_MESSAGE_REJECTED"),
    (.recoveryApplied, "RECOVERY_APPLIED"), (.persistenceFault, "PERSISTENCE_FAULT")]
  complete a := by cases a <;> decide
  small := by decide
  distinct := by decide

end FaultContainment.Enums
