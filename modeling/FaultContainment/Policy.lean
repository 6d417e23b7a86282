/-
Policy: which dependency kinds carry propagation, the default document, and the validation `set_policy` runs
(`policy.cpp`).

`validatePolicy` looks at the explicit rules, the action budget of the document and the override's authority. It does not look
at the fallback rule, at any confidence, or at the override's scope.
-/
import FaultContainment.Types.Records

namespace FaultContainment.Policy

open FaultContainment.Lib FaultContainment.Ids FaultContainment.Enums FaultContainment.Records

/-- the rule carries propagation over edges of this kind -/
def rulePropagatesOver (rule : FaultRule) (kind : DependencyKind) : Bool :=
  if enumSetContains rule.nonPropagatingKinds kind then false
  else if enumSetContains rule.propagatingKinds kind then rule.propagation != .none
  else rule.propagation == .hard

/-! ## The default policy -/

/-- one row of `kAdjustments` -/
structure RuleAdjustment where
  kind : FaultKind
  preferred : ContainmentActionKind
  severity : FaultSeverity
  propagation : PropagationMode
  uncertainty : UncertaintyBehavior
  isolateFailureDomain : Bool
  isolateIsolationDomain : Bool
  coIsolateContainmentDomain : Bool
  permitDegradedMode : Bool

/-- `kAdjustments` -/
def kAdjustments : List RuleAdjustment :=
  [⟨.processDeath, .fenceWorker, .critical, .hard, .containPreemptively, true, true, false, true⟩,
   ⟨.processUnresponsive, .fenceProcess, .high, .hard, .containPreemptively, true, true, false, true⟩,
   ⟨.workerAuthorityLost, .revokeAuthority, .critical, .hard, .containPreemptively, true, true, false, true⟩,
   ⟨.deviceFailure, .fenceDevice, .critical, .hard, .containPreemptively, true, true, false, false⟩,
   ⟨.deviceUnavailable, .quarantineResource, .high, .hard, .containPreemptively, true, true, false, true⟩,
   ⟨.deviceReset, .requireRevalidation, .medium, .conditional, .boundedExposure, false, false, false, true⟩,
   ⟨.memoryIntegrityFailure, .quarantineResource, .critical, .hard, .containPreemptively, true, true, true, false⟩,
   ⟨.persistenceCorruption, .quarantineDomain, .critical, .hard, .containPreemptively, true, true, true, false⟩,
   ⟨.transportPartition, .quarantineDomain, .high, .hard, .containPreemptively, true, true, false, true⟩,
   ⟨.transportCorruption, .revokeRoute, .high, .hard, .containPreemptively, false, true, false, true⟩,
   ⟨.controlPlaneLoss, .disableAdmission, .critical, .hard, .containPreemptively, true, true, true, true⟩,
   ⟨.coordinatorRestart, .requireRevalidation, .high, .conditional, .boundedExposure, false, false, false, true⟩,
   ⟨.staleAuthority, .revokeAuthority, .critical, .hard, .containPreemptively, false, true, false, true⟩,
   ⟨.resourceExhaustion, .disableAdmission, .high, .conditional, .boundedExposure, false, false, false, true⟩,
   ⟨.thermalViolation, .drainDomain, .high, .conditional, .boundedExposure, true, false, false, true⟩,
   ⟨.powerViolation, .drainDomain, .critical, .hard, .containPreemptively, true, false, false, false⟩,
   ⟨.topologyInconsistency, .requireRevalidation, .medium, .conditional, .boundedExposure, false, false, false, true⟩,
   ⟨.dependencyFailure, .quarantineResource, .high, .hard, .containPreemptively, false, true, false, true⟩,
   ⟨.healthDegraded, .observe, .low, .none, .observeOnly, false, false, false, true⟩,
   ⟨.securityIsolationRequest, .fullDomainIsolation, .critical, .hard, .containPreemptively, true, true, true, false⟩,
   ⟨.administrativeQuarantine, .quarantineDomain, .high, .hard, .containPreemptively, true, true, true, true⟩,
   ⟨.unknownFault, .escalateContainment, .critical, .hard, .containPreemptively, true, true, false, false⟩]

/-- the rule every adjustment starts from -/
def baseRule : FaultRule where
  mandatoryContainment := true
  uncertainty := .containPreemptively
  propagation := .hard
  severity := .high
  preferredOutcome := .quarantineResource
  escalationOutcome := .fullDomainIsolation
  likelyConfidencePermille := 700
  maxToleratedExposure := 0
  permitDegradedMode := true
  requireFreshEvidence := true
  maxEvidenceAgeMs := 30000
  allowRelease := true
  minRedundancy := 1
  actionBudget := 4096
  isolateFailureDomain := true
  isolateIsolationDomain := true
  coIsolateContainmentDomain := false
  ranking := .smallestLegalRadius
  failClosedOnUnknownEvidence := true
  allowProtectedResourceFencing := false
  propagatingKinds := [.executionDependsOn, .stateOwnedBy, .memoryOwnedBy, .routeDependsOn, .serviceDependsOn,
    .replicaMemberOf, .sharesAuthorityWith, .controlledBy, .requiresCapabilityFrom, .reservationBoundTo, .leaseBoundTo,
    .registrationBoundTo]
  nonPropagatingKinds := [.sharesFailureDomainWith]

/-- the rule of one adjustment -/
def adjustedRule (a : RuleAdjustment) : FaultRule :=
  { baseRule with
    kind := a.kind
    preferredOutcome := if a.uncertainty = .observeOnly then .observe else a.preferred
    severity := a.severity
    propagation := a.propagation
    uncertainty := a.uncertainty
    isolateFailureDomain := a.isolateFailureDomain
    isolateIsolationDomain := a.isolateIsolationDomain
    coIsolateContainmentDomain := a.coIsolateContainmentDomain
    permitDegradedMode := a.permitDegradedMode
    mandatoryContainment := if a.uncertainty = .observeOnly then false else true
    allowProtectedResourceFencing := a.kind = .unknownFault }

/-- `make_default_policy` -/
def makeDefaultPolicy : ContainmentPolicy where
  generation := ⟨1⟩
  name := lit "fcf-default/v1"
  rules := kAdjustments.foldl (fun m a => m.emplace a.kind (adjustedRule a)) ∅
  fallback := { baseRule with
    kind := .unknownFault
    preferredOutcome := .escalateContainment
    severity := .critical
    allowProtectedResourceFencing := true }
  maxActionsPerContainment := 4096
  allowDegradedModeByDefault := true
  defaultMaxEvidenceAgeMs := 30000

/-! ## Validation -/

def policyError (message : String) (context : Text := []) : Error :=
  makeError .policyInvalid "policy.validate" message context

/-- the checks on one entry of the rule map -/
def validateRule (key : FaultKind) (rule : FaultRule) : Except Error Unit :=
  if key ≠ rule.kind then .error (policyError "rule map key does not match the rule's fault kind")
  else if rule.actionBudget = 0 then .error (policyError "action budget must be non-zero" (Coded.name rule.kind))
  else if rule.minRedundancy = 0 then .error (policyError "minimum redundancy must be non-zero" (Coded.name rule.kind))
  else if rule.mandatoryContainment ∧ rule.uncertainty = .observeOnly then
    .error (policyError "a mandatory rule may not run in OBSERVE_ONLY uncertainty mode" (Coded.name rule.kind))
  else if ¬ (sortedEnums rule.propagatingKinds ∧ sortedEnums rule.nonPropagatingKinds) then
    .error (policyError "dependency kind lists must be sorted and duplicate-free" (Coded.name rule.kind))
  else
    match rule.propagatingKinds.find? fun k => enumSetContains rule.nonPropagatingKinds k with
    | some k =>
      .error (policyError "dependency kind listed as both propagating and non-propagating" (Coded.name k))
    | none => .ok ()

/-- `validate_policy` -/
def validatePolicy (policy : ContainmentPolicy) : Except Error Unit := do
  policy.rules.toList.forM fun e => validateRule e.1 e.2
  if policy.maxActionsPerContainment = 0 then
    .error (policyError "max_actions_per_containment must be non-zero")
  else if policy.adminOverride.active ∧ policy.adminOverride.authority = [] then
    .error (policyError "an active administrative override requires a named authority")
  else .ok ()

end FaultContainment.Policy
