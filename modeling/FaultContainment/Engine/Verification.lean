/-
Verification of a containment and degraded-mode contracts.

`verify_containment` runs nine checks against the current state and settles the status of the containment and of its fault.
The degraded-mode operations narrow an assessment by a contract and store both.
-/
import FaultContainment.Engine.Dispatch

namespace FaultContainment.Engine

open FaultContainment.Lib FaultContainment.Ids FaultContainment.Enums FaultContainment.Records
open FaultContainment.DurableEvent FaultContainment.BlastRadius FaultContainment.Policy

/-! ## The checks -/

/-- a mandatory resource that is fenced and quarantined right now -/
def provenContained (s : RuntimeSnapshot) (id : ResourceId) : Bool :=
  (s.topology.resources.find id).any fun r => isContained r.state && r.quarantined

/-- no mandatory resource is bound to an incarnation with live authority -/
def authorityRevoked (s : RuntimeSnapshot) (record : ContainmentRecord) : Bool :=
  record.mandatory.all fun id =>
    match s.topology.resources.find id with
    | none => true
    | some r =>
      if r.ownerBoot.valid then
        !(s.workers.incarnations.find ⟨r.ownerWorker, r.ownerBoot⟩).any fun w => holdsLiveAuthority w.state
      else true

/-- a recorded propagation path that is still live -/
def hopContinues (s : RuntimeSnapshot) (kind : FaultKind) (hop : PropagationHop) : Bool :=
  if hop.outcome = .propagationImpossible ∨ hop.outcome = .propagationBlocked then false
  else
    match s.topology.resources.find hop.target with
    | none => false
    | some destination =>
      if resourceIsContained destination then false
      else (s.topology.dependencies.edges.find hop.dependency).any fun edge =>
        edge.freshness = .fresh && rulePropagatesOver (s.policy.ruleFor kind) edge.kind

/-- the radius recomputed for the containment's fault is larger than the committed one -/
def radiusIncreased (s : RuntimeSnapshot) (record : ContainmentRecord) : Bool :=
  match s.faults.find record.fault with
  | none => false
  | some fault =>
    match computeBlastRadius { topology := s.topology, policy := s.policy, fault := fault, epoch := s.epoch
                               generation := record.generation } with
    | .error _ => false
    | .ok radius => record.mandatory.length < radius.mandatory.length

/-- another current fault inside the contained set -/
def secondaryFailure (s : RuntimeSnapshot) (record : ContainmentRecord) : Bool :=
  s.faults.toList.any fun e =>
    e.1 ≠ record.fault && isFaultCurrent e.2.state && idSetContains record.mandatory e.2.evidence.subject &&
      record.committedAtMs.toNat ≤ e.2.firstSeenMs.toNat

/-- actions with a recorded result -/
def evidencedActions (s : RuntimeSnapshot) (record : ContainmentRecord) : ℕ :=
  (record.actions.filter fun id => (s.actions.find id).any fun a =>
    a.status = .resultRecorded || a.status = .verifiedEffective || a.status = .verifiedIneffective).length

/-- what the checks found -/
structure Checks where
  envelopeCurrent : Bool
  proven : IdSet .resourceId
  unproven : IdSet .resourceId
  propagationContinued : Bool
  degradedValid : Bool
  radiusIncreased : Bool
  secondaryFailure : Bool
  actionsEvidenced : Bool
  findings : List VerificationFinding

def finding (check : String) (passed : Bool) (detail : Text) : VerificationFinding :=
  { check := lit check, passed := passed, detail := detail }

/-- the checks, in the order they are recorded -/
def runChecks (s : RuntimeSnapshot) (record : ContainmentRecord) (nowMs : UInt64) : Checks :=
  let envelopeCurrent := record.epoch = s.epoch && record.policyGeneration = s.policyGeneration
  let proven := record.mandatory.filter (provenContained s)
  let kind := match s.faults.find record.fault with | some f => f.evidence.kind | none => .unknownFault
  let propagationContinued := record.propagation.any (hopContinues s kind)
  let assessment := assessDegradedMode s none {} nowMs
  let degradedValid := degradedSetsAreDisjoint assessment &&
    record.mandatory.all fun id => !idSetContains assessment.permitted id
  let active := (record.unaffected.filter fun id =>
    (s.topology.resources.find id).any fun r => isOperable r.state).length
  let increased := radiusIncreased s record
  let secondary := secondaryFailure s record
  let evidenced := evidencedActions s record
  let actionsEvidenced := record.actions = [] || evidenced = record.actions.length
  { envelopeCurrent := envelopeCurrent
    proven := proven
    unproven := record.mandatory.filter fun id => !provenContained s id
    propagationContinued := propagationContinued
    degradedValid := degradedValid
    radiusIncreased := increased
    secondaryFailure := secondary
    actionsEvidenced := actionsEvidenced
    findings := [
      finding "authority_envelope_current" envelopeCurrent
        (lit "containment committed at epoch " ++ record.epoch.text ++ lit " policy " ++ record.policyGeneration.text ++
          lit "; current epoch " ++ s.epoch.text ++ lit " policy " ++ s.policyGeneration.text),
      finding "mandatory_resources_contained" (proven.length = record.mandatory.length)
        (decimal proven.length ++ lit " of " ++ decimal record.mandatory.length ++
          lit " mandatory resources are fenced and quarantined"),
      finding "failed_authority_cannot_authorise_new_work" (authorityRevoked s record)
        (lit "no contained resource is bound to an incarnation that still holds live authority"),
      finding "propagation_paths_severed" (!propagationContinued)
        (lit (if propagationContinued then "a recorded propagation path is still live"
          else "every recorded propagation path is severed or blocked")),
      finding "degraded_mode_excludes_quarantined" degradedValid
        (lit "permitted and prohibited degraded-mode sets are disjoint and exclude contained resources"),
      finding "unaffected_resources_remain_operational" (record.unaffected = [] || 0 < active)
        (decimal active ++ lit " of " ++ decimal record.unaffected.length ++
          lit " explicitly unaffected resources remain operable"),
      finding "blast_radius_did_not_increase" (!increased)
        (lit (if increased then "the recomputed radius is larger than the committed one"
          else "the recomputed radius is not larger")),
      finding "no_secondary_failure_inside_the_radius" (!secondary)
        (lit (if secondary then "a new current fault appeared inside the contained set"
          else "no new current fault appeared inside the contained set")),
      finding "actions_have_post_action_evidence" actionsEvidenced
        (decimal evidenced ++ lit " of " ++ decimal record.actions.length ++ lit " actions have a recorded result")] }

/-- the outcome the checks add up to over that many mandatory resources, with its summary -/
def concludeChecks (mandatory : ℕ) (c : Checks) : VerificationOutcome × Text :=
  if !c.envelopeCurrent then
    (.outcomeUnknown, lit "the containment was committed under a superseded authority envelope")
  else if c.secondaryFailure then
    (.secondaryFailureCreated, lit "a secondary failure appeared inside the contained set")
  else if !c.degradedValid then
    (.degradedModeInvalid, lit "the degraded-mode envelope is not valid for this containment")
  else if c.propagationContinued then (.containmentBreached, lit "a recorded propagation path is still live")
  else if !c.actionsEvidenced then
    (.outcomeUnknown, lit "actions are dispatched without fresh post-action evidence")
  else if c.proven.length = mandatory then
    (.contained, lit "every mandatory resource is fenced, quarantined and evidenced")
  else if c.proven.length = 0 then (.notContained, lit "no mandatory resource is currently fenced")
  else (.partiallyContained, lit "only part of the mandatory set is currently fenced")

/-! ## Verification -/

/-- the verification record of one run of the checks -/
def verificationOf (s : RuntimeSnapshot) (record : ContainmentRecord) (generation : ContainmentGeneration)
    (nowMs : UInt64) : ContainmentVerification :=
  let c := runChecks s record nowMs
  let conclusion := concludeChecks record.mandatory.length c
  { generation := nextGeneration s.verificationGeneration
    containmentGeneration := generation
    epoch := s.epoch
    policyGeneration := s.policyGeneration
    topologyGeneration := s.topologyGeneration
    outcome := conclusion.1
    findings := c.findings
    provenContained := c.proven
    unproven := c.unproven
    blastRadiusIncreased := c.radiusIncreased
    secondaryFailure := c.secondaryFailure
    propagationBlocked := !c.propagationContinued
    propagationContinued := c.propagationContinued
    degradedModeValid := c.degradedValid
    evidenceSequence := match s.topology.resources.vals.getLast? with
      | some r => r.evidenceSequence
      | none => {}
    verifiedAtMs := nowMs
    summary := conclusion.2 }

/-- the status of a containment after a verification -/
def statusAfter : VerificationOutcome → ContainmentStatus
  | .contained => .verifiedContained
  | .partiallyContained => .partialStatus
  | .notContained | .containmentBreached | .secondaryFailureCreated => .failed
  | _ => .enforcing

/-- the state a verification asks of the fault -/
def faultTarget : VerificationOutcome → FaultState
  | .partiallyContained => .containmentPartial
  | .notContained | .containmentBreached | .secondaryFailureCreated => .containmentFailed
  | .outcomeUnknown => .revalidationRequired
  | _ => .contained

/-- the fault after a verification, when the transition is legal -/
def settleFault (time : UInt64) (v : ContainmentVerification) (f : FaultRecord) : Option FaultRecord :=
  if isLegalFaultTransition f.state (faultTarget v.outcome) then
    some { f with
      state := faultTarget v.outcome, verificationGeneration := v.generation, lastUpdatedMs := time }
  else none

/-- stores a changed fault and stages it -/
def stageFault (id : FaultId) (f : Option FaultRecord) (i : Impl) : Impl × List Event :=
  match f with
  | none => (i, [])
  | some f => (i.withFaults (i.state.faults.insert id f), [⟨.faultUpsert, f, none⟩])

/-- the checks of `verify_containment`; the containment to verify -/
def admitVerify (generation : ContainmentGeneration) (i : Impl) : Except Error ContainmentRecord :=
  match i.state.containments.find generation with
  | none => .error (makeError .unknownContainment "containment.verify" "containment not found" generation.text)
  | some record =>
    if ¬ containmentIsLive record.status then
      .error (makeError .staleContainmentGeneration "containment.verify" "containment is no longer live"
        (Coded.name record.status))
    else .ok record

/-- the containment record after a verification -/
def withVerification (time : UInt64) (v : ContainmentVerification) (record : ContainmentRecord) : ContainmentRecord :=
  { record with
    verified := true, verification := v, verificationGeneration := v.generation, verificationOutcome := v.outcome
    updatedAtMs := time, status := statusAfter v.outcome }

/-- `verify_containment` -/
def verifyContainment (clk : Clock) (generation : ContainmentGeneration) (i : Impl) : Step ContainmentVerification :=
  match admitVerify generation i with
  | .error e => .refuse i e
  | .ok record =>
    let v := verificationOf i.state record generation (clk 0)
    let stored := withVerification (clk 0) v record
    let i := i.withContainments (i.state.containments.insert generation stored)
    let i := { i with state := { i.state with verificationGeneration := v.generation } }
    let (i, settled) := stageFault record.fault ((i.state.faults.find record.fault).bind (settleFault (clk 0) v)) i
    commit i (clk 1)
      { type := .containmentVerified
        detail := lit "containment " ++ generation.text ++ lit " verification outcome " ++ Coded.name v.outcome ++
          lit ": " ++ v.summary
        authority := lit "VerificationGeneration " ++ v.generation.text
        resource := stored.mandatory.headD {}, fault := stored.fault, containment := generation
        verification := v.generation }
      settled (⟨.containmentUpsert, stored, ·⟩) [] v

/-! ## Degraded-mode contracts -/

/-- a resource the contract lets the assessment permit -/
def allowedBy (contract : DegradedModeContract) (t : Topology) (id : ResourceId) : Bool :=
  (contract.permittedResources = [] || idSetContains contract.permittedResources id) &&
    (contract.legalWorkloadClasses = [] ||
      match t.resources.find id with
      | some r => enumSetContains contract.legalWorkloadClasses r.resourceClass
      | none => true)

/-- the allow-list and the workload classes: what they do not allow moves to the prohibited set -/
def restrict (contract : DegradedModeContract) (t : Topology) (a : DegradedModeAssessment) : DegradedModeAssessment :=
  { a with
    permitted := a.permitted.filter (allowedBy contract t)
    prohibited := (a.permitted.filter fun id => !allowedBy contract t id).foldl idSetInsert a.prohibited }

/-- the capacity and redundancy the contract leaves -/
def capAt (contract : DegradedModeContract) (total : ℕ) (a : DegradedModeAssessment) : DegradedModeAssessment :=
  let available := capacityPercent a.permitted total
  { a with
    availableCapacityPercent :=
      if contract.reducedCapacityPercent < available then contract.reducedCapacityPercent else available
    requiredRedundancy := contract.requiredRedundancy }

/-- the checks of `authorize_degraded_mode` -/
def admitContract (contract : DegradedModeContract) (i : Impl) : Except Error Unit :=
  match contract.prohibitedResources.find? fun r => idSetContains contract.permittedResources r with
  | some r =>
    .error (makeError .degradedModeForbidden "degraded.authorize"
      "the contract lists a resource as both permitted and prohibited" r.text)
  | none =>
    match contract.prohibitedResources.find? fun r => !i.state.topology.resources.has r with
    | some r =>
      .error (makeError .unknownResource "degraded.authorize" "contract references an unknown prohibited resource"
        r.text)
    | none =>
      match contract.permittedResources.find? fun r => !i.state.topology.resources.has r with
      | some r =>
        .error (makeError .unknownResource "degraded.authorize" "contract references an unknown permitted resource"
          r.text)
      | none => .ok ()

/-- the prohibited list of a new contract: nothing on it waits for revalidation either -/
def prohibitListed (contract : DegradedModeContract) (a : DegradedModeAssessment) : DegradedModeAssessment :=
  contract.prohibitedResources.foldl (fun a r => { a with
    permitted := idSetErase a.permitted r
    revalidationRequired := idSetErase a.revalidationRequired r
    prohibited := idSetInsert a.prohibited r }) a

/-- the prohibited list of a revalidated contract -/
def prohibitAgain (contract : DegradedModeContract) (a : DegradedModeAssessment) : DegradedModeAssessment :=
  contract.prohibitedResources.foldl (fun a r => { a with
    permitted := idSetErase a.permitted r
    prohibited := idSetInsert a.prohibited r }) a

/-- the last word on a new contract -/
def judgeContract (contract : DegradedModeContract) (a : DegradedModeAssessment) : DegradedModeAssessment :=
  if ¬ degradedSetsAreDisjoint a then
    { a with status := .degradedUnsafe, authorized := false
             reasons := a.reasons ++ [lit "contract restrictions produced overlapping sets"] }
  else if a.status = .degradedAuthorized ∧ a.availableRedundancy < contract.requiredRedundancy then
    { a with status := .noLegalDegradedMode, authorized := false
             reasons := a.reasons ++ [lit "the contract requires redundancy that is not available"] }
  else a

/-- stores a contract with its assessment -/
def storeDegraded (contractKey : DegradedModeId) (contract : DegradedModeContract) (a : DegradedModeAssessment)
    (assessmentKey : DegradedModeId) (i : Impl) : Impl :=
  { i with state := { i.state with
    degradedContracts := i.state.degradedContracts.insert contractKey contract
    degradedModes := i.state.degradedModes.insert assessmentKey a } }

/-- `authorize_degraded_mode` -/
def authorizeDegradedMode (clk : Clock) (contract : DegradedModeContract) (i : Impl) : Step DegradedModeAssessment :=
  match admitContract contract i with
  | .error e => .refuse i e
  | .ok () =>
    let id := if contract.id.valid then contract.id else ⟨i.nextDegraded⟩
    let i := if contract.id.valid then i else { i with nextDegraded := i.nextDegraded + 1 }
    let contract := { contract with
      id := id, topologyGeneration := i.state.topologyGeneration
      containmentGeneration := i.state.containmentGeneration }
    let a := assessDegradedMode i.state (some contract) contract.id (clk 0)
    let a := prohibitListed contract (restrict contract i.state.topology a)
    let a := judgeContract contract (capAt contract i.state.topology.resources.size a)
    let i := storeDegraded contract.id contract a a.contract i
    commit i (clk 1)
      { type := .degradedAuthorized
        detail := lit "degraded mode " ++ contract.id.text ++ lit " assessed " ++ Coded.name a.status ++
          lit ": permitted=" ++ decimal a.permitted.length ++ lit " prohibited=" ++ decimal a.prohibited.length ++
          lit " revalidation=" ++ decimal a.revalidationRequired.length
        authority := lit "CoordinatorEpoch " ++ i.state.epoch.text ++ lit "; ContainmentGeneration " ++
          i.state.containmentGeneration.text }
      [] (⟨.degradedUpsert, (contract, a), ·⟩) [] a

/-- `revalidate_degraded_mode` -/
def revalidateDegradedMode (clk : Clock) (id : DegradedModeId) (i : Impl) : Step DegradedModeAssessment :=
  match i.state.degradedContracts.find id with
  | none => .refuse i (makeError .notFound "degraded.revalidate" "degraded mode not found" id.text)
  | some contract =>
    let a := assessDegradedMode i.state (some contract) id (clk 0)
    let a := prohibitAgain contract (restrict contract i.state.topology a)
    let a := capAt contract i.state.topology.resources.size a
    let a := if degradedSetsAreDisjoint a then a else { a with status := .degradedUnsafe, authorized := false }
    let a := { a with topologyGeneration := i.state.topologyGeneration, epoch := i.state.epoch }
    let i := storeDegraded id contract a id i
    commit i (clk 1)
      { type := .degradedRevalidated
        detail := lit "degraded mode " ++ id.text ++ lit " revalidated as " ++ Coded.name a.status
        authority := i.topologyAuthority }
      [] (⟨.degradedUpsert, (contract, a), ·⟩) [] a

end FaultContainment.Engine
