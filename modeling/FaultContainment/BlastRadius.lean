/-
The blast radius of a fault (`compute_blast_radius`).

The mandatory set starts from the subject and everything bound to it by authority or by a shared domain, grows along
dependency edges to a fixpoint, and is widened where evidence is unresolved or exposure exceeds the rule. The classification
of each resource records why it is where it is; the four buckets are read off the classifications in identity order.

- `mandatory_sorted`: the mandatory bucket is strictly increasing.
- `mandatory_registered`: over a topology whose records sit under their own identities, every mandatory resource is
  registered.
-/
import FaultContainment.Dependency
import FaultContainment.Policy
import FaultContainment.Explanation

namespace FaultContainment.BlastRadius

open FaultContainment.Lib FaultContainment.Ids FaultContainment.Enums FaultContainment.Records
open FaultContainment.Policy FaultContainment.Explanation

/-- `resource_is_contained` -/
def resourceIsContained (r : ResourceRecord) : Bool := isContained r.state || r.quarantined

/-- `resource_label` -/
def resourceLabel (topology : Topology) (id : ResourceId) : Text :=
  match topology.resources.find id with
  | none => id.text
  | some r => if r.name = [] then id.text else id.text ++ lit " (" ++ r.name ++ lit ")"

/-! ## The accumulator -/

abbrev Classifications := OrderedMap ResourceId ClassifiedResource

/-- the entry for a resource, default-constructed when missing, with identity and generation written -/
def entryOf (acc : Classifications) (id : ResourceId) (generation : ResourceGeneration) : ClassifiedResource :=
  { (acc.find id).getD {} with resource := id, generation := generation }

/-- `Accumulator::include` -/
def includeIn (acc : Classifications) (id : ResourceId) (generation : ResourceGeneration) (reason : InclusionReason)
    (detail : Text) : Classifications :=
  let e := entryOf acc id generation
  acc.insert id (if e.hasInclusion then e else { e with hasInclusion := true, inclusion := reason, detail := detail })

/-- `Accumulator::exclude`: inclusion dominates -/
def excludeFrom (acc : Classifications) (id : ResourceId) (generation : ResourceGeneration) (reason : ExclusionReason)
    (detail : Text) : Classifications :=
  let e := entryOf acc id generation
  acc.insert id (if e.hasInclusion then e
    else if e.hasExclusion then e else { e with hasExclusion := true, exclusion := reason, detail := detail })

/-- `Accumulator::mark_unresolved` -/
def markUnresolved (acc : Classifications) (id : ResourceId) (generation : ResourceGeneration)
    (reason : UnresolvedReason) (detail : Text) : Classifications :=
  let e := entryOf acc id generation
  acc.insert id (if e.hasInclusion || e.hasExclusion then e
    else if e.hasUnresolved then e else { e with hasUnresolved := true, unresolved := reason, detail := detail })

/-- `add_action` -/
def addAction (list : List ContainmentActionKind) (kind : ContainmentActionKind) : List ContainmentActionKind :=
  if kind ∈ list then list else list ++ [kind]

/-! ## Structural inclusions -/

/-- includes the registered members of a group -/
def includeMembers (topology : Topology) (members : IdSet .resourceId) (reason : InclusionReason) (detail : Text)
    (acc : Classifications) : Classifications :=
  members.foldl (fun acc m =>
    match topology.resources.find m with
    | none => acc
    | some r => includeIn acc m r.generation reason detail) acc

/-- kinds whose subject drags along what shares its authority -/
def sharesAuthority (kind : FaultKind) : Bool :=
  kind = .processDeath || kind = .processUnresponsive || kind = .workerAuthorityLost || kind = .staleAuthority

/-- includes every resource bound to the subject's owner -/
def includeAuthority (topology : Topology) (kind : FaultKind) (subject : ResourceRecord) (acc : Classifications) :
    Classifications :=
  if sharesAuthority kind then
    if subject.ownerBoot.valid then
      topology.resources.vals.foldl (fun acc c =>
        if c.ownerBoot = subject.ownerBoot then
          includeIn acc c.id c.generation .sharedAuthority (lit "live authority bound to " ++ c.ownerBoot.text)
        else acc) acc
    else if subject.ownerWorker.valid then
      topology.resources.vals.foldl (fun acc c =>
        if c.ownerWorker = subject.ownerWorker then
          includeIn acc c.id c.generation .sharedAuthority (lit "authority derived from " ++ c.ownerWorker.text)
        else acc) acc
    else acc
  else acc

/-- members of the subject's isolation domain -/
def isolationMembers (topology : Topology) (subject : ResourceRecord) : IdSet .resourceId :=
  if subject.isolationDomain.valid then
    match topology.isolationDomains.find subject.isolationDomain with
    | some d => d.members
    | none => []
  else []

/-- members of the subject's failure domain -/
def failureMembers (topology : Topology) (subject : ResourceRecord) : IdSet .resourceId :=
  if subject.failureDomain.valid then
    match topology.failureDomains.find subject.failureDomain with
    | some d => d.members
    | none => []
  else []

/-- members of the subject's containment domain, when the domain refuses separation -/
def coIsolatedMembers (topology : Topology) (subject : ResourceRecord) : IdSet .resourceId :=
  if subject.containmentDomain.valid then
    match topology.containmentDomains.find subject.containmentDomain with
    | some d => if d.coIsolateMembers then d.members else []
    | none => []
  else []

/-- the mandatory inclusions from structural co-membership -/
def structuralInclusions (topology : Topology) (rule : FaultRule) (kind : FaultKind) (subject : ResourceRecord) :
    Classifications :=
  let acc := includeIn ∅ subject.id subject.generation .faultSubject (lit "subject of " ++ Coded.name kind)
  let acc := includeAuthority topology kind subject acc
  let acc := if rule.isolateIsolationDomain then
      includeMembers topology (isolationMembers topology subject) .sharedIsolationDomain
        (lit "inseparable in isolation domain " ++ subject.isolationDomain.text) acc
    else acc
  let acc := if rule.isolateFailureDomain then
      includeMembers topology (failureMembers topology subject) .sharedFailureDomain
        (lit "correlated failure domain " ++ subject.failureDomain.text) acc
    else acc
  if rule.coIsolateContainmentDomain then
    includeMembers topology (coIsolatedMembers topology subject) .domainCoIsolation
      (lit "containment domain " ++ subject.containmentDomain.text ++ lit " refuses separation") acc
  else acc

/-! ## The propagation fixpoint -/

/-- `classify_propagation` -/
def classifyPropagation (rule : FaultRule) (edge : DependencyEdge)
    (destinationContained destinationAlreadyMandatory : Bool) : PropagationOutcome :=
  if edge.source = edge.destination then .propagationImpossible
  else if !rulePropagatesOver rule edge.kind then .propagationImpossible
  else if destinationContained then .propagationBlocked
  else if !(edge.freshness = .fresh && edge.integrity = .verified) then .propagationUnknown
  else if rule.propagation = .none then .propagationImpossible
  else
    let conditional := edge.conditional || rule.propagation = .conditional
    let confident := rule.likelyConfidencePermille.toNat ≤ edge.confidencePermille.toNat
    if conditional then if confident then .propagationLikely else .propagationPossible
    else if destinationAlreadyMandatory then .propagationConfirmed
    else if confident then .propagationLikely else .propagationPossible

/-- the state of the traversal -/
structure Walk where
  acc : Classifications
  mandatorySet : IdSet .resourceId
  visited : IdSet .resourceId := []
  frontier : IdSet .resourceId
  precautionarySet : List ResourceId := []
  edgeOutcomes : OrderedMap DependencyId PropagationOutcome := ∅
  propagation : List PropagationHop := []

/-- one edge out of `current` -/
def visitEdge (topology : Topology) (rule : FaultRule) (current : ResourceId) (w : Walk) (edgeId : DependencyId) :
    Walk :=
  match topology.dependencies.edges.find edgeId with
  | none => w
  | some edge =>
    match topology.resources.find edge.destination with
    | none =>
      { w with
        edgeOutcomes := w.edgeOutcomes.insert edgeId .propagationUnknown
        acc := markUnresolved w.acc current (((topology.resources.find current).getD {}).generation) .topologyUnknown
          (lit "dependency " ++ edgeId.text ++ lit " targets an unknown resource") }
    | some destination =>
      let outcome := classifyPropagation rule edge (resourceIsContained destination)
        (idSetContains w.mandatorySet destination.id)
      let w := { w with edgeOutcomes := w.edgeOutcomes.insert edgeId outcome }
      let hop : PropagationHop :=
        { source := current, target := destination.id, dependency := edgeId, kind := edge.kind, outcome := outcome }
      match outcome with
      | .propagationConfirmed | .propagationLikely | .propagationPossible =>
        if edge.conditional || rule.propagation = .conditional then
          { w with
            precautionarySet := if destination.id ∈ w.precautionarySet then w.precautionarySet
              else w.precautionarySet ++ [destination.id]
            propagation := w.propagation ++ [{ hop with reason := .propagationConditionalEdge }] }
        else
          { w with
            propagation := w.propagation ++ [{ hop with reason := .propagationHardEdge }]
            mandatorySet := idSetInsert w.mandatorySet destination.id
            frontier := if idSetContains w.mandatorySet destination.id then w.frontier
              else idSetInsert w.frontier destination.id
            acc := includeIn w.acc destination.id destination.generation .propagationHardEdge
              (lit "propagation from " ++ current.text ++ lit " over " ++ Coded.name edge.kind) }
      | .propagationUnknown =>
        { w with
          propagation := w.propagation ++ [{ hop with reason := .propagationHardEdge }]
          acc := markUnresolved w.acc destination.id destination.generation .dependencyFreshnessUnknown
            (lit "dependency " ++ edgeId.text ++ lit " freshness " ++ Coded.name edge.freshness) }
      | _ => w

/-- the loop; a resource enters the frontier at most once, so the fuel bounds the number of resources -/
def walk (topology : Topology) (rule : FaultRule) : ℕ → Walk → Walk
  | 0, w => w
  | fuel + 1, w =>
    match w.frontier with
    | [] => w
    | current :: frontier =>
      let w := { w with frontier := frontier }
      if idSetContains w.visited current then walk topology rule fuel w
      else
        let w := { w with visited := idSetInsert w.visited current }
        walk topology rule fuel
          (((topology.dependencies.outgoing.find current).getD []).foldl (visitEdge topology rule current) w)

/-- identities with an inclusion, in order -/
def includedIds (acc : Classifications) : IdSet .resourceId :=
  (acc.toList.filter fun e => e.2.hasInclusion).map Prod.fst

/-- the fixpoint from the structural inclusions -/
def propagate (topology : Topology) (rule : FaultRule) (acc : Classifications) : Walk :=
  walk topology rule (2 * topology.resources.size + 1)
    { acc := acc, mandatorySet := includedIds acc, frontier := includedIds acc }

/-! ## Unresolved evidence and exposure -/

/-- `note_unresolved_member` -/
def noteUnresolvedMembers (topology : Topology) (mandatorySet members : IdSet .resourceId) (reason : UnresolvedReason)
    (detail : Text) (acc : Classifications) : Classifications :=
  members.foldl (fun acc m =>
    match topology.resources.find m with
    | none => acc
    | some r =>
      if idSetContains mandatorySet m then acc
      else if r.freshness ≠ .fresh then markUnresolved acc m r.generation reason detail else acc) acc

/-- unresolved evidence inside the correlated groups -/
def noteUnresolved (topology : Topology) (subject : ResourceRecord) (w : Walk) : Walk :=
  let acc := if subject.isolationDomain.valid then
      noteUnresolvedMembers topology w.mandatorySet (isolationMembers topology subject) .evidenceStale
        (lit "isolation domain member without fresh evidence") w.acc
    else markUnresolved w.acc subject.id subject.generation .topologyUnknown (lit "subject has no isolation domain")
  let acc := noteUnresolvedMembers topology w.mandatorySet (failureMembers topology subject) .evidenceMissing
    (lit "correlated failure domain member without fresh evidence") acc
  { w with acc := acc }

/-- what the escalation loops work on, and the flags of the radius they set -/
structure Escalation where
  acc : Classifications
  mandatorySet : IdSet .resourceId
  precautionarySet : List ResourceId
  uncertaintyEscalated : Bool := false
  failClosedApplied : Bool := false

/-- one unresolved resource made mandatory -/
def containUnresolved (topology : Topology) (e : Escalation) (id : ResourceId) : Escalation :=
  match topology.resources.find id with
  | none => e
  | some r =>
    let acc := includeIn e.acc id r.generation .unknownEvidenceFailClosed
      (lit "unresolved evidence cannot be proven safe")
    { e with
      acc := acc.subscript id fun c => { c with hasUnresolved := false }
      mandatorySet := idSetInsert e.mandatorySet id }

/-- one unresolved resource made precautionary -/
def boundUnresolved (topology : Topology) (e : Escalation) (id : ResourceId) : Escalation :=
  match topology.resources.find id with
  | none => e
  | some _ =>
    { e with
      precautionarySet := if id ∈ e.precautionarySet then e.precautionarySet else e.precautionarySet ++ [id]
      acc := e.acc.subscript id fun c =>
        { c with hasUnresolved := false, detail := lit "bounded exposure under unresolved evidence" } }

/-- fail-closed escalation for unresolved evidence -/
def escalateUnresolved (topology : Topology) (rule : FaultRule) (w : Walk) : Escalation :=
  let e : Escalation := { acc := w.acc, mandatorySet := w.mandatorySet, precautionarySet := w.precautionarySet }
  let unresolvedIds := (w.acc.toList.filter fun c => c.2.hasUnresolved).map Prod.fst
  if unresolvedIds ≠ [] ∧ rule.failClosedOnUnknownEvidence then
    match rule.uncertainty with
    | .containPreemptively =>
      unresolvedIds.foldl (containUnresolved topology) { e with uncertaintyEscalated := true, failClosedApplied := true }
    | .boundedExposure => unresolvedIds.foldl (boundUnresolved topology) { e with uncertaintyEscalated := true }
    | .observeOnly => e
  else e

/-- one member of an over-exposed group made mandatory -/
def widenMember (topology : Topology) (e : Escalation) (m : ResourceId) : Escalation :=
  match topology.resources.find m with
  | none => e
  | some r =>
    if idSetContains e.mandatorySet m then e
    else { e with
      mandatorySet := idSetInsert e.mandatorySet m
      acc := includeIn e.acc m r.generation .mandatoryCoIsolationRule
        (lit "exposure inside the correlated group exceeds the tolerated maximum") }

/-- the exposure constraint: the radius is widened rather than excess exposure tolerated -/
def widenExposure (topology : Topology) (rule : FaultRule) (subject : ResourceRecord) (e : Escalation) : Escalation :=
  let members := isolationMembers topology subject
  let active := (members.filter fun m => !idSetContains e.mandatorySet m).length
  if rule.maxToleratedExposure.toNat < active then
    { members.foldl (widenMember topology) e with failClosedApplied := true }
  else e

/-! ## Buckets -/

/-- the proof recorded for a resource outside the radius -/
def unaffectedDetail (subject candidate : ResourceRecord) : Text :=
  lit "no propagation path from the contained set" ++
    (if candidate.isolationDomain.valid ∧ candidate.isolationDomain ≠ subject.isolationDomain then
      lit "; separate isolation domain " ++ candidate.isolationDomain.text else []) ++
    (if candidate.failureDomain.valid ∧ candidate.failureDomain ≠ subject.failureDomain then
      lit "; separate failure domain " ++ candidate.failureDomain.text else []) ++
    (if candidate.ownerBoot.valid ∧ candidate.ownerBoot ≠ subject.ownerBoot then
      lit "; independent fresh authority " ++ candidate.ownerBoot.text else [])

/-- one resource the traversal did not reach; the lookup of its classification creates a missing one -/
def classifyRest (subject : ResourceRecord) (mandatorySet : IdSet .resourceId) (precautionarySet : List ResourceId)
    (acc : Classifications) (candidate : ResourceRecord) : Classifications :=
  if idSetContains mandatorySet candidate.id then acc
  else if candidate.id ∈ precautionarySet then acc
  else
    let acc := acc.subscript candidate.id fun c => c
    if ((acc.find candidate.id).getD {}).hasUnresolved then acc
    else if candidate.freshness ≠ .fresh then
      markUnresolved acc candidate.id candidate.generation .evidenceStale
        (lit "resource evidence is " ++ Coded.name candidate.freshness)
    else
      excludeFrom acc candidate.id candidate.generation .noProvenPropagationPath (unaffectedDetail subject candidate)

/-- a precautionary resource's final classification -/
def markPrecautionary (acc : Classifications) (id : ResourceId) : Classifications :=
  acc.subscript id fun c =>
    if c.hasInclusion then { c with hasUnresolved := false }
    else { c with hasUnresolved := false, hasExclusion := true, exclusion := .conditionalOnlyInclusion,
                  detail := lit "conditional propagation path only" }

/-! ## Actions -/

/-- what the mandatory resources are, as far as the choice of actions goes -/
structure MandatoryFacts where
  hasWorkerBound : Bool := false
  hasAttempt : Bool := false
  hasDevice : Bool := false
  distinctDomains : ℕ := 0
  lastDomain : ContainmentDomainId := {}

def noteMandatory (topology : Topology) (f : MandatoryFacts) (id : ResourceId) : MandatoryFacts :=
  match topology.resources.find id with
  | none => f
  | some r =>
    { hasWorkerBound := f.hasWorkerBound || (r.ownerBoot.valid &&
        (r.resourceClass = .worker || r.resourceClass = .process || r.resourceClass = .execution))
      hasAttempt := f.hasAttempt || r.resourceClass = .attempt
      hasDevice := f.hasDevice || (r.resourceClass = .device || r.resourceClass = .accelerator)
      distinctDomains := if r.containmentDomain.valid ∧ r.containmentDomain ≠ f.lastDomain then f.distinctDomains + 1
        else f.distinctDomains
      lastDomain := if r.containmentDomain.valid ∧ r.containmentDomain ≠ f.lastDomain then r.containmentDomain
        else f.lastDomain }

/-- a mandatory resource that the rule may not fence -/
def isProtectedBlocked (topology : Topology) (rule : FaultRule) (id : ResourceId) : Bool :=
  match topology.resources.find id with
  | none => false
  | some r => r.protection ≠ .standard && !rule.allowProtectedResourceFencing

/-- the reason of an already included resource stays; only its entry is refreshed -/
def noteProtected (topology : Topology) (rule : FaultRule) (acc : Classifications) (id : ResourceId) :
    Classifications :=
  if isProtectedBlocked topology rule id then
    includeIn acc id (((topology.resources.find id).getD {}).generation) .actionRequiredByPolicy
      (lit "protected resource: containment requires escalation authority")
  else acc

/-- legal and illegal actions, the recommendation, and whether the hard constraints still hold -/
structure ActionChoice where
  legal : List ContainmentActionKind := []
  illegal : List ContainmentActionKind := []
  recommended : ContainmentActionKind := .noActionRequired
  hardConstraintsSatisfied : Bool

def chooseActions (topology : Topology) (rule : FaultRule) (radius : Records.BlastRadius) : ActionChoice :=
  let protectedBlocked := radius.mandatory.any (isProtectedBlocked topology rule)
  let choice : ActionChoice :=
    if radius.mandatory = [] ∧ radius.precautionary = [] ∧ radius.unresolved = [] then
      { legal := [.noActionRequired, .observe], recommended := .noActionRequired,
        hardConstraintsSatisfied := radius.hardConstraintsSatisfied }
    else if radius.mandatory = [] ∧ rule.uncertainty = .observeOnly then
      { legal := [.observe], recommended := .observe, hardConstraintsSatisfied := radius.hardConstraintsSatisfied }
    else
      let f := radius.mandatory.foldl (noteMandatory topology) {}
      let legal : List ContainmentActionKind :=
        [.quarantineResource, .fenceResourceSet, .revokeAuthority, .disableAdmission, .requireRevalidation]
      let legal := if f.hasWorkerBound then addAction (addAction legal .fenceWorker) .fenceProcess else legal
      let legal := if f.hasAttempt then addAction legal .fenceAttempt else legal
      let legal := if f.hasDevice then addAction legal .fenceDevice else legal
      let legal := if radius.unresolved ≠ [] ∧ rule.uncertainty ≠ .observeOnly then addAction legal .escalateContainment
        else legal
      let recommended := if rule.preferredOutcome ∈ legal then rule.preferredOutcome else .quarantineResource
      if protectedBlocked then
        { legal := addAction (addAction legal .escalateContainment) .fullDomainIsolation
          illegal := [.fenceProcess, .fenceWorker, .fenceDevice]
          recommended := .escalateContainment
          hardConstraintsSatisfied := false }
      else
        { legal := legal, illegal := if 1 < f.distinctDomains then [.fullDomainIsolation] else []
          recommended := recommended, hardConstraintsSatisfied := radius.hardConstraintsSatisfied }
  if radius.budgetExhausted then { choice with illegal := addAction choice.illegal .fullDomainIsolation } else choice

/-! ## The explanation -/

/-- `text`, and the detail behind a dash when there is one -/
def dashed (text detail : Text) : Text := text ++ if detail = [] then [] else lit " -- " ++ detail

def explainRadius (topology : Topology) (rule : FaultRule) (fault : FaultRecord) (acc : Classifications)
    (radius : Records.BlastRadius) : ContainmentExplanation :=
  let classified := fun id => (acc.find id).getD {}
  finalize (
    [line "AUTHORITY" (lit "epoch") (lit "CoordinatorEpoch " ++ radius.epoch.text),
     line "AUTHORITY" (lit "fault_generation") (lit "FaultGeneration " ++ radius.faultGeneration.text),
     line "AUTHORITY" (lit "policy_generation") (lit "PolicyGeneration " ++ radius.policyGeneration.text),
     line "AUTHORITY" (lit "topology_generation") (lit "TopologyGeneration " ++ radius.topologyGeneration.text),
     line "AUTHORITY" (lit "containment_generation") (lit "ContainmentGeneration " ++ radius.generation.text),
     line "FAULT" (lit "kind") (Coded.name fault.evidence.kind ++ lit " on " ++
       resourceLabel topology fault.evidence.subject),
     line "FAULT" (lit "state") (lit "fault state " ++ Coded.name fault.state),
     line "FAULT" (lit "severity") (lit "severity " ++ Coded.name rule.severity),
     line "FAULT" (lit "uncertainty") (lit "uncertainty behaviour " ++ Coded.name rule.uncertainty)] ++
    radius.mandatory.map (fun id => line "MANDATORY" id.text
      (dashed (resourceLabel topology id ++ lit " -- " ++ Coded.name (classified id).inclusion) (classified id).detail)) ++
    radius.precautionary.map (fun id => line "PRECAUTIONARY" id.text
      (resourceLabel topology id ++ lit " -- conditional propagation")) ++
    radius.unaffected.map (fun id => line "UNAFFECTED" id.text
      (dashed (resourceLabel topology id ++ lit " -- " ++ Coded.name (classified id).exclusion) (classified id).detail)) ++
    radius.unresolved.map (fun id => line "UNKNOWN" id.text
      (dashed (resourceLabel topology id ++ lit " -- " ++ Coded.name (classified id).unresolved)
        (classified id).detail)) ++
    radius.illegalActions.map (fun kind => line "REJECTED" (Coded.name kind)
      (Coded.name kind ++ lit " -- broader than the computed radius or blocked by protected resource policy")) ++
    [line "VERIFICATION" (lit "status") (lit "no post-action evidence yet; ACKNOWLEDGED is not CONTAINED")])

/-! ## The radius -/

/-- `BlastRadiusInput` -/
structure BlastRadiusInput where
  topology : Topology
  policy : ContainmentPolicy
  fault : FaultRecord
  epoch : CoordinatorEpoch
  generation : ContainmentGeneration

/-- everything up to the buckets, for a known subject -/
def escalate (topology : Topology) (rule : FaultRule) (kind : FaultKind) (subject : ResourceRecord) :
    Walk × Escalation :=
  let w := propagate topology rule (structuralInclusions topology rule kind subject)
  let e := escalateUnresolved topology rule (noteUnresolved topology subject w)
  (w, widenExposure topology rule subject e)

/-- the classifications once every resource has been looked at -/
def classifyAll (topology : Topology) (subject : ResourceRecord) (e : Escalation) : Classifications :=
  topology.resources.vals.foldl (classifyRest subject e.mandatorySet e.precautionarySet) e.acc

/-- the radius of a known subject -/
def radiusOf (input : BlastRadiusInput) (subject : ResourceRecord) : Records.BlastRadius :=
  let topology := input.topology
  let rule := input.policy.ruleFor input.fault.evidence.kind
  let (w, e) := escalate topology rule input.fault.evidence.kind subject
  let acc := classifyAll topology subject e
  let precautionarySet := idSetOf e.precautionarySet
  let budgetExhausted := decide (rule.actionBudget.toNat < e.mandatorySet.length)
  let rest := acc.toList.filter fun c => !c.2.hasInclusion && !idSetContains precautionarySet c.1
  let precautionary := precautionarySet.filter fun id => !idSetContains e.mandatorySet id
  let acc := precautionary.foldl markPrecautionary acc
  let radius : Records.BlastRadius := {
    generation := input.generation
    policyGeneration := input.policy.generation
    topologyGeneration := topology.generation
    epoch := input.epoch
    fault := input.fault.evidence.id
    faultGeneration := input.fault.evidence.generation
    mandatory := includedIds (classifyAll topology subject e)
    precautionary := precautionary
    unaffected := (rest.filter fun c => !c.2.hasUnresolved).map Prod.fst
    unresolved := (rest.filter fun c => c.2.hasUnresolved).map Prod.fst
    classifications := acc
    propagation := w.propagation
    edgeOutcomes := w.edgeOutcomes
    hardConstraintsSatisfied := !budgetExhausted
    uncertaintyEscalated := e.uncertaintyEscalated
    failClosedApplied := e.failClosedApplied
    budgetExhausted := budgetExhausted }
  let acc := radius.mandatory.foldl (noteProtected topology rule) acc
  let choice := chooseActions topology rule radius
  let radius := { radius with
    legalActions := choice.legal, illegalActions := choice.illegal, recommended := choice.recommended,
    hardConstraintsSatisfied := choice.hardConstraintsSatisfied }
  { radius with explanation := explainRadius topology rule input.fault acc radius }

/-- `compute_blast_radius` -/
def computeBlastRadius (input : BlastRadiusInput) : Except Error Records.BlastRadius :=
  match input.topology.resources.find input.fault.evidence.subject with
  | none => .error (makeError .unknownResource "blast_radius.compute"
      "the fault subject is not present in the current topology" input.fault.evidence.subject.text)
  | some subject => .ok (radiusOf input subject)

/-! ## The mandatory bucket -/

/-- only registered resources are included -/
def Grounded (topology : Topology) (acc : Classifications) : Prop :=
  ∀ id c, acc.find id = some c → c.hasInclusion = true → topology.resources.has id = true

section Grounded

variable {topology : Topology} {acc : Classifications}

theorem Grounded.insert (h : Grounded topology acc) {id : ResourceId} {c : ClassifiedResource}
    (hc : c.hasInclusion = true → topology.resources.has id = true) : Grounded topology (acc.insert id c) := by
  intro id' c' hf hi
  rw [OrderedMap.find_insert] at hf
  split_ifs at hf with he
  · obtain rfl := Option.some.inj hf
    exact he ▸ hc hi
  · exact h id' c' hf hi

/-- the default entry is not included -/
theorem Grounded.old (h : Grounded topology acc) {id : ResourceId}
    (hi : ((acc.find id).getD {}).hasInclusion = true) : topology.resources.has id = true := by
  cases hf : acc.find id with
  | none => rw [hf] at hi; simp at hi
  | some c => rw [hf] at hi; exact h id c hf hi

theorem Grounded.includeIn (h : Grounded topology acc) {id : ResourceId} (hid : topology.resources.has id = true)
    (generation : ResourceGeneration) (reason : InclusionReason) (detail : Text) :
    Grounded topology (includeIn acc id generation reason detail) := h.insert fun _ => hid

theorem Grounded.excludeFrom (h : Grounded topology acc) (id : ResourceId) (generation : ResourceGeneration)
    (reason : ExclusionReason) (detail : Text) : Grounded topology (excludeFrom acc id generation reason detail) := by
  refine h.insert fun hi => h.old ?_
  by_contra hn
  cases hx : ((acc.find id).getD {}).hasExclusion <;> simp [entryOf, hn, hx] at hi

theorem Grounded.markUnresolved (h : Grounded topology acc) (id : ResourceId) (generation : ResourceGeneration)
    (reason : UnresolvedReason) (detail : Text) :
    Grounded topology (markUnresolved acc id generation reason detail) := by
  refine h.insert fun hi => h.old ?_
  by_contra hn
  cases hx : ((acc.find id).getD {}).hasExclusion <;>
    cases hu : ((acc.find id).getD {}).hasUnresolved <;> simp [entryOf, hn, hx, hu] at hi

theorem Grounded.subscript (h : Grounded topology acc) (id : ResourceId) {f : ClassifiedResource → ClassifiedResource}
    (hf : ∀ c, (f c).hasInclusion = c.hasInclusion) : Grounded topology (acc.subscript id f) :=
  h.insert fun hi => h.old (hf _ ▸ hi)

/-- a loop whose every round keeps the accumulator grounded -/
theorem Grounded.foldl {α : Type} {f : Classifications → α → Classifications} (as : List α)
    (hf : ∀ acc a, a ∈ as → Grounded topology acc → Grounded topology (f acc a)) (h : Grounded topology acc) :
    Grounded topology (as.foldl f acc) := by
  induction as generalizing acc with
  | nil => exact h
  | cons a as ih =>
    exact ih (fun acc b hb => hf acc b (List.mem_cons_of_mem a hb)) (hf acc a List.mem_cons_self h)

theorem Grounded.includeMembers (h : Grounded topology acc) (members : IdSet .resourceId) (reason : InclusionReason)
    (detail : Text) : Grounded topology (includeMembers topology members reason detail acc) := by
  refine h.foldl members fun acc m _ hacc => ?_
  split
  · exact hacc
  · next r hr => exact hacc.includeIn ((OrderedMap.has_iff _ _).mpr ⟨r, hr⟩) _ _ _

variable (hk : OrderedMap.Keyed ResourceRecord.id topology.resources)
include hk

theorem has_of_mem_vals {r : ResourceRecord} (hr : r ∈ topology.resources.vals) :
    topology.resources.has r.id = true := by
  obtain ⟨k, hf⟩ := (OrderedMap.mem_vals _ r).mp hr
  exact (OrderedMap.has_iff _ _).mpr ⟨r, (hk k r hf).symm ▸ hf⟩

theorem has_of_find {k : ResourceId} {r : ResourceRecord} (hr : topology.resources.find k = some r) :
    topology.resources.has r.id = true :=
  (OrderedMap.has_iff _ _).mpr ⟨r, (hk k r hr).symm ▸ hr⟩

theorem Grounded.includeAuthority (h : Grounded topology acc) (kind : FaultKind) (subject : ResourceRecord) :
    Grounded topology (includeAuthority topology kind subject acc) := by
  unfold BlastRadius.includeAuthority
  split_ifs
  · refine h.foldl _ fun acc c hc hacc => ?_
    split_ifs
    · exact hacc.includeIn (has_of_mem_vals hk hc) _ _ _
    · exact hacc
  · refine h.foldl _ fun acc c hc hacc => ?_
    split_ifs
    · exact hacc.includeIn (has_of_mem_vals hk hc) _ _ _
    · exact hacc
  · exact h
  · exact h

theorem grounded_structuralInclusions (rule : FaultRule) (kind : FaultKind) {subject : ResourceRecord}
    (hs : topology.resources.has subject.id = true) :
    Grounded topology (structuralInclusions topology rule kind subject) := by
  have h0 : Grounded topology ∅ := fun id c hf _ => by simp at hf
  have h1 := (h0.includeIn hs subject.generation .faultSubject (lit "subject of " ++ Coded.name kind)).includeAuthority
    hk kind subject
  unfold structuralInclusions
  simp only
  split_ifs
  all_goals first
    | exact ((h1.includeMembers _ _ _).includeMembers _ _ _).includeMembers _ _ _
    | exact (h1.includeMembers _ _ _).includeMembers _ _ _
    | exact h1.includeMembers _ _ _
    | exact h1

theorem grounded_visitEdge (rule : FaultRule) (current : ResourceId) {w : Walk} (h : Grounded topology w.acc)
    (edgeId : DependencyId) : Grounded topology (visitEdge topology rule current w edgeId).acc := by
  unfold visitEdge
  cases topology.dependencies.edges.find edgeId with
  | none => exact h
  | some edge =>
    dsimp only
    cases hd : topology.resources.find edge.destination with
    | none => exact h.markUnresolved _ _ _ _
    | some destination =>
      dsimp only
      generalize classifyPropagation rule edge (resourceIsContained destination)
        (idSetContains w.mandatorySet destination.id) = outcome
      have hin := h.includeIn (has_of_find hk hd) destination.generation .propagationHardEdge
        (lit "propagation from " ++ current.text ++ lit " over " ++ Coded.name edge.kind)
      cases outcome <;> dsimp only
      case propagationUnknown => exact h.markUnresolved _ _ _ _
      case propagationImpossible | propagationBlocked => exact h
      all_goals
        split
        · exact h
        · exact hin

theorem grounded_visitEdges (rule : FaultRule) (current : ResourceId) (edges : List DependencyId) {w : Walk}
    (h : Grounded topology w.acc) : Grounded topology (edges.foldl (visitEdge topology rule current) w).acc := by
  induction edges generalizing w with
  | nil => exact h
  | cons e edges ih => exact ih (grounded_visitEdge hk rule current h e)

theorem grounded_walk (rule : FaultRule) (fuel : ℕ) {w : Walk} (h : Grounded topology w.acc) :
    Grounded topology (walk topology rule fuel w).acc := by
  induction fuel generalizing w with
  | zero => exact h
  | succ fuel ih =>
    unfold walk
    split
    · exact h
    · dsimp only
      split_ifs
      · exact ih h
      · exact ih (grounded_visitEdges hk rule _ _ h)

omit hk in
theorem grounded_noteUnresolvedMembers (h : Grounded topology acc) (mandatorySet members : IdSet .resourceId)
    (reason : UnresolvedReason) (detail : Text) :
    Grounded topology (noteUnresolvedMembers topology mandatorySet members reason detail acc) := by
  refine h.foldl members fun acc m _ hacc => ?_
  split
  · exact hacc
  · split_ifs
    · exact hacc
    · exact hacc.markUnresolved _ _ _ _
    · exact hacc

omit hk in
theorem grounded_noteUnresolved (subject : ResourceRecord) {w : Walk} (h : Grounded topology w.acc) :
    Grounded topology (noteUnresolved topology subject w).acc := by
  unfold noteUnresolved
  refine grounded_noteUnresolvedMembers ?_ _ _ _ _
  split_ifs
  · exact grounded_noteUnresolvedMembers h _ _ _ _
  · exact h.markUnresolved _ _ _ _

omit hk in
/-- a loop over an escalation whose every round keeps its accumulator grounded -/
theorem grounded_foldl_escalation {α : Type} {f : Escalation → α → Escalation} (as : List α)
    (hf : ∀ e a, Grounded topology e.acc → Grounded topology (f e a).acc) {e : Escalation}
    (h : Grounded topology e.acc) : Grounded topology (as.foldl f e).acc := by
  induction as generalizing e with
  | nil => exact h
  | cons a as ih => exact ih (hf e a h)

omit hk in
theorem grounded_containUnresolved (e : Escalation) (id : ResourceId) (h : Grounded topology e.acc) :
    Grounded topology (containUnresolved topology e id).acc := by
  unfold containUnresolved
  split
  · exact h
  · next r hr =>
    exact (h.includeIn ((OrderedMap.has_iff _ _).mpr ⟨r, hr⟩) _ _ _).subscript _ fun _ => rfl

omit hk in
theorem grounded_boundUnresolved (e : Escalation) (id : ResourceId) (h : Grounded topology e.acc) :
    Grounded topology (boundUnresolved topology e id).acc := by
  unfold boundUnresolved
  split
  · exact h
  · exact h.subscript _ fun _ => rfl

omit hk in
theorem grounded_escalateUnresolved (rule : FaultRule) {w : Walk} (h : Grounded topology w.acc) :
    Grounded topology (escalateUnresolved topology rule w).acc := by
  unfold escalateUnresolved
  dsimp only
  split_ifs
  · split
    · exact grounded_foldl_escalation _ grounded_containUnresolved h
    · exact grounded_foldl_escalation _ grounded_boundUnresolved h
    · exact h
  · exact h

omit hk in
theorem grounded_widenExposure (rule : FaultRule) (subject : ResourceRecord) {e : Escalation}
    (h : Grounded topology e.acc) : Grounded topology (widenExposure topology rule subject e).acc := by
  have hw : ∀ (e : Escalation) (m : ResourceId), Grounded topology e.acc → Grounded topology (widenMember topology e m).acc := by
    intro e m he
    unfold widenMember
    split
    · exact he
    · next r hr =>
      split_ifs
      · exact he
      · exact he.includeIn ((OrderedMap.has_iff _ _).mpr ⟨r, hr⟩) _ _ _
  unfold widenExposure
  dsimp only
  split_ifs
  · exact grounded_foldl_escalation _ hw h
  · exact h

omit hk in
theorem grounded_classifyAll (subject : ResourceRecord) {e : Escalation} (h : Grounded topology e.acc) :
    Grounded topology (classifyAll topology subject e) := by
  refine h.foldl _ fun acc candidate _ hacc => ?_
  have hs : Grounded topology (acc.subscript candidate.id fun c => c) := hacc.subscript _ fun _ => rfl
  unfold classifyRest
  dsimp only
  split_ifs
  · exact hacc
  · exact hacc
  · exact hs
  · exact hs.markUnresolved _ _ _ _
  · exact hs.excludeFrom _ _ _ _

end Grounded

/-- identities read off the classifications come in order -/
theorem sorted_includedIds (acc : Classifications) : SortedSet (includedIds acc) := by
  rw [includedIds, SortedSet, List.pairwise_map]
  exact (OrderedMap.pairwise_keys acc).sublist List.filter_sublist

theorem mandatory_sorted {input : BlastRadiusInput} {radius : Records.BlastRadius}
    (h : computeBlastRadius input = .ok radius) : SortedSet radius.mandatory := by
  unfold computeBlastRadius at h
  split at h
  · simp at h
  · obtain rfl := Except.ok.inj h
    exact sorted_includedIds _

theorem precautionary_sorted {input : BlastRadiusInput} {radius : Records.BlastRadius}
    (h : computeBlastRadius input = .ok radius) : SortedSet radius.precautionary := by
  unfold computeBlastRadius at h
  split at h
  · simp at h
  · obtain rfl := Except.ok.inj h
    exact (sorted_idSetOf _).sublist List.filter_sublist

/-- **Mandatory resources are registered.** Nothing outside the topology is ever made mandatory. -/
theorem mandatory_registered {input : BlastRadiusInput} {radius : Records.BlastRadius}
    (hk : OrderedMap.Keyed ResourceRecord.id input.topology.resources) (h : computeBlastRadius input = .ok radius)
    {id : ResourceId} (hid : id ∈ radius.mandatory) : input.topology.resources.has id = true := by
  unfold computeBlastRadius at h
  split at h
  · simp at h
  · next subject hs =>
    obtain rfl := Except.ok.inj h
    obtain ⟨⟨id', c⟩, hmem, rfl⟩ := List.mem_map.mp hid
    obtain ⟨hc, hi⟩ := List.mem_filter.mp hmem
    have hg : Grounded input.topology
        (classifyAll input.topology subject
          (escalate input.topology (input.policy.ruleFor input.fault.evidence.kind) input.fault.evidence.kind
            subject).2) :=
      grounded_classifyAll _ (grounded_widenExposure _ _ (grounded_escalateUnresolved _ (grounded_noteUnresolved _
        (grounded_walk hk _ _ (grounded_structuralInclusions hk _ _ (has_of_find hk hs))))))
    exact hg id' c ((OrderedMap.mem_toList _ _ _).mp hc) hi

end FaultContainment.BlastRadius
