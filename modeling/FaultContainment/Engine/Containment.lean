/-
Containment decisions: the degraded-mode assessment and `authorize_containment`.

A commitment fences every mandatory resource, drains the operable precautionary ones, plans one action per fenced resource
within the budget, and records the decision under the next containment generation.
-/
import FaultContainment.Engine.Faults

namespace FaultContainment.Engine

open FaultContainment.Lib FaultContainment.Ids FaultContainment.Enums FaultContainment.Records
open FaultContainment.DurableEvent FaultContainment.BlastRadius

/-! ## Degraded-mode assessment -/

/-- `degraded_sets_are_disjoint` -/
def degradedSetsAreDisjoint (a : DegradedModeAssessment) : Bool :=
  (a.permitted.all fun p => a.prohibited.all fun q => p ≠ q) &&
    a.permitted.all fun p => a.revalidationRequired.all fun q => p ≠ q

/-- resources a live containment prohibits -/
def prohibitedBy (s : IdSet .resourceId) (c : ContainmentRecord) : IdSet .resourceId :=
  let s := c.mandatory.foldl (fun s r => if idSetContains c.released r then s else idSetInsert s r) s
  c.precautionary.foldl idSetInsert s

/-- one resource's part in the assessment -/
def assessResource (a : DegradedModeAssessment) (r : ResourceRecord) : DegradedModeAssessment :=
  let contained := resourceIsContained r
  let a := if contained ∨ idSetContains a.prohibited r.id then { a with prohibited := idSetInsert a.prohibited r.id }
    else a
  if r.freshness ≠ .fresh then { a with revalidationRequired := idSetInsert a.revalidationRequired r.id }
  else if contained then a
  else if ¬ isOperable r.state then a
  else { a with
    permitted := idSetInsert a.permitted r.id
    availableRedundancy :=
      if r.resourceClass = .worker ∨ r.resourceClass = .service ∨ r.resourceClass = .serviceReplicaGroup then
        a.availableRedundancy + 1
      else a.availableRedundancy }

/-- `permitted.size() * 100 / total`, 0 for an empty topology -/
def capacityPercent (permitted : IdSet .resourceId) (total : ℕ) : UInt32 :=
  if total = 0 then 0 else UInt32.ofNat (permitted.length * 100 / total)

/-- the status of a filled-in assessment and the reason for it -/
def judge (anyLive : Bool) (a : DegradedModeAssessment) : DegradedModeAssessment :=
  if ¬ degradedSetsAreDisjoint a then
    { a with status := .degradedUnsafe, reasons := a.reasons ++ [lit "permitted and prohibited sets overlap"] }
  else if ¬ anyLive ∧ a.revalidationRequired = [] then
    { a with status := .normal, authorized := true
             reasons := a.reasons ++ [lit "no live containment and no outstanding revalidation"] }
  else if a.permitted = [] then
    { a with
      status := if a.revalidationRequired = [] then .noLegalDegradedMode else .degradedRevalidationRequired
      reasons := a.reasons ++ [lit "no resource is both permitted and currently proven"] }
  else if a.availableRedundancy < a.requiredRedundancy then
    { a with
      status := .noLegalDegradedMode
      reasons := a.reasons ++ [lit "available redundancy " ++ decimal a.availableRedundancy.toNat ++
        lit " is below the required " ++ decimal a.requiredRedundancy.toNat] }
  else if a.revalidationRequired ≠ [] then
    { a with
      status := .degradedRevalidationRequired, authorized := true
      reasons := a.reasons ++ [decimal a.revalidationRequired.length ++
        lit " resource(s) require revalidation before rejoining degraded operation"] }
  else
    { a with status := .degradedAuthorized, authorized := true
             reasons := a.reasons ++ [lit "degraded operation authorised within the contract envelope"] }

/-- `assess_degraded_mode` -/
def assessDegradedMode (s : RuntimeSnapshot) (contract : Option DegradedModeContract) (id : DegradedModeId)
    (nowMs : UInt64) : DegradedModeAssessment :=
  let live := s.containments.vals.filter fun c => containmentIsLive c.status
  let prohibited := live.foldl prohibitedBy []
  let prohibited := match contract with
    | some c => c.prohibitedResources.foldl idSetInsert prohibited
    | none => prohibited
  let a : DegradedModeAssessment :=
    { contract := id, epoch := s.epoch, topologyGeneration := s.topologyGeneration, assessedAtMs := nowMs
      prohibited := prohibited
      requiredRedundancy := match contract with | some c => c.requiredRedundancy | none => 1 }
  let a := s.topology.resources.vals.foldl assessResource a
  let available := capacityPercent a.permitted s.topology.resources.size
  let a := { a with availableCapacityPercent := match contract with
    | some c => if c.reducedCapacityPercent < available then c.reducedCapacityPercent else available
    | none => available }
  judge (live ≠ []) a

/-! ## Commitment -/

/-- `action_for_resource` -/
def actionForResource (preferred : ContainmentActionKind) (r : ResourceRecord) : ContainmentActionKind :=
  match preferred with
  | .fenceWorker => if r.ownerBoot.valid then .fenceWorker else .quarantineResource
  | .fenceProcess => if r.ownerBoot.valid then .fenceProcess else .quarantineResource
  | .fenceAttempt => if r.resourceClass = .attempt then .fenceAttempt else .quarantineResource
  | .fenceDevice =>
    if r.resourceClass = .device ∨ r.resourceClass = .accelerator then .fenceDevice else .quarantineResource
  | .revokeAuthority => if r.ownerBoot.valid then .revokeAuthority else .quarantineResource
  | .quarantineDomain => .quarantineDomain
  | .drainDomain => .drainDomain
  | .disableAdmission => .disableAdmission
  | .requireRevalidation => .requireRevalidation
  | .fullDomainIsolation => .fullDomainIsolation
  | _ => .quarantineResource

/-- `outcome_quarantines` -/
def outcomeQuarantines : ContainmentActionKind → Bool
  | .quarantineDomain | .fullDomainIsolation | .quarantineResource => true
  | _ => false

/-- `default_mechanism_for` -/
def defaultMechanismFor (r : ResourceRecord) : ContainmentMechanism :=
  match r.resourceClass with
  | .worker | .process | .execution | .attempt => .logicalContainment
  | _ => .resourceContainment

/-- the checks before the radius is computed; the fault as it was -/
def admitContainment (id : FaultId) (expected : FaultGeneration) (i : Impl) : Except Error FaultRecord :=
  match i.state.faults.find id with
  | none => .error (makeError .unknownFault "containment.authorize" "fault not found" id.text)
  | some f =>
    if expected.valid ∧ f.evidence.generation ≠ expected then
      .error (makeError .staleFaultGeneration "containment.authorize" "fault generation has advanced"
        f.evidence.generation.text)
    else if ¬ isFaultCurrent f.state then
      .error (makeError .faultNotCurrent "containment.authorize" "fault is no longer current" (Coded.name f.state))
    else if ¬ f.actionable then
      .error (makeError .faultNotActionable "containment.authorize" "fault is not actionable")
    else if f.containmentGeneration.valid ∧
        (i.state.containments.find f.containmentGeneration).any (fun c => containmentIsLive c.status) then
      .error (makeError .containmentAlreadyCommitted "containment.authorize"
        "a live containment already exists for this fault" f.containmentGeneration.text)
    else .ok f

/-- the radius the commitment is built on -/
def admitRadius (fault : FaultRecord) (i : Impl) : Except Error Records.BlastRadius :=
  match computeBlastRadius
      { topology := i.state.topology, policy := i.state.policy, fault := fault, epoch := i.state.epoch
        generation := nextGeneration i.state.containmentGeneration } with
  | .error e => .error e
  | .ok radius =>
    if radius.budgetExhausted then
      .error (makeError .noLegalContainment "containment.authorize"
        "the computed radius exceeds the configured action budget" (decimal radius.mandatory.length))
    else if ¬ isLegalFaultTransition fault.state .containmentInProgress then
      .error (makeError .faultNotActionable "containment.authorize" "illegal fault state transition"
        (Coded.name fault.state))
    else .ok radius

/-- what an admitted radius is -/
theorem admitRadius_ok {fault : FaultRecord} {i : Impl} {radius : Records.BlastRadius}
    (h : admitRadius fault i = .ok radius) :
    computeBlastRadius { topology := i.state.topology, policy := i.state.policy, fault := fault, epoch := i.state.epoch
                         generation := nextGeneration i.state.containmentGeneration } = .ok radius := by
  unfold admitRadius at h
  split at h
  · simp at h
  · next radius' hr =>
    split_ifs at h
    rw [hr, Except.ok.inj h]

theorem admitRadius_generation {fault : FaultRecord} {i : Impl} {radius : Records.BlastRadius}
    (h : admitRadius fault i = .ok radius) : radius.generation = nextGeneration i.state.containmentGeneration := by
  have hradius := admitRadius_ok h
  unfold computeBlastRadius at hradius
  split at hradius
  · simp at hradius
  · rw [← Except.ok.inj hradius]
    rfl

/-- a mandatory resource fenced under a containment; an owner without live authority makes the fence real -/
def fence (time : UInt64) (workers : WorkerRegistry) (generation : ContainmentGeneration) (quarantine : Bool)
    (r : ResourceRecord) : ResourceRecord :=
  { r with
    state := if quarantine then .quarantined else .fenced
    quarantined := true
    mechanism :=
      if r.ownerBoot.valid ∧ (workers.incarnations.find ⟨r.ownerWorker, r.ownerBoot⟩).any
          (fun w => !holdsLiveAuthority w.state) then .processContainment
      else defaultMechanismFor r
    containmentGeneration := generation
    generation := nextGeneration r.generation
    updatedAtMs := time }

/-- an operable precautionary resource drained -/
def drain (time : UInt64) (r : ResourceRecord) : Option ResourceRecord :=
  if isOperable r.state then
    some { r with state := .draining, generation := nextGeneration r.generation, updatedAtMs := time }
  else none

/-- the generations a planned action is revalidated against: the members of the target's containment domain -/
def requiredGenerations (t : Topology) (r : ResourceRecord) : OrderedMap ResourceId ResourceGeneration :=
  if r.containmentDomain.valid then
    match t.containmentDomains.find r.containmentDomain with
    | none => ∅
    | some d => d.members.foldl (fun m k =>
        match t.resources.find k with
        | some member => m.insert k member.generation
        | none => m) ∅
  else ∅

/-- the action planned for one fenced resource -/
def planAction (time : UInt64) (record : ContainmentRecord) (id : ActionId) (target : ResourceId) (r : ResourceRecord)
    (s : RuntimeSnapshot) : ContainmentAction :=
  let kind := actionForResource record.outcome r
  { id := id
    generation := ⟨1⟩
    kind := kind
    target := target
    targetGeneration := r.generation
    domain := r.containmentDomain
    isolationDomain := r.isolationDomain
    mechanism := r.mechanism
    status := .planned
    destructive := isDestructiveAction kind
    createdAtMs := time
    envelope :=
      { epoch := s.epoch
        fault := record.fault
        faultGeneration := record.faultGeneration
        containmentGeneration := record.generation
        policyGeneration := s.policyGeneration
        topologyGeneration := s.topologyGeneration
        action := id
        actionGeneration := ⟨1⟩
        worker := r.ownerWorker
        workerBoot := r.ownerBoot
        target := target
        targetGeneration := r.generation
        requiredEvidenceSequence := r.evidenceSequence
        reservation := r.reservation
        lease := r.lease
        issuedAtMs := time
        requiredResourceGenerations := requiredGenerations s.topology r } }

/-- the planning loop: actions are allocated until the budget is spent -/
def planActions (time : UInt64) (budget : ℕ) (record : ContainmentRecord) :
    List ResourceId → List ActionId → Impl → Impl × List ActionId × List ContainmentAction
  | [], planned, i => (i, planned, [])
  | k :: ks, planned, i =>
    if budget ≤ planned.length then (i, planned, [])
    else
      match i.state.topology.resources.find k with
      | none => planActions time budget record ks planned i
      | some r =>
        let action := planAction time record ⟨i.nextAction⟩ k r i.state
        let i := { i with nextAction := i.nextAction + 1 }
        let i := i.withActions (i.state.actions.emplace action.id action)
        let (i, planned, actions) := planActions time budget record ks (planned ++ [action.id]) i
        (i, planned, action :: actions)

/-- planning changes the actions and their allocator, nothing else -/
theorem planActions_frame (time : UInt64) (budget : ℕ) (record : ContainmentRecord) (ks : List ResourceId)
    (planned : List ActionId) (i : Impl) :
    ∃ actions next, (planActions time budget record ks planned i).1 = { i.withActions actions with nextAction := next } := by
  induction ks generalizing planned i with
  | nil => exact ⟨i.state.actions, i.nextAction, rfl⟩
  | cons k ks ih =>
    unfold planActions
    split
    · exact ⟨i.state.actions, i.nextAction, rfl⟩
    · split
      · exact ih planned i
      · next r hr =>
        obtain ⟨actions, next, h⟩ := ih (planned ++ [⟨i.nextAction⟩])
          ({ i with nextAction := i.nextAction + 1 }.withActions
            (i.state.actions.emplace ⟨i.nextAction⟩ (planAction time record ⟨i.nextAction⟩ k r i.state)))
        exact ⟨actions, next, h⟩

theorem planActions_resources (time : UInt64) (budget : ℕ) (record : ContainmentRecord) (ks : List ResourceId)
    (planned : List ActionId) (i : Impl) :
    (planActions time budget record ks planned i).1.state.topology.resources = i.state.topology.resources := by
  obtain ⟨actions, next, h⟩ := planActions_frame time budget record ks planned i
  rw [h]; rfl

theorem planActions_containments (time : UInt64) (budget : ℕ) (record : ContainmentRecord) (ks : List ResourceId)
    (planned : List ActionId) (i : Impl) :
    (planActions time budget record ks planned i).1.state.containments = i.state.containments := by
  obtain ⟨actions, next, h⟩ := planActions_frame time budget record ks planned i
  rw [h]; rfl

/-- the record of a decision, before its actions are planned -/
def newContainment (time : UInt64) (id : FaultId) (fault : FaultRecord) (radius : Records.BlastRadius) (i : Impl) :
    ContainmentRecord where
  generation := radius.generation
  epoch := i.state.epoch
  fault := id
  faultGeneration := fault.evidence.generation
  policyGeneration := i.state.policyGeneration
  topologyGeneration := i.state.topologyGeneration
  outcome := radius.recommended
  status := .committed
  mandatory := radius.mandatory
  precautionary := radius.precautionary
  unaffected := radius.unaffected
  unresolved := radius.unresolved
  propagation := radius.propagation
  committedAtMs := time
  updatedAtMs := time
  explanation := radius.explanation

/-- the audit text of a commitment -/
def commitmentDetail (record : ContainmentRecord) : Text :=
  lit "containment " ++ record.generation.text ++ lit " committed for fault " ++ record.fault.text ++
    lit ": mandatory=" ++ decimal record.mandatory.length ++ lit " precautionary=" ++
    decimal record.precautionary.length ++ lit " unaffected=" ++ decimal record.unaffected.length ++
    lit " unresolved=" ++ decimal record.unresolved.length

/-- the action budget of a containment -/
def actionBudget (policy : ContainmentPolicy) (kind : FaultKind) : ℕ :=
  min (policy.ruleFor kind).actionBudget.toNat policy.maxActionsPerContainment.toNat

/-- `authorize_containment`, once the radius is admitted -/
def commitContainment (clk : Clock) (id : FaultId) (fault : FaultRecord) (radius : Records.BlastRadius) (i : Impl) :
    Step ContainmentRecord :=
  let record := newContainment (clk 0) id fault radius i
  let fault := { fault with
    state := .containmentInProgress, containmentGeneration := record.generation, lastUpdatedMs := clk 0 }
  let i := i.withFaults (i.state.faults.insert id fault)
  let (i, fenced) := editEach (fun r => some (fence (clk 0) i.state.workers record.generation
    (outcomeQuarantines record.outcome) r)) radius.mandatory i
  let (i, drained) := editEach (drain (clk 0)) radius.precautionary i
  let (i, planned, actions) := planActions (clk 0) (actionBudget i.state.policy fault.evidence.kind) record
    radius.mandatory [] i
  let record := { record with
    actions := planned, degradedStatus := (assessDegradedMode i.state none {} (clk 0)).status }
  let i := { i with state := { i.state with
    containmentGeneration := record.generation
    containments := i.state.containments.emplace record.generation record } }
  commit i (clk 1)
    { type := .containmentCommitted, detail := commitmentDetail record
      authority := lit "CoordinatorEpoch " ++ record.epoch.text ++ lit "; ContainmentGeneration " ++
        record.generation.text
      resource := fault.evidence.subject, fault := id, containment := record.generation }
    (fenced ++ drained ++ actions.map fun a => ⟨.actionUpsert, a, none⟩) (⟨.containmentUpsert, record, ·⟩)
    [⟨.faultUpsert, fault, none⟩] record

/-- `authorize_containment` -/
def authorizeContainment (clk : Clock) (id : FaultId) (expected : FaultGeneration) (i : Impl) :
    Step ContainmentRecord :=
  match admitContainment id expected i with
  | .error e => .refuse i e
  | .ok fault =>
    match admitRadius fault i with
    | .error e => .refuse i e
    | .ok radius => commitContainment clk id fault radius i

end FaultContainment.Engine
