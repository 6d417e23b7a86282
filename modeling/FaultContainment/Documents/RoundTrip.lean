/-
The round trip of a well formed runtime state.

`WellFormed` spells out, record by record, what makes a state fit to be persisted: every entry under its record's own
identity, ordered sets, resolvable references, values in their ranges, texts that are UTF-8, and texts and collections
within the ceilings of the codec. It says nothing of the size of the document as a whole, which the byte writer holds
against a ceiling of its own.

- `roundTrip`: a well formed state is written and read back, unless its document is too large to write.
-/
import FaultContainment.Engine.Ops
import FaultContainment.Lib.Runs
import FaultContainment.StateDocument

namespace FaultContainment.StateDocument

open FaultContainment.Lib FaultContainment.Ids FaultContainment.Enums FaultContainment.Records FaultContainment.Utf8
open FaultContainment.Lib.Codec FaultContainment.StateCodec FaultContainment.Dependency

/-! ## Values -/

/-- a text both sides pass -/
def LegalText (t : Text) : Prop := isValidUtf8 t = true ∧ t.length ≤ kMaxStringBytes

/-- a collection of texts -/
def LegalTexts (ts : List Text) : Prop := ts.length ≤ kMaxCollectionCount ∧ ∀ t ∈ ts, LegalText t

/-- a strictly ascending identity set -/
def LegalIds {t : IdTag} (ceiling : ℕ) (is : IdSet t) : Prop := SortedSet is ∧ is.length ≤ ceiling

/-- a strictly ascending set of enumerators -/
def LegalEnums {α : Type} [DecidableEq α] [Coded α] (as : EnumSet α) : Prop :=
  sortedEnums as = true ∧ as.length ≤ (Coded.table (α := α)).length

/-- records under their own identities -/
@[mk_iff]
structure LegalMap {κ ν : Type} [LinearOrder κ] (key : ν → κ) (legal : ν → Prop) (m : OrderedMap κ ν) : Prop where
  keyed : OrderedMap.Keyed key m
  size : m.size ≤ kMaxCollectionCount
  each : OrderedMap.Each legal m

/-! ## Records -/

@[mk_iff]
structure LegalResource (r : ResourceRecord) : Prop where
  id : r.id.valid = true
  name : LegalText r.name

@[mk_iff]
structure LegalContainmentDomain (d : ContainmentDomain) : Prop where
  id : d.id.valid = true
  name : LegalText d.name
  members : LegalIds kMaxMembersPerRecord d.members

@[mk_iff]
structure LegalIsolationDomain (d : IsolationDomain) : Prop where
  id : d.id.valid = true
  name : LegalText d.name
  members : LegalIds kMaxMembersPerRecord d.members
  classes : LegalEnums d.classes

@[mk_iff]
structure LegalFailureDomain (d : FailureDomain) : Prop where
  id : d.id.valid = true
  name : LegalText d.name
  members : LegalIds kMaxMembersPerRecord d.members

@[mk_iff]
structure LegalEdge (e : DependencyEdge) : Prop where
  id : e.id.valid = true
  source : e.source.valid = true
  destination : e.destination.valid = true
  confidence : e.confidencePermille.toNat ≤ 1000
  evidenceSource : LegalText e.evidenceSource

@[mk_iff]
structure LegalFault (f : FaultRecord) : Prop where
  id : f.evidence.id.valid = true
  confidence : f.evidence.confidencePermille.toNat ≤ 1000
  evidenceDetails : LegalText f.evidence.details
  details : LegalText f.details

@[mk_iff]
structure LegalWorker (w : WorkerRecord) : Prop where
  worker : w.key.worker.valid = true
  boot : w.key.boot.valid = true
  liveAuthority : LegalIds kMaxMembersPerRecord w.liveAuthority
  endpoint : LegalText w.endpoint
  details : LegalText w.details

@[mk_iff]
structure LegalRule (r : FaultRule) : Prop where
  confidence : r.likelyConfidencePermille.toNat ≤ 1000
  redundancy : r.minRedundancy ≠ 0
  budget : r.actionBudget ≠ 0
  propagating : LegalEnums r.propagatingKinds
  nonPropagating : LegalEnums r.nonPropagatingKinds

@[mk_iff]
structure LegalPolicy (p : ContainmentPolicy) : Prop where
  name : LegalText p.name
  rulesKeyed : OrderedMap.Keyed FaultRule.kind p.rules
  rulesSize : p.rules.size ≤ kMaxRules
  rules : OrderedMap.Each LegalRule p.rules
  fallback : LegalRule p.fallback
  actions : p.maxActionsPerContainment ≠ 0
  authority : LegalText p.adminOverride.authority
  scope : LegalIds kMaxMembersPerRecord p.adminOverride.scope

@[mk_iff]
structure LegalAction (a : ContainmentAction) : Prop where
  id : a.id.valid = true
  targetsSize : a.envelope.requiredResourceGenerations.size ≤ kMaxEnvelopeTargets
  targets : ∀ r g, a.envelope.requiredResourceGenerations.find r = some g → r.valid = true
  rejectionDetail : LegalText a.rejectionDetail
  executorToken : LegalText a.executorToken

@[mk_iff]
structure LegalVerification (v : ContainmentVerification) : Prop where
  findingsSize : v.findings.length ≤ kMaxCollectionCount
  findings : ∀ f ∈ v.findings, LegalText f.check ∧ LegalText f.detail
  provenContained : LegalIds kMaxCollectionCount v.provenContained
  unproven : LegalIds kMaxCollectionCount v.unproven
  summary : LegalText v.summary

@[mk_iff]
structure LegalContainment (c : ContainmentRecord) : Prop where
  generation : c.generation.valid = true
  mandatory : LegalIds kMaxCollectionCount c.mandatory
  precautionary : LegalIds kMaxCollectionCount c.precautionary
  unaffected : LegalIds kMaxCollectionCount c.unaffected
  unresolved : LegalIds kMaxCollectionCount c.unresolved
  released : LegalIds kMaxCollectionCount c.released
  propagation : c.propagation.length ≤ kMaxCollectionCount
  actions : LegalIds kMaxCollectionCount c.actions
  verification : LegalVerification c.verification
  explanationSize : c.explanation.length ≤ kMaxCollectionCount
  explanation : ∀ l ∈ c.explanation, LegalText l.category ∧ LegalText l.sortKey ∧ LegalText l.text

@[mk_iff]
structure LegalAssessment (a : DegradedModeAssessment) : Prop where
  permitted : LegalIds kMaxCollectionCount a.permitted
  prohibited : LegalIds kMaxCollectionCount a.prohibited
  revalidationRequired : LegalIds kMaxCollectionCount a.revalidationRequired
  capacity : a.availableCapacityPercent.toNat ≤ 100
  reasons : LegalTexts a.reasons

@[mk_iff]
structure LegalContract (c : DegradedModeContract) : Prop where
  name : LegalText c.name
  permitted : LegalIds kMaxCollectionCount c.permittedResources
  prohibited : LegalIds kMaxCollectionCount c.prohibitedResources
  capacity : c.reducedCapacityPercent.toNat ≤ 100
  redundancy : c.requiredRedundancy ≠ 0
  features : LegalTexts c.disabledFeatures
  workloads : LegalEnums c.legalWorkloadClasses
  constraints : LegalTexts c.hardSafetyConstraints
  preconditions : LegalTexts c.exitPreconditions

@[mk_iff]
structure LegalEvent (h : HistoryEvent) : Prop where
  detail : LegalText h.detail
  authority : LegalText h.authority

/-! ## The state -/

@[mk_iff]
structure LegalTopology (t : Topology) : Prop where
  resources : LegalMap ResourceRecord.id LegalResource t.resources
  containmentDomains : LegalMap ContainmentDomain.id LegalContainmentDomain t.containmentDomains
  isolationDomains : LegalMap IsolationDomain.id LegalIsolationDomain t.isolationDomains
  failureDomains : LegalMap FailureDomain.id LegalFailureDomain t.failureDomains
  edges : LegalMap DependencyEdge.id LegalEdge t.dependencies.edges
  containmentMembers : ∀ k d, t.containmentDomains.find k = some d → ∀ r ∈ d.members, t.resources.has r = true
  isolationMembers : ∀ k d, t.isolationDomains.find k = some d → ∀ r ∈ d.members, t.resources.has r = true
  failureMembers : ∀ k d, t.failureDomains.find k = some d → ∀ r ∈ d.members, t.resources.has r = true
  endpoints : ∀ k e, t.dependencies.edges.find k = some e →
    t.resources.has e.source = true ∧ t.resources.has e.destination = true
  containmentPlacements : ∀ k r, t.resources.find k = some r → r.containmentDomain.valid = true →
    t.containmentDomains.has r.containmentDomain = true
  isolationPlacements : ∀ k r, t.resources.find k = some r → r.isolationDomain.valid = true →
    t.isolationDomains.has r.isolationDomain = true
  failurePlacements : ∀ k r, t.resources.find k = some r → r.failureDomain.valid = true →
    t.failureDomains.has r.failureDomain = true
  indexes : t.dependencies = rebuildIndexes t.dependencies

/-- a state fit to be persisted -/
@[mk_iff]
structure WellFormed (s : RuntimeSnapshot) : Prop where
  topology : LegalTopology s.topology
  policy : LegalPolicy s.policy
  faults : LegalMap (fun f => f.evidence.id) LegalFault s.faults
  incarnations : LegalMap WorkerRecord.key LegalWorker s.workers.incarnations
  currentBoot : s.workers.currentBoot.size ≤ kMaxCollectionCount
  lastIncarnation : s.workers.lastIncarnation.size ≤ kMaxCollectionCount
  containments : LegalMap ContainmentRecord.generation LegalContainment s.containments
  actions : LegalMap ContainmentAction.id LegalAction s.actions
  degradedModes : LegalMap DegradedModeAssessment.contract LegalAssessment s.degradedModes
  degradedContracts : LegalMap DegradedModeContract.id LegalContract s.degradedContracts
  historySize : s.history.length ≤ kMaxCollectionCount
  history : ∀ h ∈ s.history, LegalEvent h
  historyTotal : s.history.length ≤ s.historyTotal.toNat

/-! ## Checks

Each condition is a finite check, so a concrete state is found well formed by evaluation. -/

instance (t : Text) : Decidable (LegalText t) := inferInstanceAs (Decidable (_ ∧ _))

instance (ts : List Text) : Decidable (LegalTexts ts) := inferInstanceAs (Decidable (_ ∧ _))

instance {t : IdTag} (ceiling : ℕ) (is : IdSet t) : Decidable (LegalIds ceiling is) := inferInstanceAs (Decidable (_ ∧ _))

instance {α : Type} [DecidableEq α] [Coded α] (as : EnumSet α) : Decidable (LegalEnums as) :=
  inferInstanceAs (Decidable (_ ∧ _))

instance {κ ν : Type} [LinearOrder κ] (key : ν → κ) (legal : ν → Prop) [DecidablePred legal] (m : OrderedMap κ ν) :
    Decidable (LegalMap key legal m) := decidable_of_iff' _ (legalMap_iff key legal m)

instance (r : ResourceRecord) : Decidable (LegalResource r) := decidable_of_iff' _ (legalResource_iff r)

instance (d : ContainmentDomain) : Decidable (LegalContainmentDomain d) := decidable_of_iff' _ (legalContainmentDomain_iff d)

instance (d : IsolationDomain) : Decidable (LegalIsolationDomain d) := decidable_of_iff' _ (legalIsolationDomain_iff d)

instance (d : FailureDomain) : Decidable (LegalFailureDomain d) := decidable_of_iff' _ (legalFailureDomain_iff d)

instance (e : DependencyEdge) : Decidable (LegalEdge e) := decidable_of_iff' _ (legalEdge_iff e)

instance (f : FaultRecord) : Decidable (LegalFault f) := decidable_of_iff' _ (legalFault_iff f)

instance (w : WorkerRecord) : Decidable (LegalWorker w) := decidable_of_iff' _ (legalWorker_iff w)

instance (r : FaultRule) : Decidable (LegalRule r) := decidable_of_iff' _ (legalRule_iff r)

instance (p : ContainmentPolicy) : Decidable (LegalPolicy p) := decidable_of_iff' _ (legalPolicy_iff p)

instance (a : ContainmentAction) : Decidable (LegalAction a) := decidable_of_iff' _ (legalAction_iff a)

instance (v : ContainmentVerification) : Decidable (LegalVerification v) := decidable_of_iff' _ (legalVerification_iff v)

instance (c : ContainmentRecord) : Decidable (LegalContainment c) := decidable_of_iff' _ (legalContainment_iff c)

instance (a : DegradedModeAssessment) : Decidable (LegalAssessment a) := decidable_of_iff' _ (legalAssessment_iff a)

instance (c : DegradedModeContract) : Decidable (LegalContract c) := decidable_of_iff' _ (legalContract_iff c)

instance (h : HistoryEvent) : Decidable (LegalEvent h) := decidable_of_iff' _ (legalEvent_iff h)

instance (t : Topology) : Decidable (LegalTopology t) := decidable_of_iff' _ (legalTopology_iff t)

instance (s : RuntimeSnapshot) : Decidable (WellFormed s) := decidable_of_iff' _ (wellFormed_iff s)

/-! ## The persisted part -/

/-- the persisted part of a state: the current incarnations are not written -/
def persisted (s : RuntimeSnapshot) : RuntimeSnapshot :=
  { s with workers := { s.workers with currentIncarnation := ∅ } }

/-! ## Legal records pass both sides -/

theorem LegalText.wf {t : Text} (h : LegalText t) : str.wf t := by
  simp [Codec.wf, h.1, h.2]

theorem LegalTexts.wf {ts : List Text} (h : LegalTexts ts) : (many str).wf ts :=
  (list_wf str _ kMaxCollectionCount_lt ts).mpr ⟨h.1, fun t ht => (h.2 t ht).wf⟩

theorem LegalIds.wf {t : IdTag} {n : ℕ} {is : IdSet t} (h : LegalIds n is) (hn) : (ids n hn).wf is := by
  simp [Codec.wf, h.1, h.2]

theorem LegalEnums.wf {α : Type} [DecidableEq α] [Coded α] {as : EnumSet α} (h : LegalEnums as) : enumSet.wf as := by
  simp [Codec.wf, h.1, h.2]

theorem LegalResource.wf {r : ResourceRecord} (h : LegalResource r) : StateCodec.resource.wf r := by
  simp [resource, h.id, h.name.wf]

theorem LegalContainmentDomain.wf {d : ContainmentDomain} (h : LegalContainmentDomain d) :
    StateCodec.containmentDomain.wf d := by
  simp [containmentDomain, h.id, h.name.wf, h.members.wf]

theorem LegalIsolationDomain.wf {d : IsolationDomain} (h : LegalIsolationDomain d) : StateCodec.isolationDomain.wf d := by
  simp [isolationDomain, h.id, h.name.wf, h.members.wf, h.classes.wf]

theorem LegalFailureDomain.wf {d : FailureDomain} (h : LegalFailureDomain d) : StateCodec.failureDomain.wf d := by
  simp [failureDomain, h.id, h.name.wf, h.members.wf]

theorem LegalEdge.wf {e : DependencyEdge} (h : LegalEdge e) : StateCodec.dependency.wf e := by
  simp [dependency, h.id, h.source, h.destination, h.confidence, h.evidenceSource.wf]

theorem LegalFault.wf {f : FaultRecord} (h : LegalFault f) : StateCodec.fault.wf f := by
  simp [fault, faultEvidence, h.id, h.confidence, h.evidenceDetails.wf, h.details.wf]

theorem LegalWorker.wf {w : WorkerRecord} (h : LegalWorker w) : StateCodec.worker.wf w := by
  simp [StateCodec.worker, workerKey, h.worker, h.boot, h.liveAuthority.wf, h.endpoint.wf, h.details.wf]

theorem LegalRule.wf {r : FaultRule} (h : LegalRule r) : StateCodec.faultRule.wf r := by
  simp [faultRule, h.confidence, h.redundancy, h.budget, h.propagating.wf, h.nonPropagating.wf]

theorem LegalPolicy.wf {p : ContainmentPolicy} (h : LegalPolicy p) : StateCodec.policy.wf p := by
  have hrules : (mapOf (records FaultRule.kind) StateCodec.faultRule true kMaxRules (by decide)).wf p.rules :=
    (mapOf_wf _ _ _ _ _ _).mpr ⟨h.rulesKeyed, h.rulesSize,
      (OrderedMap.each_iff_vals _ _).mpr fun k r hr => (h.rules k r hr).wf⟩
  simp [StateCodec.policy, adminOverride, h.name.wf, hrules, h.fallback.wf, h.actions, h.authority.wf, h.scope.wf]

theorem LegalAction.wf {a : ContainmentAction} (h : LegalAction a) : StateCodec.action.wf a := by
  have htargets : envelopeTargets.wf a.envelope.requiredResourceGenerations := by
    refine (mapOf_wf _ _ _ _ _ _).mpr ⟨trivial, h.targetsSize, fun e he => ?_⟩
    simp [h.targets e.1 e.2 ((OrderedMap.mem_toList _ _ _).mp he)]
  simp [StateCodec.action, authorityEnvelope, htargets, h.id, h.rejectionDetail.wf, h.executorToken.wf]

theorem LegalVerification.wf {v : ContainmentVerification} (h : LegalVerification v) : StateCodec.verification.wf v := by
  have hfindings : (many verificationFinding).wf v.findings := by
    refine (list_wf _ _ kMaxCollectionCount_lt _).mpr ⟨h.findingsSize, fun f hf => ?_⟩
    obtain ⟨hcheck, hdetail⟩ := h.findings f hf
    simp [verificationFinding, hcheck.wf, hdetail.wf]
  simp [StateCodec.verification, hfindings, h.provenContained.wf, h.unproven.wf, h.summary.wf]

theorem LegalContainment.wf {c : ContainmentRecord} (h : LegalContainment c) : StateCodec.containment.wf c := by
  have hhops : (many propagationHop).wf c.propagation :=
    (list_wf _ _ kMaxCollectionCount_lt _).mpr ⟨h.propagation, fun hop _ => by simp [propagationHop]⟩
  have hlines : (many explanationLine).wf c.explanation := by
    refine (list_wf _ _ kMaxCollectionCount_lt _).mpr ⟨h.explanationSize, fun l hl => ?_⟩
    obtain ⟨hcategory, hkey, htext⟩ := h.explanation l hl
    simp [explanationLine, hcategory.wf, hkey.wf, htext.wf]
  simp [StateCodec.containment, h.generation, h.mandatory.wf, h.precautionary.wf, h.unaffected.wf, h.unresolved.wf,
    h.released.wf, hhops, h.actions.wf, h.verification.wf, hlines]

theorem LegalAssessment.wf {a : DegradedModeAssessment} (h : LegalAssessment a) : degraded.wf a := by
  simp [degraded, h.permitted.wf, h.prohibited.wf, h.revalidationRequired.wf, h.capacity, h.reasons.wf]

theorem LegalContract.wf {c : DegradedModeContract} (h : LegalContract c) : degradedContract.wf c := by
  simp [degradedContract, h.name.wf, h.permitted.wf, h.prohibited.wf, h.capacity, h.redundancy, h.features.wf,
    h.workloads.wf, h.constraints.wf, h.preconditions.wf]

theorem LegalEvent.wf {h : HistoryEvent} (hh : LegalEvent h) : historyEvent.wf h := by
  simp [historyEvent, hh.detail.wf, hh.authority.wf]

section Maps

variable {κ ν : Type} [LinearOrder κ] {key : ν → κ} {legal : ν → Prop} {c : Codec ν} {m : OrderedMap κ ν}

theorem LegalMap.strict_wf (h : LegalMap key legal m) (hwf : ∀ {v}, legal v → c.wf v) : (strictMap key c).wf m :=
  (mapOf_wf _ _ _ _ _ _).mpr ⟨h.keyed, h.size, (OrderedMap.each_iff_vals _ _).mpr fun k v hv => hwf (h.each k v hv)⟩

theorem LegalMap.loose_wf (h : LegalMap key legal m) (hwf : ∀ {v}, legal v → c.wf v) : (looseMap key c).wf m :=
  (mapOf_wf _ _ _ _ _ _).mpr ⟨h.keyed, h.size, (OrderedMap.each_iff_vals _ _).mpr fun k v hv => hwf (h.each k v hv)⟩

end Maps

/-! ## The round trip -/

/-- the graph a reader builds is the graph with its indexes rebuilt -/
theorem ofEdges_vals {g : DependencyGraph} (h : OrderedMap.Keyed DependencyEdge.id g.edges) :
    ofEdges g.edges.vals = rebuildIndexes g := by
  have hfold : ∀ (es : List DependencyEdge) (g : DependencyGraph), es.foldl insertEdge g =
      { edges := es.foldl (fun m e => m.insert e.id e) g.edges
        outgoing := es.foldl (fun m e => m.subscript e.source fun s => idSetInsert s e.id) g.outgoing
        incoming := es.foldl (fun m e => m.subscript e.destination fun s => idSetInsert s e.id) g.incoming } := by
    intro es
    induction es with
    | nil => exact fun _ => rfl
    | cons e es ih => exact fun g => ih (insertEdge g e)
  rw [ofEdges, hfold]
  have hedges : g.edges.vals.foldl (fun m e => m.insert e.id e) ∅ = g.edges := OrderedMap.ofRecords_vals _ _ h
  simp only [rebuildIndexes, hedges]

theorem membersResolve_iff {t : IdTag} {D : Type} (resources : OrderedMap ResourceId ResourceRecord)
    (members : D → IdSet .resourceId) (domains : OrderedMap (Id t) D) : membersResolve resources members domains = true ↔
      ∀ k d, domains.find k = some d → ∀ r ∈ members d, resources.has r = true := by
  simp only [membersResolve, List.all_eq_true]
  exact OrderedMap.each_iff_vals _ _

theorem placementsResolve_iff {t : IdTag} {D : Type} (resources : OrderedMap ResourceId ResourceRecord)
    (placement : ResourceRecord → Id t) (domains : OrderedMap (Id t) D) :
    placementsResolve resources placement domains = true ↔
      ∀ k r, resources.find k = some r → (placement r).valid = true → domains.has (placement r) = true := by
  simp only [placementsResolve, List.all_eq_true]
  rw [OrderedMap.each_iff_vals (fun r => (!(placement r).valid || domains.has (placement r)) = true)]
  refine forall₃_congr fun k r _ => ?_
  show (!(placement r).valid || domains.has (placement r)) = true ↔ _
  cases (placement r).valid
  · exact ⟨fun _ h => absurd h Bool.false_ne_true, fun _ => rfl⟩
  · exact ⟨fun h _ => h, fun h => h rfl⟩

theorem LegalTopology.resolves {t : Topology} (h : LegalTopology t) : resolves (topologyDocument t) = true := by
  have hendpoints : (t.dependencies.edges.vals.all
      fun e => t.resources.has e.source && t.resources.has e.destination) = true := by
    rw [List.all_eq_true]
    refine (OrderedMap.each_iff_vals _ _).mpr fun k e he => ?_
    obtain ⟨hs, hd⟩ := h.endpoints k e he
    simp only [hs, hd, Bool.and_self]
  simp only [StateDocument.resolves, topologyDocument, (membersResolve_iff _ _ _).mpr h.containmentMembers,
    (membersResolve_iff _ _ _).mpr h.isolationMembers, (membersResolve_iff _ _ _).mpr h.failureMembers, hendpoints,
    (placementsResolve_iff _ _ _).mpr h.containmentPlacements, (placementsResolve_iff _ _ _).mpr h.isolationPlacements,
    (placementsResolve_iff _ _ _).mpr h.failurePlacements, Bool.and_self]

theorem LegalTopology.wf {t : Topology} (h : LegalTopology t) : StateDocument.topology.wf (topologyDocument t) := by
  have hresources := h.resources.strict_wf (c := resource) fun h => h.wf
  have hcontainment := h.containmentDomains.strict_wf (c := containmentDomain) fun h => h.wf
  have hisolation := h.isolationDomains.strict_wf (c := isolationDomain) fun h => h.wf
  have hfailure := h.failureDomains.strict_wf (c := failureDomain) fun h => h.wf
  have hedges := h.edges.strict_wf (c := dependency) fun h => h.wf
  have hresolves := h.resolves
  simp only [topologyDocument] at hresolves
  simp [StateDocument.topology, topologyDocument, hresources, hcontainment, hisolation, hfailure, hedges, hresolves]

/-- the document of a well formed state passes both sides -/
theorem WellFormed.wf {s : RuntimeSnapshot} (h : WellFormed s) : stateDocument.wf (document s) := by
  have hfaults := h.faults.loose_wf (c := fault) fun h => h.wf
  have hincarnations := h.incarnations.loose_wf (c := worker) fun h => h.wf
  have hcontainments := h.containments.loose_wf (c := containment) fun h => h.wf
  have hactions := h.actions.loose_wf (c := action) fun h => h.wf
  have hmodes := h.degradedModes.loose_wf (c := degraded) fun h => h.wf
  have hcontracts := h.degradedContracts.loose_wf (c := degradedContract) fun h => h.wf
  have hboots : (entryMap (pair ident ident)).wf s.workers.currentBoot :=
    (mapOf_wf _ _ _ _ _ _).mpr ⟨trivial, h.currentBoot, fun e _ => by simp⟩
  have hlast : (entryMap (pair ident ident)).wf s.workers.lastIncarnation :=
    (mapOf_wf _ _ _ _ _ _).mpr ⟨trivial, h.lastIncarnation, fun e _ => by simp⟩
  have hhistory : (many historyEvent).wf s.history :=
    (list_wf _ _ kMaxCollectionCount_lt _).mpr ⟨h.historySize, fun e he => (h.history e he).wf⟩
  simp [stateDocument, document, h.topology.wf, h.policy.wf, hfaults, hincarnations, hboots, hlast, hcontainments,
    hactions, hmodes, hcontracts, hhistory, h.historyTotal]

/-- reading what was written restores the state, its indexes included -/
theorem WellFormed.load_document {s : RuntimeSnapshot} (h : WellFormed s) : load (document s) = persisted s := by
  have hgraph : ofEdges s.topology.dependencies.edges.vals = s.topology.dependencies :=
    (ofEdges_vals h.topology.edges.keyed).trans h.topology.indexes.symm
  simp only [load, document, loadTopology, topologyDocument, hgraph]
  rfl

/-- the bytes of a state, before the byte writer holds them against its ceiling -/
def Encoded (s : RuntimeSnapshot) (bytes : Bytes) : Prop := stateDocument.enc (document s) = some bytes

/-- **The state document round trip.** Every well formed state has an encoding; if it is within the ceiling of the byte
writer it is written, read back to its last byte, and gives the same state, and if it is not, nothing is written. -/
theorem roundTrip {s : RuntimeSnapshot} (h : WellFormed s) : ∃ bytes, Encoded s bytes ∧
    (bytes.length ≤ kMaxDocumentBytes →
      writeStateDocument s = some bytes ∧ readStateDocument bytes = some (persisted s, [])) ∧
    (kMaxDocumentBytes < bytes.length → writeStateDocument s = none) := by
  obtain ⟨bytes, henc, hdec⟩ := stateDocument.law h.wf
  refine ⟨bytes, henc, fun hsize => ⟨?_, ?_⟩, fun hsize => ?_⟩
  · exact Option.filter_eq_some_iff.mpr ⟨henc, decide_eq_true hsize⟩
  · have hwhole := hdec []
    rw [List.append_nil] at hwhole
    simp only [readStateDocument, hwhole, Option.map_some, h.load_document]
  · rw [writeStateDocument, henc]
    exact Option.filter_eq_none_iff.mpr fun b hb => by
      obtain rfl := Option.some.inj hb
      simpa using hsize

/-- a state with nothing but its audit records -/
def auditOnly (history : List HistoryEvent) : RuntimeSnapshot :=
  { history := history, historyTotal := UInt64.ofNat history.length }

theorem auditOnly_wellFormed {history : List HistoryEvent} (hsize : history.length ≤ kMaxCollectionCount)
    (hlegal : ∀ h ∈ history, LegalEvent h) : WellFormed (auditOnly history) := by
  have hempty : ∀ {κ ν : Type} [LinearOrder κ] (key : ν → κ) (legal : ν → Prop), LegalMap key legal ∅ :=
    fun key legal => ⟨fun _ _ h => by simp at h, Nat.zero_le _, fun _ _ h => by simp at h⟩
  have hnothing : LegalText [] := ⟨rfl, Nat.zero_le _⟩
  have hnone : ∀ {t : IdTag} (n : ℕ), LegalIds n ([] : IdSet t) := fun n => ⟨List.Pairwise.nil, Nat.zero_le _⟩
  have hkinds : LegalEnums ([] : EnumSet DependencyKind) := ⟨rfl, Nat.zero_le _⟩
  have hname : LegalText (lit "default") := ⟨isValidUtf8_lit _, by decide⟩
  have hpolicy : LegalPolicy {} := {
    name := hname, rulesKeyed := (hempty _ (fun _ => True)).keyed, rulesSize := Nat.zero_le _
    rules := (hempty FaultRule.kind _).each
    fallback := ⟨by decide, by decide, by decide, hkinds, hkinds⟩
    actions := by decide, authority := hnothing, scope := hnone _ }
  exact {
    topology := {
      resources := hempty _ _, containmentDomains := hempty _ _, isolationDomains := hempty _ _
      failureDomains := hempty _ _, edges := hempty _ _
      containmentMembers := fun _ _ h => by simp [auditOnly] at h
      isolationMembers := fun _ _ h => by simp [auditOnly] at h
      failureMembers := fun _ _ h => by simp [auditOnly] at h
      endpoints := fun _ _ h => by simp [auditOnly] at h
      containmentPlacements := fun _ _ h => by simp [auditOnly] at h
      isolationPlacements := fun _ _ h => by simp [auditOnly] at h
      failurePlacements := fun _ _ h => by simp [auditOnly] at h
      indexes := rfl }
    policy := hpolicy
    faults := hempty _ _, incarnations := hempty _ _, currentBoot := Nat.zero_le _, lastIncarnation := Nat.zero_le _
    containments := hempty _ _, actions := hempty _ _, degradedModes := hempty _ _, degradedContracts := hempty _ _
    historySize := hsize
    history := hlegal
    historyTotal := by
      have hsmall : history.length < 2 ^ 64 := lt_of_le_of_lt hsize (by decide)
      show history.length ≤ (UInt64.ofNat history.length).toNat
      rw [UInt64.toNat_ofNat_of_lt' hsmall] }

section Witness

open FaultContainment.Engine (Call construct ticks)

/-- A worker registers and two resources of it, one of which needs the other; both are put in domains. The first one's process
dies and is contained, and degraded operation without it is authorised. -/
def contained : List Call := [
  ⟨ticks, .registerWorker ⟨1⟩ ⟨11⟩ (lit "127.0.0.1:7001") ⟨1⟩⟩,
  ⟨ticks, .registerResource { id := ⟨1⟩, name := lit "gpu", freshness := .fresh, ownerWorker := ⟨1⟩, ownerBoot := ⟨11⟩ }⟩,
  ⟨ticks, .registerResource { id := ⟨2⟩, name := lit "model", freshness := .fresh, ownerWorker := ⟨1⟩, ownerBoot := ⟨11⟩ }⟩,
  ⟨ticks, .registerDomain { id := ⟨1⟩, name := lit "rack", members := [⟨1⟩, ⟨2⟩] }⟩,
  ⟨ticks, .registerIsolationDomain { id := ⟨1⟩, name := lit "vlan", members := [⟨1⟩] }⟩,
  ⟨ticks, .registerFailureDomain { id := ⟨1⟩, name := lit "power", members := [⟨2⟩] }⟩,
  ⟨ticks, .registerDependency { id := ⟨1⟩, source := ⟨1⟩, destination := ⟨2⟩, freshness := .fresh, integrity := .verified }⟩,
  ⟨ticks, .publishFault { subject := ⟨1⟩, kind := .processDeath, details := lit "exit 139" }⟩,
  ⟨ticks, .authorizeContainment ⟨1⟩ ⟨1⟩⟩,
  ⟨ticks, .authorizeDegradedMode { name := lit "read only", prohibitedResources := [⟨1⟩] }⟩]

/-- the state after it -/
def containedState : RuntimeSnapshot := (Runs.run Call.after contained (construct ticks {})).state

/-- a state with a record in every map is written and read back -/
theorem roundTrip_contained : ∃ bytes, writeStateDocument containedState = some bytes ∧
    readStateDocument bytes = some (persisted containedState, []) := by
  have hwell : WellFormed containedState := by decide +kernel
  obtain ⟨bytes, henc, hfits, -⟩ := roundTrip hwell
  have hshort : (stateDocument.enc (document containedState)).all (fun b => b.length ≤ kMaxDocumentBytes) = true := by
    decide +kernel
  rw [henc] at hshort
  exact ⟨bytes, hfits (of_decide_eq_true hshort)⟩

end Witness

/-- a document is at least as long as the texts of its audit records -/
theorem atLeast_details : stateDocument.AtLeast fun d => (d.history.map fun h => h.detail.length).sum := by
  have htext : str.AtLeast List.length := (atLeast_blob kMaxStringBytes (by decide)).guarded isValidUtf8
  have hevent : historyEvent.AtLeast fun h => h.detail.length :=
    htext.fst.snd.snd.snd.snd.snd.snd.snd.snd.snd.iso _ _ _ _
  have hhistory : (many historyEvent).AtLeast fun hs => (hs.map fun h => h.detail.length).sum :=
    hevent.list kMaxCollectionCount kMaxCollectionCount_lt
  exact ((hhistory.fst.snd.snd.snd.snd.snd.snd.snd.snd.snd.snd.snd.snd.snd.snd.snd.snd.snd.snd.snd).through _ _ _ _).check _

theorem auditOnly_length {history : List HistoryEvent} {bytes : Bytes} (h : Encoded (auditOnly history) bytes) :
    (history.map fun h => h.detail.length).sum ≤ bytes.length := atLeast_details _ _ h

/-- an audit record with the longest text the codec takes -/
def longEvent : HistoryEvent := { detail := List.replicate kMaxStringBytes 65 }

/-- a history of such records, far below the ceiling on their number -/
def longHistory : List HistoryEvent := List.replicate 2049 longEvent

theorem isValidUtf8_ascii (n : ℕ) : isValidUtf8 (List.replicate n 65) = true := by
  induction n with
  | zero => rfl
  | succ n ih =>
    rw [List.replicate_succ, isValidUtf8.eq_def]
    exact ih

/-- the texts of a long history alone are more than a document may hold -/
theorem longHistory_unwritten : ¬ ∀ s, WellFormed s → ∃ bytes, writeStateDocument s = some bytes ∧
    readStateDocument bytes = some (persisted s, []) := by
  intro h
  have hlegal : ∀ e ∈ longHistory, LegalEvent e := by
    intro e he
    have hshort : longEvent.detail.length ≤ kMaxStringBytes := by
      rw [longEvent, List.length_replicate]
    rw [List.eq_of_mem_replicate he]
    exact ⟨⟨isValidUtf8_ascii _, hshort⟩, ⟨rfl, Nat.zero_le _⟩⟩
  have hcount : longHistory.length ≤ kMaxCollectionCount := by
    rw [longHistory, List.length_replicate]
    decide
  have hlong : (longHistory.map fun h => h.detail.length).sum = 2049 * kMaxStringBytes := by
    rw [longHistory, List.map_replicate, List.sum_replicate, smul_eq_mul, longEvent, List.length_replicate]
  obtain ⟨bytes, hwrite, -⟩ := h _ (auditOnly_wellFormed hcount hlegal)
  obtain ⟨henc, hsize⟩ := Option.filter_eq_some_iff.mp hwrite
  have hbound := auditOnly_length henc
  have hceiling : bytes.length ≤ kMaxDocumentBytes := of_decide_eq_true hsize
  rw [hlong] at hbound
  exact absurd (hbound.trans hceiling) (by decide)

end FaultContainment.StateDocument
