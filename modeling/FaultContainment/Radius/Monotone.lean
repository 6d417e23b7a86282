/-
Two blast radii compared.

The traversal stops at an edge whose evidence is not sufficient. Where the evidence of an edge gets worse, what lies behind it is
no longer looked at, and may be recorded as unaffected although the first computation contained it. More edges only ever add
to what is reached; the one thing they can undo is the widening of an isolation domain that was over-exposed without them.

- `Bucketed.unaffected_iff`: the unaffected resources are those that nothing touches.
- `worse_evidence_iff`: when worse evidence makes no resource look safer.
- `chain_looks_safer`: a contained resource becomes unaffected because the evidence before it is lost.
- `more_dependencies`: what more edges leave mandatory, and what they leave touched.
-/
import FaultContainment.Radius.Partition

namespace FaultContainment.Radius

open FaultContainment.Lib FaultContainment.Ids FaultContainment.Enums FaultContainment.Records
open FaultContainment.Policy FaultContainment.BlastRadius

/-! ## What nothing touches -/

section

variable (topology : Topology) (rule : FaultRule) (kind : FaultKind) (subject : ResourceRecord)

/-- reached, threatened, in doubt, without fresh evidence, or in an over-exposed isolation domain -/
def Touched (d : ResourceId) : Prop :=
  Reached topology rule kind subject d ∨ Threatened topology rule kind subject d ∨ Doubted topology rule kind subject d ∨
    Stale topology d ∨ Widened topology rule kind subject d

end

/-- A resource is unaffected exactly when it is registered and nothing touches it. -/
theorem Bucketed.unaffected_iff {topology : Topology} {rule : FaultRule} {kind : FaultKind} {subject : ResourceRecord}
    {b : Buckets} (h : Bucketed topology rule kind subject b) (d : ResourceId) :
    d ∈ b.unaffected ↔ topology.resources.has d = true ∧ ¬ Touched topology rule kind subject d := by
  have hescalated : Escalated topology rule kind subject d → Doubted topology rule kind subject d := fun he => he.2.2
  have hbounded : Bounded topology rule kind subject d → Doubted topology rule kind subject d := fun hb => hb.2.2
  rw [h.unaffected]
  unfold Touched Cautioned Held Open
  tauto

/-- an edge out of what is reached touches where it leads -/
theorem Exposes.touched {topology : Topology} {rule : FaultRule} {kind : FaultKind} {subject : ResourceRecord}
    {id : DependencyId} {e : DependencyEdge} {s d : ResourceId} (he : Exposes topology rule id e s d)
    (hs : Reached topology rule kind subject s) : Touched topology rule kind subject d := by
  by_cases hp : Proven e
  · by_cases hc : Conditional rule e
    · exact .inr (.inl ⟨id, s, hs, e, he, hp, hc⟩)
    · exact .inl (.next hs ⟨e, he, hp, hc⟩)
  · by_cases hr : Reached topology rule kind subject d
    · exact .inl hr
    · exact .inr (.inr (.inl ⟨hr, .inl ⟨id, s, hs, e, he, hp⟩⟩))

/-! ## The same shape -/

/-- the same resource, up to the freshness of its evidence -/
def SameResource (r r' : ResourceRecord) : Prop := { r' with freshness := r.freshness } = r

theorem SameResource.symm {r r' : ResourceRecord} (h : SameResource r r') : SameResource r' r := by
  unfold SameResource at h ⊢
  rw [← h]

theorem SameResource.fields {r r' : ResourceRecord} (h : SameResource r r') :
    r'.id = r.id ∧ r'.ownerBoot = r.ownerBoot ∧ r'.ownerWorker = r.ownerWorker ∧ r'.isolationDomain = r.isolationDomain ∧
      r'.failureDomain = r.failureDomain ∧ r'.containmentDomain = r.containmentDomain ∧
      resourceIsContained r' = resourceIsContained r := by
  rw [← h]
  exact ⟨rfl, rfl, rfl, rfl, rfl, rfl, rfl⟩

/-- the same resources, up to the freshness of their evidence, in the same domains -/
structure SameShape (topology topology' : Topology) : Prop where
  resources : ∀ id, Option.Rel SameResource (topology.resources.find id) (topology'.resources.find id)
  isolation : topology'.isolationDomains = topology.isolationDomains
  failure : topology'.failureDomains = topology.failureDomains
  containment : topology'.containmentDomains = topology.containmentDomains

section Shape

variable {topology topology' : Topology} {rule : FaultRule} {kind : FaultKind} {subject subject' : ResourceRecord}

theorem SameShape.symm (h : SameShape topology topology') : SameShape topology' topology where
  resources id := by
    have hrel := h.resources id
    generalize topology.resources.find id = o at *
    generalize topology'.resources.find id = o' at *
    cases hrel with
    | none => exact .none
    | some hr => exact .some hr.symm
  isolation := h.isolation.symm
  failure := h.failure.symm
  containment := h.containment.symm

theorem SameShape.registered (h : SameShape topology topology') {d : ResourceId}
    (hd : topology.resources.has d = true) : topology'.resources.has d = true := by
  obtain ⟨r, hr⟩ := (OrderedMap.has_iff _ _).mp hd
  obtain ⟨r', hr', -⟩ := rel_left (h.resources d) hr
  exact (OrderedMap.has_iff _ _).mpr ⟨r', hr'⟩

theorem SameShape.members (h : SameShape topology topology') (hs : SameResource subject subject') :
    isolationMembers topology' subject' = isolationMembers topology subject ∧
      failureMembers topology' subject' = failureMembers topology subject ∧
      coIsolatedMembers topology' subject' = coIsolatedMembers topology subject := by
  obtain ⟨-, -, -, hi, hf, hc, -⟩ := hs.fields
  unfold isolationMembers failureMembers coIsolatedMembers
  rw [h.isolation, h.failure, h.containment, hi, hf, hc]
  exact ⟨rfl, rfl, rfl⟩

/-- the seeds do not look at evidence -/
theorem SameShape.seed (h : SameShape topology topology') (hs : SameResource subject subject') {d : ResourceId}
    (hd : Seed topology rule kind subject d) : Seed topology' rule kind subject' d := by
  obtain ⟨hid, hboot, hworker, -⟩ := hs.fields
  obtain ⟨hi, hf, hc⟩ := h.members hs
  cases hd with
  | subject =>
    rw [← hid]
    exact .subject
  | boot hk hb hr ho =>
    obtain ⟨r', hr', hsame⟩ := rel_left (h.resources d) hr
    exact .boot hk (hboot ▸ hb) hr' (hsame.fields.2.1.trans (ho.trans hboot.symm))
  | worker hk hb hw hr ho =>
    obtain ⟨r', hr', hsame⟩ := rel_left (h.resources d) hr
    exact .worker hk (hboot ▸ hb) (hworker ▸ hw) hr' (hsame.fields.2.2.1.trans (ho.trans hworker.symm))
  | isolation ha hm hr => exact .isolation ha (hi ▸ hm) (h.registered hr)
  | failure ha hm hr => exact .failure ha (hf ▸ hm) (h.registered hr)
  | coIsolated ha hm hr => exact .coIsolated ha (hc ▸ hm) (h.registered hr)

/-- what is contained does not depend on evidence -/
theorem SameShape.uncontained (h : SameShape topology topology') {d : ResourceId}
    (hd : ∃ r, topology.resources.find d = some r ∧ resourceIsContained r = false) :
    ∃ r, topology'.resources.find d = some r ∧ resourceIsContained r = false := by
  obtain ⟨r, hr, hu⟩ := hd
  obtain ⟨r', hr', hsame⟩ := rel_left (h.resources d) hr
  exact ⟨r', hr', hsame.fields.2.2.2.2.2.2.trans hu⟩

end Shape

/-! ## Worse evidence -/

/-- the same edge, on evidence that may have been lost -/
structure WorseEdge (e e' : DependencyEdge) : Prop where
  rest : { e' with freshness := e.freshness, integrity := e.integrity } = e
  freshness : e'.freshness = e.freshness ∨ e.freshness = .fresh
  integrity : e'.integrity = e.integrity ∨ e.integrity = .verified

/-- the same topology, on evidence that may have been lost -/
structure WorseEvidence (topology topology' : Topology) : Prop where
  shape : SameShape topology topology'
  freshness : ∀ id r r', topology.resources.find id = some r → topology'.resources.find id = some r' →
    r'.freshness = r.freshness ∨ r.freshness = .fresh
  edges : ∀ id, Option.Rel WorseEdge (topology.dependencies.edges.find id) (topology'.dependencies.edges.find id)

theorem WorseEdge.fields {e e' : DependencyEdge} (h : WorseEdge e e') :
    e'.source = e.source ∧ e'.destination = e.destination ∧ e'.kind = e.kind ∧ e'.conditional = e.conditional := by
  rw [← h.rest]
  exact ⟨rfl, rfl, rfl, rfl⟩

/-- no evidence is gained -/
theorem WorseEdge.proven {e e' : DependencyEdge} (h : WorseEdge e e') (hp : Proven e') : Proven e :=
  ⟨h.freshness.elim (fun hf => hf ▸ hp.1) id, h.integrity.elim (fun hi => hi ▸ hp.2) id⟩

theorem WorseEdge.conditional_iff {e e' : DependencyEdge} (h : WorseEdge e e') (rule : FaultRule) :
    Conditional rule e' ↔ Conditional rule e := by
  unfold Conditional
  rw [h.fields.2.2.2]

section Worse

variable {topology topology' : Topology} {rule : FaultRule} {kind : FaultKind} {subject subject' : ResourceRecord}

/-- an edge is there with the worse evidence -/
theorem WorseEvidence.exposes (h : WorseEvidence topology topology') {id : DependencyId} {e : DependencyEdge}
    {s d : ResourceId} (he : Exposes topology rule id e s d) :
    ∃ e', WorseEdge e e' ∧ Exposes topology' rule id e' s d := by
  obtain ⟨e', he', hworse⟩ := rel_left (h.edges id) he.stored
  obtain ⟨hsource, hdestination, hkind, -⟩ := hworse.fields
  exact ⟨e', hworse, he', hsource.trans he.source, hdestination.trans he.destination, hkind ▸ he.kind,
    h.shape.uncontained he.uncontained⟩

/-- an edge was there with the better evidence -/
theorem WorseEvidence.exposed (h : WorseEvidence topology topology') {id : DependencyId} {e' : DependencyEdge}
    {s d : ResourceId} (he : Exposes topology' rule id e' s d) :
    ∃ e, WorseEdge e e' ∧ Exposes topology rule id e s d := by
  obtain ⟨e, he', hworse⟩ := rel_right (h.edges id) he.stored
  obtain ⟨hsource, hdestination, hkind, -⟩ := hworse.fields
  exact ⟨e, hworse, he', hsource.symm.trans he.source, hdestination.symm.trans he.destination, hkind ▸ he.kind,
    h.shape.symm.uncontained he.uncontained⟩

/-- worse evidence reaches less -/
theorem WorseEvidence.reached (h : WorseEvidence topology topology') (hs : SameResource subject subject')
    {d : ResourceId} (hd : Reached topology' rule kind subject' d) : Reached topology rule kind subject d := by
  induction hd with
  | seed hseed => exact .seed (h.shape.symm.seed hs.symm hseed)
  | next _ hhard ih =>
    obtain ⟨e', he', hp, hc⟩ := hhard
    obtain ⟨e, hworse, he⟩ := h.exposed he'
    exact .next ih ⟨e, he, hworse.proven hp, fun hcond => hc ((hworse.conditional_iff rule).mpr hcond)⟩

theorem WorseEvidence.stale (h : WorseEvidence topology topology') {d : ResourceId} (hd : Stale topology d) :
    Stale topology' d := by
  obtain ⟨r, hr, hn⟩ := hd
  obtain ⟨r', hr', -⟩ := rel_left (h.shape.resources d) hr
  exact ⟨r', hr', (h.freshness d r r' hr hr').elim (fun hf => hf ▸ hn) fun hf => absurd hf hn⟩

/-- what is touched without the domain is touched on the worse evidence, if edges out of lost resources lead to what is -/
structure Covered (topology topology' : Topology) (rule : FaultRule) (kind : FaultKind)
    (subject subject' : ResourceRecord) : Prop where
  lost : ∀ id e s d, Reached topology rule kind subject s → ¬ Reached topology' rule kind subject' s →
    Exposes topology rule id e s d → Touched topology' rule kind subject' d
  exposed : OverExposed topology rule kind subject → ∀ d ∈ isolationMembers topology subject,
    topology.resources.has d = true → Touched topology' rule kind subject' d

/-- an edge out of what was reached leads to what is touched on the worse evidence -/
theorem Covered.edge (hc : Covered topology topology' rule kind subject subject')
    (h : WorseEvidence topology topology') {id : DependencyId} {e : DependencyEdge} {s d : ResourceId}
    (hs : Reached topology rule kind subject s) (he : Exposes topology rule id e s d) :
    Touched topology' rule kind subject' d := by
  by_cases hs' : Reached topology' rule kind subject' s
  · obtain ⟨e', -, he'⟩ := h.exposes he
    exact he'.touched hs'
  · exact hc.lost id e s d hs hs' he

/-- what was touched is touched on the worse evidence -/
theorem Covered.touched (hc : Covered topology topology' rule kind subject subject')
    (h : WorseEvidence topology topology') (hs : SameResource subject subject') {d : ResourceId}
    (hd : Touched topology rule kind subject d) : Touched topology' rule kind subject' d := by
  rcases hd with hd | hd | hd | hd | hd
  · cases hd with
    | seed hseed => exact .inl (.seed (h.shape.seed hs hseed))
    | next hs hhard =>
      obtain ⟨e, he, -⟩ := hhard
      exact hc.edge h hs he
  · obtain ⟨id, s, hs, e, he, -⟩ := hd
    exact hc.edge h hs he
  · obtain ⟨-, ⟨id, s, hs, e, he, -⟩ | ⟨-, hstale⟩⟩ := hd
    · exact hc.edge h hs he
    · exact .inr (.inr (.inr (.inl (h.stale hstale))))
  · exact .inr (.inr (.inr (.inl (h.stale hd))))
  · exact hc.exposed hd.1 d hd.2.1 hd.2.2

/-- **Worse evidence.** Over well-formed topologies that differ in evidence that was lost, no resource looks safer exactly when
every edge out of a resource that is no longer reached, and every member of an isolation domain that was over-exposed, leads to
what is still touched. -/
theorem worse_evidence_iff (input : BlastRadiusInput) (topology' : Topology) (hw : WellFormed input.topology)
    (hw' : WellFormed topology') (h : WorseEvidence input.topology topology') {subject subject' : ResourceRecord}
    (hs : input.topology.resources.find input.fault.evidence.subject = some subject)
    (hs' : topology'.resources.find input.fault.evidence.subject = some subject') :
    ∃ radius radius', computeBlastRadius input = .ok radius ∧
      computeBlastRadius { input with topology := topology' } = .ok radius' ∧
      ((∀ d ∈ radius'.unaffected, d ∈ radius.unaffected) ↔
        Covered input.topology topology' (input.policy.ruleFor input.fault.evidence.kind) input.fault.evidence.kind
          subject subject') := by
  obtain ⟨hok, hspec, -⟩ := computeBlastRadius_spec hw hs
  obtain ⟨hok', hspec', -⟩ := @computeBlastRadius_spec { input with topology := topology' } hw' subject' hs'
  refine ⟨_, _, hok, hok', ?_⟩
  have hsame : SameResource subject subject' := by
    have hrel := h.shape.resources input.fault.evidence.subject
    rw [hs, hs'] at hrel
    cases hrel with
    | some hr => exact hr
  have hsafe : (∀ d ∈ (radiusOf { input with topology := topology' } subject').unaffected,
      d ∈ (radiusOf input subject).unaffected) ↔ ∀ d, input.topology.resources.has d = true →
        Touched input.topology (input.policy.ruleFor input.fault.evidence.kind) input.fault.evidence.kind subject d →
        Touched topology' (input.policy.ruleFor input.fault.evidence.kind) input.fault.evidence.kind subject' d := by
    constructor
    · intro hsub d hd ht
      by_contra hn
      exact ((hspec.unaffected_iff d).mp (hsub d ((hspec'.unaffected_iff d).mpr ⟨h.shape.registered hd, hn⟩))).2 ht
    · intro htouched d hd
      obtain ⟨hreg, hn⟩ := (hspec'.unaffected_iff d).mp hd
      have hreg' := h.shape.symm.registered hreg
      exact (hspec.unaffected_iff d).mpr ⟨hreg', fun ht => hn (htouched d hreg' ht)⟩
  rw [hsafe]
  constructor
  · intro htouched
    exact ⟨fun id e s d hr _ he => htouched d he.registered (he.touched hr),
      fun hover d hm hd => htouched d hd (.inr (.inr (.inr (.inr ⟨hover, hm, hd⟩))))⟩
  · intro hc d _ ht
    exact hc.touched h hsame ht

end Worse

/-- the edge between the first two resources of the row, proven -/
def provenChain : Topology where
  generation := chain.generation
  resources := chain.resources
  dependencies := Dependency.insertEdge
    (Dependency.insertEdge {} { id := ⟨1⟩, source := ⟨1⟩, destination := ⟨2⟩, freshness := .fresh, integrity := .verified })
    { id := ⟨2⟩, source := ⟨2⟩, destination := ⟨3⟩, freshness := .fresh, integrity := .verified }

theorem provenChain_wellFormed : WellFormed provenChain where
  keyed := chain_wellFormed.keyed
  valid := chain_wellFormed.valid
  indexed := (indexed_empty.insertEdge (by simp)).insertEdge (by rw [Dependency.find_insertEdge]; simp)

/-- the row, with the evidence of the first edge lost -/
theorem chain_worse : WorseEvidence provenChain chain where
  shape :=
    { resources := fun id => by
        show Option.Rel SameResource (chain.resources.find id) (chain.resources.find id)
        cases chain.resources.find id with
        | none => exact .none
        | some r => exact .some rfl
      isolation := rfl
      failure := rfl
      containment := rfl }
  freshness id r r' hr hr' := .inl (congrArg ResourceRecord.freshness (Option.some.inj (hr'.symm.trans hr)))
  edges id := by
    show Option.Rel WorseEdge (provenChain.dependencies.edges.find id) (chain.dependencies.edges.find id)
    rw [provenChain, chain, Dependency.find_insertEdge, Dependency.find_insertEdge, Dependency.find_insertEdge,
      Dependency.find_insertEdge]
    split_ifs
    · exact .some ⟨rfl, .inl rfl, .inl rfl⟩
    · exact .some ⟨rfl, .inr rfl, .inr rfl⟩
    · exact .none

/-- the first resource of the row has failed, and every edge is proven -/
def provenInput : BlastRadiusInput := { chainInput with topology := provenChain }

theorem chain_first (id : ResourceId) (h : id = ⟨1⟩) :
    chain.resources.find id = some { id := ⟨1⟩, freshness := .fresh } := by
  rw [h, chain, OrderedMap.find_ofRecords _ _ (by decide)]
  rfl

/-- the row, with the evidence of the last edge lost -/
def doubtedChain : Topology where
  generation := chain.generation
  resources := chain.resources
  dependencies := Dependency.insertEdge
    (Dependency.insertEdge {} { id := ⟨1⟩, source := ⟨1⟩, destination := ⟨2⟩, freshness := .fresh, integrity := .verified })
    { id := ⟨2⟩, source := ⟨2⟩, destination := ⟨3⟩ }

theorem doubtedChain_wellFormed : WellFormed doubtedChain where
  keyed := chain_wellFormed.keyed
  valid := chain_wellFormed.valid
  indexed := (indexed_empty.insertEdge (by simp)).insertEdge (by rw [Dependency.find_insertEdge]; simp)

theorem doubtedChain_worse : WorseEvidence provenChain doubtedChain where
  shape :=
    { resources := chain_worse.shape.resources
      isolation := rfl
      failure := rfl
      containment := rfl }
  freshness := chain_worse.freshness
  edges id := by
    show Option.Rel WorseEdge (provenChain.dependencies.edges.find id) (doubtedChain.dependencies.edges.find id)
    rw [provenChain, doubtedChain, Dependency.find_insertEdge, Dependency.find_insertEdge, Dependency.find_insertEdge,
      Dependency.find_insertEdge]
    split_ifs
    · exact .some ⟨rfl, .inr rfl, .inr rfl⟩
    · exact .some ⟨rfl, .inl rfl, .inl rfl⟩
    · exact .none

/-- no edge leads out of the one resource that is no longer reached -/
theorem doubtedChain_covered : Covered provenChain doubtedChain (makeDefaultPolicy.ruleFor .processDeath) .processDeath
    { id := ⟨1⟩, freshness := .fresh } { id := ⟨1⟩, freshness := .fresh } := by
  have hfind : ∀ id, chain.resources.find id = _ := fun id => by
    rw [chain, OrderedMap.find_ofRecords _ _ (by decide)]
  have hexposes : Exposes doubtedChain (makeDefaultPolicy.ruleFor .processDeath) ⟨1⟩
      { id := ⟨1⟩, source := ⟨1⟩, destination := ⟨2⟩, freshness := .fresh, integrity := .verified } ⟨1⟩ ⟨2⟩ :=
    ⟨by rw [doubtedChain, Dependency.find_insertEdge, Dependency.find_insertEdge]; rfl, rfl, rfl, by decide +kernel, _,
      hfind ⟨2⟩, by decide⟩
  have hreached : ∀ s : ResourceId, s = ⟨1⟩ ∨ s = ⟨2⟩ → Reached doubtedChain (makeDefaultPolicy.ruleFor .processDeath)
      .processDeath { id := ⟨1⟩, freshness := .fresh } s := by
    rintro s (rfl | rfl)
    · exact .seed .subject
    · exact .next (.seed .subject) ⟨_, hexposes, ⟨rfl, rfl⟩, by unfold Conditional; decide +kernel⟩
  refine ⟨?_, fun hover => ?_⟩
  · rintro id e s d - hlost ⟨hstored, hsource, -, -, -⟩
    rw [provenChain, Dependency.find_insertEdge, Dependency.find_insertEdge] at hstored
    split_ifs at hstored
    · rw [← Option.some.inj hstored] at hsource
      exact absurd (hreached s (.inr hsource.symm)) hlost
    · rw [← Option.some.inj hstored] at hsource
      exact absurd (hreached s (.inl hsource.symm)) hlost
    · exact absurd hstored (by simp)
  · have hnone : isolationMembers provenChain { id := ⟨1⟩, freshness := .fresh } = [] := by decide +kernel
    rw [hnone]
    exact fun d hd => absurd hd List.not_mem_nil

/-- With the evidence of the last edge lost, the third resource is contained for doubt, and nothing looks safer. -/
theorem worse_evidence_doubtedChain : ∃ radius radius', computeBlastRadius provenInput = .ok radius ∧
    computeBlastRadius { provenInput with topology := doubtedChain } = .ok radius' ∧
    ∀ d ∈ radius'.unaffected, d ∈ radius.unaffected := by
  obtain ⟨radius, radius', hok, hok', hiff⟩ := worse_evidence_iff provenInput doubtedChain provenChain_wellFormed
    doubtedChain_wellFormed doubtedChain_worse (chain_first ⟨1⟩ rfl) (chain_first ⟨1⟩ rfl)
  exact ⟨radius, radius', hok, hok', hiff.mpr doubtedChain_covered⟩

/-- The third resource is contained, until the evidence of the first edge is lost: then it is recorded as unaffected. -/
theorem chain_looks_safer :
    ¬ ∀ (input : BlastRadiusInput) (topology' : Topology), WellFormed input.topology → WellFormed topology' →
      WorseEvidence input.topology topology' → ∀ radius radius', computeBlastRadius input = .ok radius →
      computeBlastRadius { input with topology := topology' } = .ok radius' →
      ∀ d ∈ radius'.unaffected, d ∈ radius.unaffected := by
  intro h
  have hok := (@computeBlastRadius_spec provenInput provenChain_wellFormed _ (chain_first ⟨1⟩ rfl)).1
  have hok' := (@computeBlastRadius_spec chainInput chain_wellFormed _ (chain_first ⟨1⟩ rfl)).1
  have hin := h provenInput chain provenChain_wellFormed chain_wellFormed chain_worse _ _ hok hok' ⟨3⟩ (by decide +kernel)
  exact absurd hin (by decide +kernel)

/-! ## More dependencies -/

section More

variable (topology : Topology) (g : DependencyGraph) (rule : FaultRule) (kind : FaultKind) (subject : ResourceRecord)

/-- the topology with another dependency graph -/
def withGraph : Topology := { topology with dependencies := g }

/-- a member of the isolation domain, which is over-exposed without the added edges and is not with them -/
def Relieved (d : ResourceId) : Prop :=
  Widened topology rule kind subject d ∧ ¬ OverExposed (withGraph topology g) rule kind subject

variable {topology g rule kind subject} {d : ResourceId}

theorem Exposes.more (hmore : ∀ id e, topology.dependencies.edges.find id = some e → g.edges.find id = some e)
    {id : DependencyId} {e : DependencyEdge} {s : ResourceId} (he : Exposes topology rule id e s d) :
    Exposes (withGraph topology g) rule id e s d :=
  ⟨hmore id e he.stored, he.source, he.destination, he.kind, he.uncontained⟩

theorem Seed.withGraph (hd : Seed topology rule kind subject d) :
    Seed (Radius.withGraph topology g) rule kind subject d := by
  cases hd with
  | subject => exact .subject
  | boot hk hb hr ho => exact .boot hk hb hr ho
  | worker hk hb hw hr ho => exact .worker hk hb hw hr ho
  | isolation ha hm hr => exact .isolation ha hm hr
  | failure ha hm hr => exact .failure ha hm hr
  | coIsolated ha hm hr => exact .coIsolated ha hm hr

/-- more edges reach more -/
theorem reached_more (hmore : ∀ id e, topology.dependencies.edges.find id = some e → g.edges.find id = some e)
    (hd : Reached topology rule kind subject d) : Reached (withGraph topology g) rule kind subject d := by
  induction hd with
  | seed hseed => exact .seed (Seed.withGraph hseed)
  | next _ hhard ih =>
    obtain ⟨e, he, hp, hc⟩ := hhard
    exact .next ih ⟨e, he.more hmore, hp, hc⟩

/-- what was in doubt is in doubt, or reached -/
theorem doubted_more (hmore : ∀ id e, topology.dependencies.edges.find id = some e → g.edges.find id = some e)
    (hd : Doubted topology rule kind subject d) :
    Reached (withGraph topology g) rule kind subject d ∨ Doubted (withGraph topology g) rule kind subject d := by
  by_cases hr : Reached (withGraph topology g) rule kind subject d
  · exact .inl hr
  · refine .inr ⟨hr, ?_⟩
    obtain ⟨-, ⟨id, s, hs, e, he, hp⟩ | hmember⟩ := hd
    · exact .inl ⟨id, s, reached_more hmore hs, e, he.more hmore, hp⟩
    · exact .inr hmember

/-- what was held is held, or relieved -/
theorem held_more (hmore : ∀ id e, topology.dependencies.edges.find id = some e → g.edges.find id = some e)
    (hd : Held topology rule kind subject d) :
    Held (withGraph topology g) rule kind subject d ∨ Relieved topology g rule kind subject d := by
  rcases hd with hd | ⟨hclosed, hpreempt, hd⟩ | hd
  · exact .inl (.inl (reached_more hmore hd))
  · rcases doubted_more hmore hd with hr | hd
    · exact .inl (.inl hr)
    · exact .inl (.inr (.inl ⟨hclosed, hpreempt, hd⟩))
  · by_cases hover : OverExposed (withGraph topology g) rule kind subject
    · exact .inl (.inr (.inr ⟨hover, hd.2⟩))
    · exact .inr ⟨hd, hover⟩

/-- what was touched is touched, or relieved -/
theorem touched_more (hmore : ∀ id e, topology.dependencies.edges.find id = some e → g.edges.find id = some e)
    (hd : Touched topology rule kind subject d) :
    Touched (withGraph topology g) rule kind subject d ∨ Relieved topology g rule kind subject d := by
  rcases hd with hd | hd | hd | hd | hd
  · exact .inl (.inl (reached_more hmore hd))
  · obtain ⟨id, s, hs, e, he, hp, hc⟩ := hd
    exact .inl (.inr (.inl ⟨id, s, reached_more hmore hs, e, he.more hmore, hp, hc⟩))
  · rcases doubted_more hmore hd with hr | hd
    · exact .inl (.inl hr)
    · exact .inl (.inr (.inr (.inl hd)))
  · exact .inl (.inr (.inr (.inr (.inl hd))))
  · by_cases hover : OverExposed (withGraph topology g) rule kind subject
    · exact .inl (.inr (.inr (.inr (.inr ⟨hover, hd.2⟩))))
    · exact .inr ⟨hd, hover⟩

end More

/-- **More dependencies.** Over well-formed topologies of which the second has more edges, what was mandatory stays mandatory, and
what is unaffected was unaffected, except for the members of an isolation domain that the added edges relieve. -/
theorem more_dependencies (input : BlastRadiusInput) (g : DependencyGraph) (hw : WellFormed input.topology)
    (hw' : WellFormed (withGraph input.topology g))
    (hmore : ∀ id e, input.topology.dependencies.edges.find id = some e → g.edges.find id = some e)
    {subject : ResourceRecord} (hs : input.topology.resources.find input.fault.evidence.subject = some subject) :
    ∃ radius radius', computeBlastRadius input = .ok radius ∧
      computeBlastRadius { input with topology := withGraph input.topology g } = .ok radius' ∧
      (∀ d ∈ radius.mandatory, d ∈ radius'.mandatory ∨ Relieved input.topology g
        (input.policy.ruleFor input.fault.evidence.kind) input.fault.evidence.kind subject d) ∧
      ∀ d ∈ radius'.unaffected, d ∈ radius.unaffected ∨ Relieved input.topology g
        (input.policy.ruleFor input.fault.evidence.kind) input.fault.evidence.kind subject d := by
  obtain ⟨hok, hspec, -⟩ := computeBlastRadius_spec hw hs
  obtain ⟨hok', hspec', -⟩ :=
    @computeBlastRadius_spec { input with topology := withGraph input.topology g } hw' subject hs
  refine ⟨_, _, hok, hok', fun d hd => ?_, fun d hd => ?_⟩
  · rcases held_more hmore ((hspec.mandatory d).mp hd) with hheld | hrelieved
    · exact .inl ((hspec'.mandatory d).mpr hheld)
    · exact .inr hrelieved
  · obtain ⟨hreg, hn⟩ := (hspec'.unaffected_iff d).mp hd
    by_cases ht : Touched input.topology (input.policy.ruleFor input.fault.evidence.kind) input.fault.evidence.kind
        subject d
    · exact .inr ((touched_more hmore ht).resolve_left hn)
    · exact .inl ((hspec.unaffected_iff d).mpr ⟨hreg, ht⟩)

/-- a topology over a list of records under their own valid identities -/
theorem listed_wellFormed {topology : Topology} (rs : List ResourceRecord) (hnodup : (rs.map ResourceRecord.id).Nodup)
    (hvalid : ∀ r ∈ rs, r.id.valid = true) (hresources : topology.resources = OrderedMap.ofRecords ResourceRecord.id rs)
    (hindexed : Indexed topology.dependencies) : WellFormed topology where
  keyed k r h := by
    rw [hresources, OrderedMap.find_ofRecords _ _ hnodup] at h
    simpa using List.find?_some h
  valid id h := by
    obtain ⟨r, hr⟩ := (OrderedMap.has_iff _ _).mp h
    rw [hresources, OrderedMap.find_ofRecords _ _ hnodup] at hr
    obtain rfl : r.id = id := by simpa using List.find?_some hr
    exact hvalid r (List.mem_of_find?_eq_some hr)
  indexed := hindexed

/-- the members of an isolation domain -/
def crowd : List ResourceRecord :=
  [{ id := ⟨1⟩, isolationDomain := ⟨1⟩, freshness := .fresh }, { id := ⟨2⟩, isolationDomain := ⟨1⟩, freshness := .fresh },
    { id := ⟨3⟩, isolationDomain := ⟨1⟩, freshness := .fresh }]

/-- an isolation domain of three without dependencies -/
def crowded : Topology where
  generation := ⟨1⟩
  resources := OrderedMap.ofRecords ResourceRecord.id crowd
  isolationDomains := OrderedMap.ofRecords IsolationDomain.id [{ id := ⟨1⟩, members := [⟨1⟩, ⟨2⟩, ⟨3⟩] }]

/-- a proven edge from the first to the second -/
def crowdEdge : DependencyGraph := Dependency.insertEdge {}
  { id := ⟨1⟩, source := ⟨1⟩, destination := ⟨2⟩, freshness := .fresh, integrity := .verified }

/-- the first member has failed, and the rule tolerates one member outside -/
def crowdedInput : BlastRadiusInput where
  topology := crowded
  policy := { generation := ⟨1⟩, fallback := { isolateIsolationDomain := false, maxToleratedExposure := 1 } }
  fault := { evidence := { id := ⟨1⟩, kind := .processDeath, subject := ⟨1⟩ } }
  epoch := ⟨1⟩
  generation := ⟨1⟩

theorem crowded_wellFormed {g : DependencyGraph} (h : Indexed g) : WellFormed (withGraph crowded g) :=
  listed_wellFormed crowd (by decide) (by decide) rfl h

theorem crowdEdge_indexed : Indexed crowdEdge := indexed_empty.insertEdge (by simp)

theorem crowded_first : crowded.resources.find ⟨1⟩ = some { id := ⟨1⟩, isolationDomain := ⟨1⟩, freshness := .fresh } := by
  rw [crowded, OrderedMap.find_ofRecords _ _ (by decide)]
  rfl

theorem more_dependencies_crowded : ∃ radius radius', computeBlastRadius crowdedInput = .ok radius ∧
    computeBlastRadius { crowdedInput with topology := withGraph crowded crowdEdge } = .ok radius' ∧
    (∀ d ∈ radius.mandatory, d ∈ radius'.mandatory ∨ Relieved crowded crowdEdge
      (crowdedInput.policy.ruleFor .processDeath) .processDeath
      { id := ⟨1⟩, isolationDomain := ⟨1⟩, freshness := .fresh } d) ∧
    ∀ d ∈ radius'.unaffected, d ∈ radius.unaffected ∨ Relieved crowded crowdEdge
      (crowdedInput.policy.ruleFor .processDeath) .processDeath
      { id := ⟨1⟩, isolationDomain := ⟨1⟩, freshness := .fresh } d :=
  more_dependencies crowdedInput crowdEdge (crowded_wellFormed indexed_empty) (crowded_wellFormed crowdEdge_indexed)
    (fun _ _ h => by simp [crowdedInput, crowded] at h) crowded_first

/-- With the edge one member less is outside, which the rule tolerates: the third is no longer contained. -/
theorem crowded_relieved :
    ¬ ∀ (input : BlastRadiusInput) (g : DependencyGraph), WellFormed input.topology →
      WellFormed (withGraph input.topology g) →
      (∀ id e, input.topology.dependencies.edges.find id = some e → g.edges.find id = some e) →
      (∀ id e, g.edges.find id = some e →
        input.topology.resources.has e.source = true ∧ input.topology.resources.has e.destination = true) →
      ∀ radius radius', computeBlastRadius input = .ok radius →
      computeBlastRadius { input with topology := withGraph input.topology g } = .ok radius' →
      (∀ d ∈ radius.mandatory, d ∈ radius'.mandatory) ∧ ∀ d ∈ radius'.unaffected, d ∈ radius.unaffected := by
  intro h
  have hw := crowded_wellFormed indexed_empty
  have hw' := crowded_wellFormed crowdEdge_indexed
  have hok := (@computeBlastRadius_spec crowdedInput hw _ crowded_first).1
  have hok' := (@computeBlastRadius_spec { crowdedInput with topology := withGraph crowded crowdEdge } hw' _
    crowded_first).1
  have hregistered : ∀ id e, crowdEdge.edges.find id = some e →
      crowded.resources.has e.source = true ∧ crowded.resources.has e.destination = true := by
    intro id e he
    rw [crowdEdge, Dependency.find_insertEdge] at he
    split_ifs at he
    · rw [← Option.some.inj he]
      decide +kernel
    · simp at he
  have hkept := (h crowdedInput crowdEdge hw hw' (fun _ _ he => by simp [crowdedInput, crowded] at he) hregistered
    _ _ hok hok').1
  exact absurd (hkept ⟨3⟩ (by decide +kernel)) (by decide +kernel)

end FaultContainment.Radius
