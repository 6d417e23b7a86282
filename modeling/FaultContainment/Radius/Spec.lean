/-
What a blast radius is for: the resources a fault puts in doubt, stated on the topology and the rule alone.

The structural seeds and the proven unconditional edges reach the resources that must be contained. Conditional edges
threaten, edges without fresh verified evidence put in doubt, and what is in doubt is contained, bounded or left open as the
rule says. A correlated group with too much left outside is contained as a whole. None of this looks at a traversal.

- `Reached.registered`, `Held.registered`: only registered resources are ever held.
-/
import FaultContainment.BlastRadius
import FaultContainment.Lib.Closure

namespace FaultContainment.Radius

open FaultContainment.Lib FaultContainment.Ids FaultContainment.Enums FaultContainment.Records
open FaultContainment.Policy FaultContainment.BlastRadius

/-! ## The topology -/

/-- the edges listed out of a resource -/
def outgoingOf (topology : Topology) (r : ResourceId) : IdSet .dependencyId :=
  (topology.dependencies.outgoing.find r).getD []

/-- each edge sits under its own identity, and the indexes list exactly the edges -/
structure Indexed (g : DependencyGraph) : Prop where
  keyed : OrderedMap.Keyed DependencyEdge.id g.edges
  outgoing : ∀ r id, id ∈ (g.outgoing.find r).getD [] ↔ ∃ e, g.edges.find id = some e ∧ e.source = r
  incoming : ∀ r id, id ∈ (g.incoming.find r).getD [] ↔ ∃ e, g.edges.find id = some e ∧ e.destination = r

theorem indexed_empty : Indexed {} := ⟨fun _ _ h => by simp at h, by simp, by simp⟩

/-- one index after an edge is listed under the resource `k` -/
theorem mem_listed (index : OrderedMap ResourceId (IdSet .dependencyId)) (k r : ResourceId) (new id : DependencyId) :
    id ∈ ((index.subscript k fun s => idSetInsert s new).find r).getD [] ↔
      id = new ∧ k = r ∨ id ∈ (index.find r).getD [] := by
  rw [OrderedMap.find_subscript]
  by_cases hk : k = r
  · subst hk
    rw [if_pos rfl, Option.getD_some, mem_idSetInsert]
    simp only [and_true]
    exact Iff.rfl
  · simp [hk]

/-- A new edge keeps the indexes exact. -/
theorem Indexed.insertEdge {g : DependencyGraph} (h : Indexed g) {edge : DependencyEdge}
    (hnew : g.edges.find edge.id = none) : Indexed (Dependency.insertEdge g edge) := by
  have hstep : ∀ (f : DependencyEdge → ResourceId) (r : ResourceId) (id : DependencyId),
      (id = edge.id ∧ f edge = r ∨ ∃ e, g.edges.find id = some e ∧ f e = r) ↔
        ∃ e, (Dependency.insertEdge g edge).edges.find id = some e ∧ f e = r := by
    intro f r id
    rw [Dependency.find_insertEdge]
    by_cases hid : edge.id = id
    · subst hid
      simp [hnew]
    · simp [hid, Ne.symm hid]
  refine ⟨h.keyed.insert rfl, fun r id => ?_, fun r id => ?_⟩
  · rw [← hstep DependencyEdge.source r id, ← h.outgoing]
    exact mem_listed g.outgoing edge.source r edge.id id
  · rw [← hstep DependencyEdge.destination r id, ← h.incoming]
    exact mem_listed g.incoming edge.destination r edge.id id

/-- each resource sits under its own valid identity, and the dependency indexes are exact -/
structure WellFormed (topology : Topology) : Prop where
  keyed : OrderedMap.Keyed ResourceRecord.id topology.resources
  valid : ∀ id, topology.resources.has id = true → id.valid = true
  indexed : Indexed topology.dependencies

section

variable (topology : Topology) (rule : FaultRule)

/-- the edge leads from `s` to a `d` that is not already contained, over a kind that carries propagation -/
structure Exposes (id : DependencyId) (e : DependencyEdge) (s d : ResourceId) : Prop where
  stored : topology.dependencies.edges.find id = some e
  source : e.source = s
  destination : e.destination = d
  kind : rulePropagatesOver rule e.kind = true
  uncontained : ∃ r, topology.resources.find d = some r ∧ resourceIsContained r = false

/-- the evidence of the edge is fresh and verified -/
def Proven (e : DependencyEdge) : Prop := e.freshness = .fresh ∧ e.integrity = .verified

/-- propagation over the edge is conditional, by the edge or by the rule -/
def Conditional (e : DependencyEdge) : Prop := e.conditional = true ∨ rule.propagation = .conditional

/-- proven and unconditional -/
def Hard (id : DependencyId) (s d : ResourceId) : Prop :=
  ∃ e, Exposes topology rule id e s d ∧ Proven e ∧ ¬ Conditional rule e

/-- proven and conditional -/
def Soft (id : DependencyId) (s d : ResourceId) : Prop :=
  ∃ e, Exposes topology rule id e s d ∧ Proven e ∧ Conditional rule e

/-- not proven -/
def Doubtful (id : DependencyId) (s d : ResourceId) : Prop := ∃ e, Exposes topology rule id e s d ∧ ¬ Proven e

/-- registered without fresh evidence -/
def Stale (id : ResourceId) : Prop := ∃ r, topology.resources.find id = some r ∧ r.freshness ≠ .fresh

/-! ## What a fault reaches -/

variable (kind : FaultKind) (subject : ResourceRecord)

/-- the subject, what shares its authority, and the members of its domains that the rule asks for -/
inductive Seed : ResourceId → Prop
  | subject : Seed subject.id
  | boot {id : ResourceId} {r : ResourceRecord} (hk : sharesAuthority kind = true)
      (hb : subject.ownerBoot.valid = true) (hr : topology.resources.find id = some r)
      (ho : r.ownerBoot = subject.ownerBoot) : Seed id
  | worker {id : ResourceId} {r : ResourceRecord} (hk : sharesAuthority kind = true)
      (hb : subject.ownerBoot.valid = false) (hw : subject.ownerWorker.valid = true)
      (hr : topology.resources.find id = some r) (ho : r.ownerWorker = subject.ownerWorker) : Seed id
  | isolation {id : ResourceId} (hi : rule.isolateIsolationDomain = true) (hm : id ∈ isolationMembers topology subject)
      (hr : topology.resources.has id = true) : Seed id
  | failure {id : ResourceId} (hi : rule.isolateFailureDomain = true) (hm : id ∈ failureMembers topology subject)
      (hr : topology.resources.has id = true) : Seed id
  | coIsolated {id : ResourceId} (hi : rule.coIsolateContainmentDomain = true)
      (hm : id ∈ coIsolatedMembers topology subject) (hr : topology.resources.has id = true) : Seed id

/-- reached from a seed over hard edges -/
abbrev Reached (id : ResourceId) : Prop :=
  Closure.Reach {i | Seed topology rule kind subject i} (Hard topology rule) id

/-- one soft edge away from what is reached -/
def Threatened (d : ResourceId) : Prop := ∃ id s, Reached topology rule kind subject s ∧ Soft topology rule id s d

/-- not reached, but an unproven edge leads there from what is reached, or a correlated member without fresh evidence -/
def Doubted (d : ResourceId) : Prop :=
  ¬ Reached topology rule kind subject d ∧
    ((∃ id s, Reached topology rule kind subject s ∧ Doubtful topology rule id s d) ∨
      (d ∈ isolationMembers topology subject ∨ d ∈ failureMembers topology subject) ∧ Stale topology d)

/-! ## What the rule makes of doubt and exposure -/

/-- in doubt, and contained for it -/
def Escalated (d : ResourceId) : Prop :=
  rule.failClosedOnUnknownEvidence = true ∧ rule.uncertainty = .containPreemptively ∧
    Doubted topology rule kind subject d

/-- in doubt, and drained for it -/
def Bounded (d : ResourceId) : Prop :=
  rule.failClosedOnUnknownEvidence = true ∧ rule.uncertainty = .boundedExposure ∧ Doubted topology rule kind subject d

open Classical in
/-- more of the subject's isolation domain is left outside than the rule tolerates -/
def OverExposed : Prop :=
  rule.maxToleratedExposure.toNat <
    ((isolationMembers topology subject).filter fun m =>
      ¬ (Reached topology rule kind subject m ∨ Escalated topology rule kind subject m)).length

/-- a member of an over-exposed isolation domain -/
def Widened (d : ResourceId) : Prop :=
  OverExposed topology rule kind subject ∧ d ∈ isolationMembers topology subject ∧ topology.resources.has d = true

/-- in the contained set -/
def Held (d : ResourceId) : Prop :=
  Reached topology rule kind subject d ∨ Escalated topology rule kind subject d ∨
    Widened topology rule kind subject d

/-- outside the contained set, and to be drained -/
def Cautioned (d : ResourceId) : Prop :=
  ¬ Held topology rule kind subject d ∧ (Threatened topology rule kind subject d ∨ Bounded topology rule kind subject d)

end

/-! ## Only registered resources -/

section Registered

variable {topology : Topology} {rule : FaultRule} {kind : FaultKind} {subject : ResourceRecord} {id : DependencyId}
  {e : DependencyEdge} {s d : ResourceId}

theorem Exposes.registered (h : Exposes topology rule id e s d) : topology.resources.has d = true := by
  obtain ⟨r, hr, -⟩ := h.uncontained
  exact (OrderedMap.has_iff _ _).mpr ⟨r, hr⟩

theorem Stale.registered (h : Stale topology d) : topology.resources.has d = true := by
  obtain ⟨r, hr, -⟩ := h
  exact (OrderedMap.has_iff _ _).mpr ⟨r, hr⟩

theorem Seed.registered (hs : topology.resources.has subject.id = true) (h : Seed topology rule kind subject d) :
    topology.resources.has d = true := by
  cases h with
  | subject => exact hs
  | boot _ _ hr _ => exact (OrderedMap.has_iff _ _).mpr ⟨_, hr⟩
  | worker _ _ _ hr _ => exact (OrderedMap.has_iff _ _).mpr ⟨_, hr⟩
  | isolation _ _ hr => exact hr
  | failure _ _ hr => exact hr
  | coIsolated _ _ hr => exact hr

theorem Reached.registered (hs : topology.resources.has subject.id = true) (h : Reached topology rule kind subject d) :
    topology.resources.has d = true := by
  cases h with
  | seed h => exact Seed.registered hs h
  | next _ h =>
    obtain ⟨e, he, -⟩ := h
    exact he.registered

theorem Threatened.registered (h : Threatened topology rule kind subject d) : topology.resources.has d = true := by
  obtain ⟨_, _, -, e, he, -⟩ := h
  exact he.registered

theorem Doubted.registered (h : Doubted topology rule kind subject d) : topology.resources.has d = true := by
  obtain ⟨-, ⟨_, _, -, e, he, -⟩ | ⟨-, hd⟩⟩ := h
  · exact he.registered
  · exact hd.registered

theorem Held.registered (hs : topology.resources.has subject.id = true) (h : Held topology rule kind subject d) :
    topology.resources.has d = true := by
  rcases h with h | h | h
  · exact h.registered hs
  · exact h.2.2.registered
  · exact h.2.2

theorem Cautioned.registered (h : Cautioned topology rule kind subject d) : topology.resources.has d = true := by
  rcases h.2 with h | h
  · exact h.registered
  · exact h.2.2.registered

end Registered

end FaultContainment.Radius
