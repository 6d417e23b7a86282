/-
Edges out of the contained set.

Every edge out of what the traversal reached is accounted for in the buckets. The phases that grow the set afterwards follow no
edges: a resource contained for doubt, or with its isolation domain, may have a proven edge to a resource recorded as
unaffected. The buckets account for every edge out of the contained set exactly when the edges out of the resources added late
lead nowhere new.

- `leak_free_iff`: every edge out of the mandatory bucket is accounted for exactly when the late resources are sealed.
- `chain_leaks`: a resource contained for doubt has a proven edge to an unaffected one.
-/
import FaultContainment.Radius.Partition

namespace FaultContainment.Radius

open FaultContainment.Lib FaultContainment.Ids FaultContainment.Enums FaultContainment.Records
open FaultContainment.Policy FaultContainment.BlastRadius

section

variable (topology : Topology) (rule : FaultRule) (kind : FaultKind) (subject : ResourceRecord)

/-- where the buckets must put the destination of an edge out of the mandatory set -/
structure Accounted (radius : Records.BlastRadius) (e : DependencyEdge) (d : ResourceId) : Prop where
  hard : Proven e → ¬ Conditional rule e → d ∈ radius.mandatory
  soft : Proven e → Conditional rule e → d ∈ radius.mandatory ∨ d ∈ radius.precautionary
  doubtful : ¬ Proven e → d ∉ radius.unaffected

/-- every propagating edge out of the mandatory bucket to a destination not already contained is accounted for -/
def LeakFree (radius : Records.BlastRadius) : Prop :=
  ∀ id e s d, Exposes topology rule id e s d → s ∈ radius.mandatory → Accounted rule radius e d

/-- added after the traversal, for doubt or with an over-exposed isolation domain -/
def Late (s : ResourceId) : Prop :=
  ¬ Reached topology rule kind subject s ∧
    (Escalated topology rule kind subject s ∨ Widened topology rule kind subject s)

/-- no edge out of a late resource leads anywhere new: hard edges stay within the contained set, soft ones lead no further
than what is drained anyway, doubtful ones no further than what is open anyway -/
structure Sealed : Prop where
  hard : ∀ id s d, Late topology rule kind subject s → Hard topology rule id s d → Held topology rule kind subject d
  soft : ∀ id s d, Late topology rule kind subject s → Soft topology rule id s d →
    Held topology rule kind subject d ∨ Threatened topology rule kind subject d ∨ Bounded topology rule kind subject d
  doubtful : ∀ id s d, Late topology rule kind subject s → Doubtful topology rule id s d →
    Held topology rule kind subject d ∨ Threatened topology rule kind subject d ∨
      Bounded topology rule kind subject d ∨ Open topology rule kind subject d

end

variable {topology : Topology} {rule : FaultRule} {kind : FaultKind} {subject : ResourceRecord}

/-- Edges out of what the traversal reached are accounted for. -/
theorem Bucketed.reached {radius : Records.BlastRadius}
    (h : Bucketed topology rule kind subject (buckets radius)) {id : DependencyId} {e : DependencyEdge}
    {s d : ResourceId} (he : Exposes topology rule id e s d) (hs : Reached topology rule kind subject s) :
    Accounted rule radius e d where
  hard hp hc := (h.mandatory d).mpr (.inl (.next hs ⟨e, he, hp, hc⟩))
  soft hp hc := by
    by_cases hh : Held topology rule kind subject d
    · exact .inl ((h.mandatory d).mpr hh)
    · exact .inr ((h.precautionary d).mpr ⟨hh, .inl ⟨id, s, hs, e, he, hp, hc⟩⟩)
  doubtful hp hd := by
    obtain ⟨-, hh, -, ho⟩ := (h.unaffected d).mp hd
    exact ho (.inl ⟨fun hr => hh (.inl hr), .inl ⟨id, s, hs, e, he, hp⟩⟩)

/-- **Which radii leak nothing.** For a well-formed input, every propagating edge out of the mandatory bucket is accounted for
exactly when no edge out of a resource added late leads anywhere new. -/
theorem leak_free_iff (input : BlastRadiusInput) (hw : WellFormed input.topology) {subject : ResourceRecord}
    (hs : input.topology.resources.find input.fault.evidence.subject = some subject) :
    let rule := input.policy.ruleFor input.fault.evidence.kind
    ∃ radius, computeBlastRadius input = .ok radius ∧
      (LeakFree input.topology rule radius ↔ Sealed input.topology rule input.fault.evidence.kind subject) := by
  intro rule
  obtain ⟨hok, h, -⟩ := computeBlastRadius_spec hw hs
  refine ⟨radiusOf input subject, hok, fun hfree => ?_, fun hsealed id e s d he hm => ?_⟩
  · have hlate : ∀ s, Late input.topology rule input.fault.evidence.kind subject s →
        s ∈ (radiusOf input subject).mandatory := fun s hl => (h.mandatory s).mpr (.inr hl.2)
    refine ⟨fun id s d hl hd => ?_, fun id s d hl hd => ?_, fun id s d hl hd => ?_⟩
    · obtain ⟨e, he, hp, hc⟩ := hd
      exact (h.mandatory d).mp ((hfree id e s d he (hlate s hl)).hard hp hc)
    · obtain ⟨e, he, hp, hc⟩ := hd
      rcases (hfree id e s d he (hlate s hl)).soft hp hc with hd | hd
      · exact .inl ((h.mandatory d).mp hd)
      · exact .inr ((h.precautionary d).mp hd).2
    · obtain ⟨e, he, hp⟩ := hd
      have hn := (hfree id e s d he (hlate s hl)).doubtful hp
      by_contra hcon
      push Not at hcon
      obtain ⟨hh, ht, hb, ho⟩ := hcon
      refine hn ((h.unaffected d).mpr ⟨he.registered, hh, fun hca => ?_, ho⟩)
      exact hca.2.elim ht hb
  · by_cases hr : Reached input.topology rule input.fault.evidence.kind subject s
    · exact h.reached he hr
    · have hl : Late input.topology rule input.fault.evidence.kind subject s :=
        ⟨hr, ((h.mandatory s).mp hm).resolve_left hr⟩
      refine ⟨fun hp hc => ?_, fun hp hc => ?_, fun hp hd => ?_⟩
      · exact (h.mandatory d).mpr (hsealed.hard id s d hl ⟨e, he, hp, hc⟩)
      · by_cases hh : Held input.topology rule input.fault.evidence.kind subject d
        · exact .inl ((h.mandatory d).mpr hh)
        · have hd := (hsealed.soft id s d hl ⟨e, he, hp, hc⟩).resolve_left hh
          exact .inr ((h.precautionary d).mpr ⟨hh, hd⟩)
      · obtain ⟨-, hh, hca, ho⟩ := (h.unaffected d).mp hd
        rcases hsealed.doubtful id s d hl ⟨e, he, hp⟩ with hd | hd | hd | hd
        · exact hh hd
        · exact hca ⟨hh, .inl hd⟩
        · exact hca ⟨hh, .inr hd⟩
        · exact ho hd

/-- the row of resources with a proven edge back to the first, where the second led on -/
def circle : Topology where
  generation := chain.generation
  resources := chain.resources
  dependencies := Dependency.insertEdge (Dependency.insertEdge {} { id := ⟨1⟩, source := ⟨1⟩, destination := ⟨2⟩ })
    { id := ⟨2⟩, source := ⟨2⟩, destination := ⟨1⟩, freshness := .fresh, integrity := .verified }

theorem circle_wellFormed : WellFormed circle where
  keyed := chain_wellFormed.keyed
  valid := chain_wellFormed.valid
  indexed := (indexed_empty.insertEdge (by simp)).insertEdge (by rw [Dependency.find_insertEdge]; simp)

/-- the edge out of a late resource of the circle leads back to the subject -/
theorem circle_sealed : Sealed circle (makeDefaultPolicy.ruleFor .processDeath) .processDeath
    { id := ⟨1⟩, freshness := .fresh } := by
  have hback : ∀ id e s d, Late circle (makeDefaultPolicy.ruleFor .processDeath) .processDeath
      { id := ⟨1⟩, freshness := .fresh } s → Exposes circle (makeDefaultPolicy.ruleFor .processDeath) id e s d → d = ⟨1⟩ := by
    rintro id e s d hlate ⟨hstored, hsource, hdestination, -, -⟩
    rw [circle, Dependency.find_insertEdge, Dependency.find_insertEdge] at hstored
    split_ifs at hstored
    · rw [← hdestination, ← Option.some.inj hstored]
    · rw [← Option.some.inj hstored] at hsource
      exact absurd (.seed (hsource ▸ .subject)) hlate.1
    · exact absurd hstored (by simp)
  have hheld : ∀ d, d = ⟨1⟩ → Held circle (makeDefaultPolicy.ruleFor .processDeath) .processDeath
      { id := ⟨1⟩, freshness := .fresh } d := fun d hd => hd ▸ .inl (.seed .subject)
  refine ⟨?_, ?_, ?_⟩
  · rintro id s d hlate ⟨e, he, -⟩
    exact hheld d (hback id e s d hlate he)
  · rintro id s d hlate ⟨e, he, -⟩
    exact .inl (hheld d (hback id e s d hlate he))
  · rintro id s d hlate ⟨e, he, -⟩
    exact .inl (hheld d (hback id e s d hlate he))

/-- The second resource is contained for doubt, and nothing leaks. -/
theorem leak_free_iff_circle : ∃ radius, computeBlastRadius { chainInput with topology := circle } = .ok radius ∧
    ⟨2⟩ ∈ radius.mandatory ∧ LeakFree circle (makeDefaultPolicy.ruleFor .processDeath) radius := by
  have hfirst : circle.resources.find ⟨1⟩ = some { id := ⟨1⟩, freshness := .fresh } := by
    rw [circle, chain, OrderedMap.find_ofRecords _ _ (by decide)]
    rfl
  obtain ⟨radius, hradius, hiff⟩ := leak_free_iff { chainInput with topology := circle } circle_wellFormed hfirst
  refine ⟨radius, hradius, ?_, hiff.mpr circle_sealed⟩
  obtain rfl := Except.ok.inj ((computeBlastRadius_spec circle_wellFormed hfirst).1.symm.trans hradius)
  decide +kernel

/-- The second resource is contained because the evidence of the edge to it is missing; the third, one proven edge further, is
recorded as unaffected. -/
theorem chain_leaks :
    computeBlastRadius chainInput = .ok (radiusOf chainInput { id := ⟨1⟩, freshness := .fresh }) ∧
      ⟨2⟩ ∈ (radiusOf chainInput { id := ⟨1⟩, freshness := .fresh }).mandatory ∧
      ⟨3⟩ ∈ (radiusOf chainInput { id := ⟨1⟩, freshness := .fresh }).unaffected ∧
      ¬ LeakFree chain (makeDefaultPolicy.ruleFor .processDeath)
        (radiusOf chainInput { id := ⟨1⟩, freshness := .fresh }) := by
  have hfind : ∀ id, chain.resources.find id = _ := fun id => by
    rw [chain, OrderedMap.find_ofRecords _ _ (by decide)]
  refine ⟨(computeBlastRadius_spec chain_wellFormed (hfind ⟨1⟩)).1, by decide +kernel, by decide +kernel, fun h => ?_⟩
  have he : Exposes chain (makeDefaultPolicy.ruleFor .processDeath) ⟨2⟩
      { id := ⟨2⟩, source := ⟨2⟩, destination := ⟨3⟩, freshness := .fresh, integrity := .verified } ⟨2⟩ ⟨3⟩ :=
    ⟨by rw [chain, Dependency.find_insertEdge]; rfl, rfl, rfl, by decide +kernel, _, hfind ⟨3⟩, by decide⟩
  have hm := (h _ _ _ _ he (by decide +kernel)).hard ⟨rfl, rfl⟩ (by unfold Conditional; decide +kernel)
  exact absurd hm (by decide +kernel)

end FaultContainment.Radius
