/-
The fixpoint is exact, and the order of the traversal does not matter.

A radius that was neither escalated nor widened holds exactly the least set that contains the seeds and follows every proven
unconditional edge to a destination not already contained. Any traversal that visits edges out of mandatory resources until
none is left, in any order, ends in the same buckets.

- `settle_unescalated`: without escalation and widening, what is held is what is reached.
- `fixpoint_exact`: the least closed set, and the same buckets from any order of visits.
-/
import FaultContainment.Radius.Partition

namespace FaultContainment.Radius

open FaultContainment.Lib FaultContainment.Ids FaultContainment.Enums FaultContainment.Records
open FaultContainment.Policy FaultContainment.BlastRadius

variable {topology : Topology} {rule : FaultRule} {kind : FaultKind} {subject : ResourceRecord}

/-! ## Neither escalated nor widened -/

/-- a loop over an escalation that leaves its flags alone -/
theorem flags_foldl {α : Type} {f : Escalation → α → Escalation}
    (hf : ∀ e a, (f e a).uncertaintyEscalated = e.uncertaintyEscalated) (as : List α) (e : Escalation) :
    (as.foldl f e).uncertaintyEscalated = e.uncertaintyEscalated := by
  induction as generalizing e with
  | nil => rfl
  | cons a as ih => rw [List.foldl_cons, ih, hf]

theorem containUnresolved_flags (e : Escalation) (id : ResourceId) :
    (containUnresolved topology e id).uncertaintyEscalated = e.uncertaintyEscalated := by
  unfold containUnresolved; split <;> rfl

theorem widenMember_flags (e : Escalation) (m : ResourceId) :
    (widenMember topology e m).uncertaintyEscalated = e.uncertaintyEscalated := by
  unfold widenMember
  split
  · rfl
  · split_ifs <;> rfl

theorem widenExposure_flags (e : Escalation) :
    (widenExposure topology rule subject e).uncertaintyEscalated = e.uncertaintyEscalated := by
  unfold widenExposure
  dsimp only
  split_ifs
  · exact flags_foldl widenMember_flags _ e
  · rfl

/-- contained for doubt, so escalated -/
theorem escalated_flag {w : Walk} (h : Traversed topology rule kind subject w) {d : ResourceId}
    (hd : Escalated topology rule kind subject d) :
    (escalateUnresolved topology rule (noteUnresolved topology subject w)).uncertaintyEscalated = true := by
  obtain ⟨hclosed, hu, hdoubt⟩ := hd
  obtain ⟨-, hf⟩ := noted_noteUnresolved h
  have hm : d ∉ w.mandatorySet := fun hm => hdoubt.1 ((h.mandatory d).mp hm)
  have hids := (mem_unresolvedIds d).mpr ((hf d hm).mpr hdoubt)
  unfold escalateUnresolved
  dsimp only
  rw [if_pos ⟨List.ne_nil_of_mem hids, hclosed⟩, hu]
  exact flags_foldl containUnresolved_flags _ _

/-- **Without escalation and widening, what is held is what is reached.** -/
theorem settle_unescalated {w : Walk} (h : Traversed topology rule kind subject w)
    (hu : (settle topology rule subject w).uncertaintyEscalated = false)
    (hc : (settle topology rule subject w).failClosedApplied = false) (d : ResourceId) :
    Held topology rule kind subject d ↔ Reached topology rule kind subject d := by
  refine ⟨fun hd => ?_, .inl⟩
  rcases hd with hd | hd | hd
  · exact hd
  · rw [settle, widenExposure_flags, escalated_flag h hd] at hu
    simp at hu
  · -- an over-exposed domain is recorded as failed closed
    have hover := (overExposed_iff (grown_escalateUnresolved h)).mpr hd.1
    unfold settle widenExposure at hc
    dsimp only at hc
    rw [if_pos hover] at hc
    simp at hc

/-! ## Any order -/

/-- two readings of the same specification are the same buckets -/
theorem Bucketed.unique {b b' : Buckets} (h : Bucketed topology rule kind subject b)
    (h' : Bucketed topology rule kind subject b') : b = b' := by
  have heq : ∀ {s s' : IdSet .resourceId}, SortedSet s → SortedSet s' → (∀ d, d ∈ s ↔ d ∈ s') → s = s' := by
    intro s s' hs hs' hmem
    have hp := (List.perm_ext_iff_of_nodup (hs.imp fun h => h.ne) (hs'.imp fun h => h.ne)).mpr hmem
    exact hp.eq_of_pairwise (fun a b _ _ hab hba => absurd hba hab.asymm) hs hs'
  obtain ⟨m, p, a, u⟩ := b
  obtain ⟨m', p', a', u'⟩ := b'
  congr 1
  · exact heq h.sorted.1 h'.sorted.1 fun d => (h.mandatory d).trans (h'.mandatory d).symm
  · exact heq h.sorted.2.1 h'.sorted.2.1 fun d => (h.precautionary d).trans (h'.precautionary d).symm
  · exact heq h.sorted.2.2.1 h'.sorted.2.2.1 fun d => (h.unaffected d).trans (h'.unaffected d).symm
  · exact heq h.sorted.2.2.2 h'.sorted.2.2.2 fun d => (h.unresolved d).trans (h'.unresolved d).symm

/-- the walk before the first visit -/
def startWalk (topology : Topology) (rule : FaultRule) (kind : FaultKind) (subject : ResourceRecord) : Walk where
  acc := structuralInclusions topology rule kind subject
  mandatorySet := includedIds (structuralInclusions topology rule kind subject)
  frontier := includedIds (structuralInclusions topology rule kind subject)

/-- the visits, in any order, of edges out of resources mandatory by then, until no such edge is left -/
structure Order (topology : Topology) (rule : FaultRule) (vs : List (ResourceId × DependencyId)) (w : Walk) : Prop where
  visitable : Runs.Along (takeEdge topology rule) (Visitable topology) vs w
  exhausted : ∀ s ∈ (Runs.run (takeEdge topology rule) vs w).mandatorySet, ∀ id ∈ outgoingOf topology s,
    ∃ v ∈ vs, v.2 = id

/-- a traversal in any order knows everything -/
theorem Order.traversed (hw : WellFormed topology) (hs : topology.resources.has subject.id = true)
    {vs : List (ResourceId × DependencyId)} (h : Order topology rule vs (startWalk topology rule kind subject)) :
    Traversed topology rule kind subject
      (Runs.run (takeEdge topology rule) vs (startWalk topology rule kind subject)) := by
  have ht : Tracked topology rule kind subject ∅ (startWalk topology rule kind subject) :=
    .start hw.keyed hs rfl rfl rfl
  exact (ht.visits hw vs h.visitable).traversed hw fun s hs id hid => .inr (h.exhausted s hs id hid)

/-- **The fixpoint is exact.** For a well-formed input whose radius was neither escalated nor widened, the mandatory bucket is
the least set that contains the seeds and follows every proven unconditional edge over a propagating kind to a destination not
already contained; and every order of visits leads to the same buckets. -/
theorem fixpoint_exact (input : BlastRadiusInput) (hw : WellFormed input.topology) {subject : ResourceRecord}
    (hs : input.topology.resources.find input.fault.evidence.subject = some subject) {radius : Records.BlastRadius}
    (h : computeBlastRadius input = .ok radius) (hu : radius.uncertaintyEscalated = false)
    (hc : radius.failClosedApplied = false) :
    let rule := input.policy.ruleFor input.fault.evidence.kind
    let kind := input.fault.evidence.kind
    IsLeast {S : Set ResourceId |
        Closure.Closed {i | Seed input.topology rule kind subject i} (Hard input.topology rule) S}
      {d | d ∈ radius.mandatory} ∧
    ∀ vs, Order input.topology rule vs (startWalk input.topology rule kind subject) →
      bucketsOf input.topology subject (settle input.topology rule subject
        (Runs.run (takeEdge input.topology rule) vs (startWalk input.topology rule kind subject))) =
        buckets radius := by
  intro rule kind
  have hreg := has_of_find hw.keyed hs
  have htrav := (@traversed_propagate _ rule kind _ hw hreg).2
  obtain ⟨hok, hspec, -⟩ := computeBlastRadius_spec hw hs
  obtain rfl := Except.ok.inj (hok.symm.trans h)
  constructor
  · have hset : {d | d ∈ (radiusOf input subject).mandatory} =
        {d | Closure.Reach {i | Seed input.topology rule kind subject i} (Hard input.topology rule) d} := by
      ext d
      exact (hspec.mandatory d).trans (settle_unescalated htrav hu hc d)
    rw [hset]
    exact Closure.isLeast_reach _ _
  · intro vs hvs
    exact (buckets_spec hw.keyed (grown_settle (hvs.traversed hw hreg))).unique hspec

/-- the middle resource of the row -/
def middle : ResourceRecord := { id := ⟨2⟩, freshness := .fresh }

/-- the middle resource of the row has failed, under the default policy -/
def middleInput : BlastRadiusInput :=
  { chainInput with fault := { evidence := { id := ⟨1⟩, kind := .processDeath, subject := ⟨2⟩ } } }

theorem fixpoint_exact_middle :
    IsLeast {S : Set ResourceId |
        Closure.Closed {i | Seed chain (makeDefaultPolicy.ruleFor .processDeath) .processDeath middle i}
          (Hard chain (makeDefaultPolicy.ruleFor .processDeath)) S}
      {d | d ∈ (radiusOf middleInput middle).mandatory} ∧
    ∀ vs, Order chain (makeDefaultPolicy.ruleFor .processDeath) vs
        (startWalk chain (makeDefaultPolicy.ruleFor .processDeath) .processDeath middle) →
      bucketsOf chain middle (settle chain (makeDefaultPolicy.ruleFor .processDeath) middle
        (Runs.run (takeEdge chain (makeDefaultPolicy.ruleFor .processDeath)) vs
          (startWalk chain (makeDefaultPolicy.ruleFor .processDeath) .processDeath middle))) =
        buckets (radiusOf middleInput middle) :=
  fixpoint_exact middleInput chain_wellFormed
    (by show chain.resources.find ⟨2⟩ = _; rw [chain, OrderedMap.find_ofRecords _ _ (by decide)]; rfl)
    (computeBlastRadius_spec chain_wellFormed
      (by show chain.resources.find ⟨2⟩ = _; rw [chain, OrderedMap.find_ofRecords _ _ (by decide)]; rfl)).1
    (by decide +kernel) (by decide +kernel)

end FaultContainment.Radius
