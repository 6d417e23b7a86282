/-
Degraded-mode envelopes: what an assessment permits, and when it may be relied on.

An assessment surveys the resources, is judged, and only then cut down to what the contract allows. Its permitted resources are
always usable, listed and of a legal class. Its status and authorization were decided before the cut: they describe the final
sets exactly when the state and the contract are `Sound` to begin with.

- `surveyed`: what the loop over the resources finds.
- `filled`: what an assessment is, with a contract or without one.
- `permitted_stored`: every permitted resource is usable and within the contract.
- `sound_iff`: the stored assessment is sound exactly when the state warrants the contract.
- `degraded_run_iff`: the same along every run of the engine.
-/
import FaultContainment.Lib.Runs
import FaultContainment.Engine.Frame

namespace FaultContainment.Degraded

open FaultContainment.Lib FaultContainment.Ids FaultContainment.Enums FaultContainment.Records
open FaultContainment.BlastRadius FaultContainment.Engine

/-! ## What the state offers -/

/-- fresh evidence, not contained, and operable -/
def usable (r : ResourceRecord) : Bool := r.freshness = .fresh && !resourceIsContained r && isOperable r.state

/-- counts towards redundancy -/
def redundant (r : ResourceRecord) : Bool :=
  r.resourceClass = .worker || r.resourceClass = .service || r.resourceClass = .serviceReplicaGroup

/-- a live containment has the resource among its members -/
def Claimed (s : RuntimeSnapshot) (d : ResourceId) : Prop :=
  ∃ c ∈ s.containments.vals, containmentIsLive c.status = true ∧
    (d ∈ c.mandatory ∧ idSetContains c.released d = false ∨ d ∈ c.precautionary)

/-- the contract lets the resource be permitted -/
def within (contract : DegradedModeContract) (t : Topology) (r : ResourceRecord) : Bool :=
  usable r && allowedBy contract t r.id && contract.prohibitedResources.all (decide <| · ≠ r.id)

/-- no containment is live and all evidence is fresh -/
def AllClear (s : RuntimeSnapshot) : Prop :=
  (∀ c ∈ s.containments.vals, containmentIsLive c.status = false) ∧ ∀ r ∈ s.topology.resources.vals, r.freshness = .fresh

/-- the survey, before the contract's lists, authorizes degraded operation -/
def Offers (s : RuntimeSnapshot) (contract : DegradedModeContract) : Prop :=
  AllClear s ∨ (∃ r ∈ s.topology.resources.vals, usable r = true) ∧
    contract.requiredRedundancy ≤
      UInt32.ofNat (s.topology.resources.vals.filter fun r => usable r && redundant r).length

/-- nothing usable is claimed by a live containment or prohibited by the contract -/
def Apart (s : RuntimeSnapshot) (contract : DegradedModeContract) : Prop :=
  ∀ r ∈ s.topology.resources.vals, usable r = true → ¬ Claimed s r.id ∧ r.id ∉ contract.prohibitedResources

/-- the state warrants the contract: nothing usable is claimed or prohibited; what the survey offers survives the contract's
lists; and when all is clear nothing is contained -/
structure Warrants (s : RuntimeSnapshot) (contract : DegradedModeContract) : Prop where
  apart : Apart s contract
  backed : Offers s contract →
    (∃ r ∈ s.topology.resources.vals, within contract s.topology r = true) ∧
      contract.requiredRedundancy.toNat ≤
        (s.topology.resources.vals.filter fun r => within contract s.topology r && redundant r).length
  clear : AllClear s → ∀ r ∈ s.topology.resources.vals, resourceIsContained r = false

section Decidable

variable (s : RuntimeSnapshot) (contract : DegradedModeContract)

instance (d : ResourceId) : Decidable (Claimed s d) := inferInstanceAs (Decidable (∃ c ∈ s.containments.vals, _))

instance : Decidable (AllClear s) := inferInstanceAs (Decidable (_ ∧ _))

instance : Decidable (Offers s contract) := inferInstanceAs (Decidable (_ ∨ _))

instance : Decidable (Apart s contract) := inferInstanceAs (Decidable (∀ r ∈ s.topology.resources.vals, _))

instance : Decidable (Warrants s contract) :=
  decidable_of_iff (Apart s contract ∧ (Offers s contract → _) ∧ (AllClear s → _))
    ⟨fun h => ⟨h.1, h.2.1, h.2.2⟩, fun h => ⟨h.apart, h.backed, h.clear⟩⟩

end Decidable

/-! ## What an assessment promises -/

/-- the resource is stored, and counts towards redundancy -/
def redundantIn (t : Topology) (d : ResourceId) : Bool := (t.resources.find d).any redundant

/-- the assessment of a contract is sound -/
structure Sound (t : Topology) (contract : DegradedModeContract) (a : DegradedModeAssessment) : Prop where
  disjoint : ∀ d ∈ a.permitted, d ∉ a.prohibited
  permitted : ∀ d ∈ a.permitted, ∃ r, t.resources.find d = some r ∧ r.quarantined = false ∧
    isContained r.state = false ∧ r.freshness = .fresh ∧ isOperable r.state = true ∧
    d ∉ contract.prohibitedResources ∧
    (contract.permittedResources ≠ [] → d ∈ contract.permittedResources) ∧
    (contract.legalWorkloadClasses ≠ [] → r.resourceClass ∈ contract.legalWorkloadClasses)
  authorized : a.authorized = true → a.permitted ≠ [] ∧
    contract.requiredRedundancy.toNat ≤ (a.permitted.filter (redundantIn t)).length
  normal : a.status = .normal → ∀ d r, t.resources.find d = some r → r.quarantined = false ∧ isContained r.state = false
  unsafe_ : a.status = .degradedUnsafe → ∃ d ∈ a.permitted, d ∈ a.prohibited

/-! ## The survey -/

/-- what the loop over the resources adds to an assessment -/
structure Surveyed (rs : List ResourceRecord) (a a' : DegradedModeAssessment) : Prop where
  permitted : ∀ d, d ∈ a'.permitted ↔ d ∈ a.permitted ∨ ∃ r ∈ rs, r.id = d ∧ usable r = true
  permittedSorted : SortedSet a.permitted → SortedSet a'.permitted
  revalidation : ∀ d, d ∈ a'.revalidationRequired ↔
    d ∈ a.revalidationRequired ∨ ∃ r ∈ rs, r.id = d ∧ r.freshness ≠ .fresh
  prohibited : ∀ d, d ∈ a'.prohibited ↔ d ∈ a.prohibited ∨ ∃ r ∈ rs, r.id = d ∧ resourceIsContained r = true
  redundancy : a'.availableRedundancy =
    a.availableRedundancy + UInt32.ofNat (rs.filter fun r => usable r && redundant r).length
  rest : a'.contract = a.contract ∧ a'.status = a.status ∧ a'.authorized = a.authorized ∧
    a'.requiredRedundancy = a.requiredRedundancy

/-- a contained resource is prohibited; one prohibited already stays so -/
def prohibitContained (a : DegradedModeAssessment) (r : ResourceRecord) : DegradedModeAssessment :=
  if resourceIsContained r ∨ idSetContains a.prohibited r.id then
    { a with prohibited := idSetInsert a.prohibited r.id }
  else a

theorem prohibitContained_spec (a : DegradedModeAssessment) (r : ResourceRecord) :
    ∃ s, prohibitContained a r = { a with prohibited := s } ∧
      ∀ d, d ∈ s ↔ d ∈ a.prohibited ∨ r.id = d ∧ resourceIsContained r = true := by
  unfold prohibitContained
  split_ifs with hp
  · refine ⟨_, rfl, fun d => ?_⟩
    rw [mem_idSetInsert]
    rcases hp with hp | hp
    · simp [hp, or_comm, eq_comm]
    · have hm := mem_of_idSetContains hp
      constructor
      · rintro (rfl | hd)
        · exact .inl hm
        · exact .inl hd
      · rintro (hd | ⟨rfl, -⟩)
        · exact .inr hd
        · exact .inl rfl
  · rw [not_or] at hp
    exact ⟨a.prohibited, rfl, fun d => by simp [hp.1]⟩

theorem mem_insert_one {s : IdSet .resourceId} {r : ResourceRecord} {P : ResourceRecord → Prop} (hr : P r)
    (d : ResourceId) : d ∈ idSetInsert s r.id ↔ d ∈ s ∨ ∃ x ∈ [r], x.id = d ∧ P x := by
  rw [mem_idSetInsert]
  constructor
  · rintro (rfl | hd)
    · exact .inr ⟨r, List.mem_singleton_self r, rfl, hr⟩
    · exact .inl hd
  · rintro (hd | ⟨x, hx, rfl, -⟩)
    · exact .inr hd
    · exact .inl (by rw [List.mem_singleton.mp hx])

theorem assessResource_eq (a : DegradedModeAssessment) (r : ResourceRecord) : assessResource a r =
    let a := prohibitContained a r
    if r.freshness ≠ .fresh then { a with revalidationRequired := idSetInsert a.revalidationRequired r.id }
    else if resourceIsContained r then a
    else if ¬ isOperable r.state then a
    else { a with
      permitted := idSetInsert a.permitted r.id
      availableRedundancy :=
        if r.resourceClass = .worker ∨ r.resourceClass = .service ∨ r.resourceClass = .serviceReplicaGroup then
          a.availableRedundancy + 1
        else a.availableRedundancy } := rfl

/-- what one resource adds -/
theorem surveyed_one (a : DegradedModeAssessment) (r : ResourceRecord) : Surveyed [r] a (assessResource a r) := by
  obtain ⟨s, hs, hmem⟩ := prohibitContained_spec a r
  rw [assessResource_eq, hs]
  dsimp only
  by_cases hf : r.freshness = .fresh
  · rw [if_neg (not_not.mpr hf)]
    by_cases hu : usable r = true
    · have hcont : resourceIsContained r = false ∧ isOperable r.state = true := by
        simpa [usable, hf] using hu
      rw [if_neg (by simp [hcont.1]), if_neg (by simp [hcont.2])]
      have hred : (r.resourceClass = .worker ∨ r.resourceClass = .service ∨ r.resourceClass = .serviceReplicaGroup) ↔
          redundant r = true := by simp [redundant, or_assoc]
      refine ⟨fun d => ?_, fun h => sorted_idSetInsert h _, fun d => ?_, fun d => ?_, ?_, rfl, rfl, rfl, rfl⟩
      · exact mem_insert_one (P := fun x => usable x = true) hu d
      · simp [hf]
      · simp [hmem]
      · simp only [hred]
        cases hrd : redundant r <;> simp [hu, hrd]
    · have hnot : resourceIsContained r = false → isOperable r.state = false := by
        intro hc
        simpa [usable, hf, hc] using hu
      have heq : (if resourceIsContained r = true then { a with prohibited := s }
          else if ¬ isOperable r.state = true then { a with prohibited := s }
          else { a with
            prohibited := s
            permitted := idSetInsert a.permitted r.id
            availableRedundancy :=
              if r.resourceClass = .worker ∨ r.resourceClass = .service ∨ r.resourceClass = .serviceReplicaGroup then
                a.availableRedundancy + 1
              else a.availableRedundancy }) = { a with prohibited := s } := by
        cases hc : resourceIsContained r with
        | true => rfl
        | false => rw [if_neg (by simp), if_pos (by simp [hnot hc])]
      rw [heq]
      refine ⟨fun d => ?_, fun h => h, fun d => ?_, fun d => ?_, ?_, rfl, rfl, rfl, rfl⟩
      · simp [hu]
      · simp [hf]
      · simp [hmem]
      · simp [hu]
  · rw [if_pos hf]
    have hu : usable r = false := by simp [usable, hf]
    refine ⟨fun d => ?_, fun h => h, fun d => ?_, fun d => ?_, ?_, rfl, rfl, rfl, rfl⟩
    · simp [hu]
    · exact mem_insert_one (P := fun x => x.freshness ≠ .fresh) hf d
    · simp [hmem]
    · simp [hu]

/-- **What the loop over the resources finds.** -/
theorem surveyed (rs : List ResourceRecord) (a : DegradedModeAssessment) : Surveyed rs a (rs.foldl assessResource a) := by
  induction rs generalizing a with
  | nil => exact ⟨by simp, fun h => h, by simp, by simp, by simp, rfl, rfl, rfl, rfl⟩
  | cons r rs ih =>
    have h1 := surveyed_one a r
    have h2 := ih (assessResource a r)
    rw [List.foldl_cons]
    refine ⟨fun d => ?_, h2.permittedSorted ∘ h1.permittedSorted, fun d => ?_, fun d => ?_, ?_, ?_⟩
    · rw [h2.permitted, h1.permitted]; simp [or_assoc]
    · rw [h2.revalidation, h1.revalidation]; simp [or_assoc]
    · rw [h2.prohibited, h1.prohibited]; simp [or_assoc]
    · rw [h2.redundancy, h1.redundancy, UInt32.add_assoc, ← UInt32.ofNat_add, ← List.length_append,
        ← List.filter_append, List.singleton_append]
    · exact ⟨h2.rest.1.trans h1.rest.1, h2.rest.2.1.trans h1.rest.2.1, h2.rest.2.2.1.trans h1.rest.2.2.1,
        h2.rest.2.2.2.trans h1.rest.2.2.2⟩

/-! ## The assessment -/

theorem mem_foldl_insert (ids : List ResourceId) (s : IdSet .resourceId) (d : ResourceId) :
    d ∈ ids.foldl idSetInsert s ↔ d ∈ s ∨ d ∈ ids := by
  induction ids generalizing s with
  | nil => simp
  | cons i ids ih =>
    rw [List.foldl_cons, ih, mem_idSetInsert, List.mem_cons]
    tauto

theorem mem_foldl_insert_unless (p : ResourceId → Bool) (ids : List ResourceId) (s : IdSet .resourceId)
    (d : ResourceId) :
    d ∈ ids.foldl (fun s i => if p i then s else idSetInsert s i) s ↔ d ∈ s ∨ d ∈ ids ∧ p d = false := by
  induction ids generalizing s with
  | nil => simp
  | cons i ids ih =>
    rw [List.foldl_cons, ih]
    cases hp : p i with
    | true =>
      have hne : p d = false → d ≠ i := by
        rintro hd rfl
        simp [hp] at hd
      simp only [if_true, List.mem_cons]
      exact or_congr_right (and_congr_left fun hd => by simp [hne hd])
    | false =>
      simp only [Bool.false_eq_true, if_false, mem_idSetInsert, List.mem_cons]
      constructor
      · rintro ((rfl | hd) | hd)
        · exact .inr ⟨.inl rfl, hp⟩
        · exact .inl hd
        · exact .inr ⟨.inr hd.1, hd.2⟩
      · rintro (hd | ⟨rfl | hd, hd'⟩)
        · exact .inl (.inr hd)
        · exact .inl (.inl rfl)
        · exact .inr ⟨hd, hd'⟩

theorem mem_prohibitedBy (cs : List ContainmentRecord) (s : IdSet .resourceId) (d : ResourceId) :
    d ∈ cs.foldl prohibitedBy s ↔
      d ∈ s ∨ ∃ c ∈ cs, d ∈ c.mandatory ∧ idSetContains c.released d = false ∨ d ∈ c.precautionary := by
  induction cs generalizing s with
  | nil => simp
  | cons c cs ih =>
    rw [List.foldl_cons, ih, prohibitedBy, mem_foldl_insert, mem_foldl_insert_unless (fun i => idSetContains c.released i)]
    simp only [List.mem_cons, exists_eq_or_imp, or_assoc]

/-- an assessment before the contract's lists are applied -/
structure Assessed (s : RuntimeSnapshot) (contract : DegradedModeContract) (id : DegradedModeId)
    (a : DegradedModeAssessment) : Prop where
  named : a.contract = id
  permitted : ∀ d, d ∈ a.permitted ↔ ∃ r ∈ s.topology.resources.vals, r.id = d ∧ usable r = true
  sorted : SortedSet a.permitted
  revalidation : ∀ d, d ∈ a.revalidationRequired ↔ ∃ r ∈ s.topology.resources.vals, r.id = d ∧ r.freshness ≠ .fresh
  prohibited : ∀ d, d ∈ a.prohibited ↔ (Claimed s d ∨ d ∈ contract.prohibitedResources) ∨
    ∃ r ∈ s.topology.resources.vals, r.id = d ∧ resourceIsContained r = true
  redundancy : a.requiredRedundancy = contract.requiredRedundancy
  overlapping : ¬ Apart s contract → a.status = .degradedUnsafe ∧ a.authorized = false
  clear : Apart s contract → AllClear s → a.status = .normal
  unclear : Apart s contract → ¬ AllClear s → a.status ≠ .normal
  safe : Apart s contract → a.status ≠ .degradedUnsafe
  authorized : Apart s contract → (a.authorized = true ↔ Offers s contract)
  enough : a.status = .degradedAuthorized → a.requiredRedundancy ≤ a.availableRedundancy

theorem degradedSetsAreDisjoint_iff (a : DegradedModeAssessment) : degradedSetsAreDisjoint a = true ↔
    ∀ d ∈ a.permitted, d ∉ a.prohibited ∧ d ∉ a.revalidationRequired := by
  simp only [degradedSetsAreDisjoint, Bool.and_eq_true, List.all_eq_true, decide_eq_true_eq]
  constructor
  · intro ⟨h1, h2⟩ d hd
    exact ⟨fun hp => h1 d hd d hp rfl, fun hr => h2 d hd d hr rfl⟩
  · intro h
    exact ⟨fun p hp q hq he => (h p hp).1 (he ▸ hq), fun p hp q hq he => (h p hp).2 (he ▸ hq)⟩

/-- what the ladder makes of a filled-in assessment -/
theorem judge_cases (anyLive : Bool) (a : DegradedModeAssessment) (hauth : a.authorized = false) :
    (judge anyLive a).contract = a.contract ∧ (judge anyLive a).permitted = a.permitted ∧
      (judge anyLive a).prohibited = a.prohibited ∧ (judge anyLive a).revalidationRequired = a.revalidationRequired ∧
      (judge anyLive a).requiredRedundancy = a.requiredRedundancy ∧
      (judge anyLive a).availableRedundancy = a.availableRedundancy ∧
      (degradedSetsAreDisjoint a = false → (judge anyLive a).status = .degradedUnsafe ∧
        (judge anyLive a).authorized = false) ∧
      (degradedSetsAreDisjoint a = true → (judge anyLive a).status ≠ .degradedUnsafe ∧
        ((judge anyLive a).status = .normal ↔ anyLive = false ∧ a.revalidationRequired = []) ∧
        ((judge anyLive a).authorized = true ↔ (anyLive = false ∧ a.revalidationRequired = []) ∨
          a.permitted ≠ [] ∧ a.requiredRedundancy ≤ a.availableRedundancy)) ∧
      ((judge anyLive a).status = .degradedAuthorized → a.requiredRedundancy ≤ a.availableRedundancy) := by
  unfold judge
  split_ifs with h1 h2 h3 h4 h5 h6 <;> simp_all

/-- a record is the only one under its identity -/
theorem vals_unique {t : Topology} (hk : OrderedMap.Keyed ResourceRecord.id t.resources) {r r' : ResourceRecord}
    (hr : r ∈ t.resources.vals) (hr' : r' ∈ t.resources.vals) (h : r.id = r'.id) : r = r' := by
  obtain ⟨k, hf⟩ := (OrderedMap.mem_vals _ r).mp hr
  obtain ⟨k', hf'⟩ := (OrderedMap.mem_vals _ r').mp hr'
  have hkk : k = k' := (hk k r hf).symm.trans (h.trans (hk k' r' hf'))
  exact Option.some.inj (hf.symm.trans (hkk ▸ hf'))

theorem usable_spec {r : ResourceRecord} (h : usable r = true) :
    r.freshness = .fresh ∧ resourceIsContained r = false ∧ isOperable r.state = true := by
  simpa [usable, and_assoc] using h

/-- a filled-in and judged assessment, with a contract or without one -/
structure Filled (s : RuntimeSnapshot) (contract : Option DegradedModeContract) (id : DegradedModeId)
    (a : DegradedModeAssessment) : Prop where
  named : a.contract = id
  permitted : ∀ d, d ∈ a.permitted ↔ ∃ r ∈ s.topology.resources.vals, r.id = d ∧ usable r = true
  sorted : SortedSet a.permitted
  revalidation : ∀ d, d ∈ a.revalidationRequired ↔ ∃ r ∈ s.topology.resources.vals, r.id = d ∧ r.freshness ≠ .fresh
  revalidationSorted : SortedSet a.revalidationRequired
  prohibited : ∀ d, d ∈ a.prohibited ↔ (Claimed s d ∨ ∃ c ∈ contract, d ∈ c.prohibitedResources) ∨
    ∃ r ∈ s.topology.resources.vals, r.id = d ∧ resourceIsContained r = true
  required : a.requiredRedundancy = (contract.map DegradedModeContract.requiredRedundancy).getD 1
  available : a.availableRedundancy =
    UInt32.ofNat (s.topology.resources.vals.filter fun r => usable r && redundant r).length
  overlapping : degradedSetsAreDisjoint a = false → a.status = .degradedUnsafe ∧ a.authorized = false
  apart : degradedSetsAreDisjoint a = true → a.status ≠ .degradedUnsafe ∧ (a.status = .normal ↔ AllClear s) ∧
    (a.authorized = true ↔ AllClear s ∨ a.permitted ≠ [] ∧ a.requiredRedundancy ≤ a.availableRedundancy)
  enough : a.status = .degradedAuthorized → a.requiredRedundancy ≤ a.availableRedundancy

theorem assessResource_revalidation (a : DegradedModeAssessment) (r : ResourceRecord) :
    (assessResource a r).revalidationRequired =
      if r.freshness ≠ .fresh then idSetInsert a.revalidationRequired r.id else a.revalidationRequired := by
  obtain ⟨s, hs, -⟩ := prohibitContained_spec a r
  rw [assessResource_eq, hs]
  dsimp only
  split_ifs <;> rfl

theorem sorted_revalidation (rs : List ResourceRecord) {a : DegradedModeAssessment}
    (h : SortedSet a.revalidationRequired) : SortedSet (rs.foldl assessResource a).revalidationRequired := by
  induction rs generalizing a with
  | nil => exact h
  | cons r rs ih =>
    apply ih
    rw [assessResource_revalidation]
    split_ifs
    · exact sorted_idSetInsert h _
    · exact h

/-- the sets that are judged are the sets that are returned -/
theorem disjoint_judge (anyLive : Bool) {a : DegradedModeAssessment} (hauth : a.authorized = false) :
    degradedSetsAreDisjoint (judge anyLive a) = degradedSetsAreDisjoint a := by
  obtain ⟨-, h2, h3, h4, -⟩ := judge_cases anyLive a hauth
  rw [degradedSetsAreDisjoint, degradedSetsAreDisjoint, h2, h3, h4]

/-- an assessment is a judged survey, started from the prohibited identities -/
theorem assess_shape (s : RuntimeSnapshot) (contract : Option DegradedModeContract) (id : DegradedModeId)
    (now : UInt64) : ∃ (p : IdSet .resourceId) (c : UInt32),
      (∀ d, d ∈ p ↔ Claimed s d ∨ ∃ k ∈ contract, d ∈ k.prohibitedResources) ∧
        assessDegradedMode s contract id now =
          judge ((s.containments.vals.filter fun c => containmentIsLive c.status) ≠ [])
            { s.topology.resources.vals.foldl assessResource
                { contract := id, epoch := s.epoch, topologyGeneration := s.topologyGeneration, assessedAtMs := now
                  prohibited := p
                  requiredRedundancy := (contract.map DegradedModeContract.requiredRedundancy).getD 1 } with
              availableCapacityPercent := c } := by
  have hclaimed : ∀ d, d ∈ (s.containments.vals.filter fun c => containmentIsLive c.status).foldl prohibitedBy [] ↔
      Claimed s d := by
    intro d
    rw [mem_prohibitedBy]
    simp only [List.not_mem_nil, false_or, List.mem_filter, Claimed, and_assoc]
  cases contract with
  | none => exact ⟨_, _, fun d => by simp [hclaimed d], rfl⟩
  | some k =>
    refine ⟨k.prohibitedResources.foldl idSetInsert _, _, fun d => ?_, rfl⟩
    rw [mem_foldl_insert, hclaimed]
    simp

/-- **What an assessment is**, with a contract or without one. -/
theorem filled (s : RuntimeSnapshot) (contract : Option DegradedModeContract) (id : DegradedModeId) (now : UInt64) :
    Filled s contract id (assessDegradedMode s contract id now) := by
  obtain ⟨p0, c, hlisted, hshape⟩ := assess_shape s contract id now
  rw [hshape]
  generalize hlive : (s.containments.vals.filter fun c => containmentIsLive c.status) = live
  generalize hr0 : (contract.map DegradedModeContract.requiredRedundancy).getD 1 = r0
  generalize ha0 : ({ contract := id, epoch := s.epoch, topologyGeneration := s.topologyGeneration, assessedAtMs := now
                      prohibited := p0, requiredRedundancy := r0 } : DegradedModeAssessment) = a0
  have hsv := surveyed s.topology.resources.vals a0
  have hrs := sorted_revalidation s.topology.resources.vals (a := a0) (by rw [← ha0]; exact List.Pairwise.nil)
  generalize s.topology.resources.vals.foldl assessResource a0 = a1 at hsv hrs ⊢
  have hreval : ∀ d, d ∈ a1.revalidationRequired ↔
      ∃ r ∈ s.topology.resources.vals, r.id = d ∧ r.freshness ≠ .fresh := fun d => by
    rw [hsv.revalidation, ← ha0]; simp
  have hclear : decide (live ≠ []) = false ∧ a1.revalidationRequired = [] ↔ AllClear s := by
    rw [decide_eq_false_iff_not, not_not, ← hlive, List.filter_eq_nil_iff, List.eq_nil_iff_forall_not_mem, AllClear]
    refine and_congr ⟨fun h c hc => by simpa using h c hc, fun h c hc => by simp [h c hc]⟩
      ⟨fun h r hr => ?_, fun h d hd => ?_⟩
    · by_contra hf
      exact h r.id ((hreval _).mpr ⟨r, hr, rfl, hf⟩)
    · obtain ⟨r, hr, -, hf⟩ := (hreval d).mp hd
      exact hf (h r hr)
  have hauth : ({ a1 with availableCapacityPercent := c } : DegradedModeAssessment).authorized = false := by
    show a1.authorized = false
    rw [hsv.rest.2.2.1, ← ha0]
  obtain ⟨h1, h2, h3, h4, h5, h6, h7, h8, h9⟩ := judge_cases (decide (live ≠ [])) _ hauth
  refine ⟨?_, fun d => ?_, ?_, fun d => ?_, ?_, fun d => ?_, ?_, ?_, fun h => ?_, fun h => ?_, fun h => ?_⟩
  · rw [h1]; show a1.contract = id; rw [hsv.rest.1, ← ha0]
  · rw [h2]; show d ∈ a1.permitted ↔ _; rw [hsv.permitted, ← ha0]; simp
  · rw [h2]; exact hsv.permittedSorted (by rw [← ha0]; exact List.Pairwise.nil)
  · rw [h4]; exact hreval d
  · rw [h4]; exact hrs
  · rw [h3]; show d ∈ a1.prohibited ↔ _; rw [hsv.prohibited, ← hlisted, ← ha0]
  · rw [h5]; show a1.requiredRedundancy = _; rw [hsv.rest.2.2.2, ← ha0, ← hr0]
  · rw [h6]; show a1.availableRedundancy = _; rw [hsv.redundancy, ← ha0]; exact UInt32.zero_add _
  · exact h7 (disjoint_judge _ hauth ▸ h)
  · obtain ⟨hsafe, hnormal, hauthorized⟩ := h8 (disjoint_judge _ hauth ▸ h)
    refine ⟨hsafe, hnormal.trans hclear, ?_⟩
    rw [h2, h5, h6, hauthorized]
    exact or_congr_left hclear
  · rw [h5, h6]; exact h9 h

/-- the sets of an assessment are disjoint exactly when nothing usable is claimed or prohibited -/
theorem Filled.disjoint_iff {s : RuntimeSnapshot} {contract : DegradedModeContract} {id : DegradedModeId}
    {a : DegradedModeAssessment} (h : Filled s (some contract) id a)
    (hk : OrderedMap.Keyed ResourceRecord.id s.topology.resources) :
    degradedSetsAreDisjoint a = true ↔ Apart s contract := by
  rw [degradedSetsAreDisjoint_iff]
  constructor
  · intro hd r hr hu
    have hn := (hd r.id ((h.permitted _).mpr ⟨r, hr, rfl, hu⟩)).1
    rw [h.prohibited, not_or, not_or] at hn
    exact ⟨hn.1.1, fun hp => hn.1.2 ⟨contract, rfl, hp⟩⟩
  · intro hap d hd
    obtain ⟨r, hr, rfl, hu⟩ := (h.permitted d).mp hd
    obtain ⟨hf, hc, -⟩ := usable_spec hu
    rw [h.prohibited, h.revalidation, not_or, not_or]
    refine ⟨⟨⟨(hap r hr hu).1, ?_⟩, ?_⟩, ?_⟩
    · rintro ⟨c, hc', hp⟩
      exact (hap r hr hu).2 (Option.some.inj hc' ▸ hp)
    · rintro ⟨r', hr', hid, hc'⟩
      rw [vals_unique hk hr' hr hid, hc] at hc'
      simp at hc'
    · rintro ⟨r', hr', hid, hf'⟩
      exact hf' (vals_unique hk hr' hr hid ▸ hf)

/-- an assessment of a contract, where every resource is stored under its own identity -/
theorem assessed (s : RuntimeSnapshot) (contract : DegradedModeContract) (id : DegradedModeId) (now : UInt64)
    (hk : OrderedMap.Keyed ResourceRecord.id s.topology.resources) :
    Assessed s contract id (assessDegradedMode s (some contract) id now) := by
  have h := filled s (some contract) id now
  generalize assessDegradedMode s (some contract) id now = a at h ⊢
  have hdisjoint := h.disjoint_iff hk
  have hempty : a.permitted ≠ [] ↔ ∃ r ∈ s.topology.resources.vals, usable r = true := by
    constructor
    · intro hne
      obtain ⟨d, hd⟩ := List.exists_mem_of_ne_nil _ hne
      obtain ⟨r, hr, -, hu⟩ := (h.permitted d).mp hd
      exact ⟨r, hr, hu⟩
    · rintro ⟨r, hr, hu⟩
      exact List.ne_nil_of_mem ((h.permitted r.id).mpr ⟨r, hr, rfl, hu⟩)
  refine ⟨h.named, h.permitted, h.sorted, h.revalidation, fun d => ?_, h.required, fun hap => ?_, fun hap hc => ?_,
    fun hap hc hn => ?_, fun hap => ?_, fun hap => ?_, h.enough⟩
  · rw [h.prohibited]
    simp
  · exact h.overlapping (Bool.eq_false_iff.mpr fun hd => hap (hdisjoint.mp hd))
  · exact (h.apart (hdisjoint.mpr hap)).2.1.mpr hc
  · exact hc ((h.apart (hdisjoint.mpr hap)).2.1.mp hn)
  · exact (h.apart (hdisjoint.mpr hap)).1
  · rw [(h.apart (hdisjoint.mpr hap)).2.2, Offers, hempty, h.required, h.available]
    rfl

/-! ## The contract's lists -/

/-- what applying the contract's lists to an assessment leaves -/
structure Narrowed (contract : DegradedModeContract) (t : Topology) (a a' : DegradedModeAssessment) : Prop where
  permitted : ∀ d, d ∈ a'.permitted ↔
    d ∈ a.permitted ∧ allowedBy contract t d = true ∧ d ∉ contract.prohibitedResources
  sorted : SortedSet a'.permitted
  prohibited : ∀ d, d ∈ a'.prohibited ↔
    d ∈ a.prohibited ∨ (d ∈ a.permitted ∧ allowedBy contract t d = false) ∨ d ∈ contract.prohibitedResources
  revalidation : ∀ d ∈ a'.revalidationRequired, d ∈ a.revalidationRequired
  status : a'.status = a.status
  authorized : a'.authorized = a.authorized
  named : a'.contract = a.contract
  redundancy : a'.availableRedundancy = a.availableRedundancy

theorem narrowed_restrict (contract : DegradedModeContract) (t : Topology) {a : DegradedModeAssessment}
    (hs : SortedSet a.permitted) :
    (∀ d, d ∈ (restrict contract t a).permitted ↔ d ∈ a.permitted ∧ allowedBy contract t d = true) ∧
      SortedSet (restrict contract t a).permitted ∧
      ∀ d, d ∈ (restrict contract t a).prohibited ↔
        d ∈ a.prohibited ∨ d ∈ a.permitted ∧ allowedBy contract t d = false := by
  refine ⟨fun d => List.mem_filter, hs.sublist List.filter_sublist, fun d => ?_⟩
  show d ∈ (a.permitted.filter fun id => !allowedBy contract t id).foldl idSetInsert a.prohibited ↔ _
  rw [mem_foldl_insert, List.mem_filter, Bool.not_eq_true']

/-- a listed resource is taken off the permitted ones and put on the prohibited ones -/
structure Forbids (f : DegradedModeAssessment → ResourceId → DegradedModeAssessment) : Prop where
  permitted : ∀ a r, (f a r).permitted = idSetErase a.permitted r
  prohibited : ∀ a r, (f a r).prohibited = idSetInsert a.prohibited r
  revalidation : ∀ a r, ∀ d ∈ (f a r).revalidationRequired, d ∈ a.revalidationRequired
  rest : ∀ a r, (f a r).status = a.status ∧ (f a r).authorized = a.authorized ∧ (f a r).contract = a.contract ∧
    (f a r).availableRedundancy = a.availableRedundancy

theorem Forbids.loop {f : DegradedModeAssessment → ResourceId → DegradedModeAssessment} (hf : Forbids f)
    (ids : List ResourceId) {a : DegradedModeAssessment} (hs : SortedSet a.permitted) :
    (∀ d, d ∈ (ids.foldl f a).permitted ↔ d ∈ a.permitted ∧ d ∉ ids) ∧ SortedSet (ids.foldl f a).permitted ∧
      (∀ d, d ∈ (ids.foldl f a).prohibited ↔ d ∈ a.prohibited ∨ d ∈ ids) ∧
      (∀ d ∈ (ids.foldl f a).revalidationRequired, d ∈ a.revalidationRequired) ∧
      (ids.foldl f a).status = a.status ∧ (ids.foldl f a).authorized = a.authorized ∧
      (ids.foldl f a).contract = a.contract ∧ (ids.foldl f a).availableRedundancy = a.availableRedundancy := by
  induction ids generalizing a with
  | nil => simp [hs]
  | cons i ids ih =>
    obtain ⟨h1, h2, h3, h4, h5, h6, h7, h8⟩ := ih (a := f a i) (by rw [hf.permitted]; exact sorted_idSetErase hs i)
    obtain ⟨r1, r2, r3, r4⟩ := hf.rest a i
    rw [List.foldl_cons]
    refine ⟨fun d => ?_, h2, fun d => ?_, fun d hd => hf.revalidation a i d (h4 d hd), h5.trans r1, h6.trans r2,
      h7.trans r3, h8.trans r4⟩
    · rw [h1, hf.permitted, mem_idSetErase hs, List.mem_cons, not_or, and_assoc]
    · rw [h3, hf.prohibited, mem_idSetInsert, List.mem_cons]
      tauto

/-- both operations apply the contract's lists to one effect -/
theorem Forbids.narrowed {f : DegradedModeAssessment → ResourceId → DegradedModeAssessment} (hf : Forbids f)
    (contract : DegradedModeContract) (t : Topology) {a : DegradedModeAssessment} (hs : SortedSet a.permitted) :
    Narrowed contract t a (contract.prohibitedResources.foldl f (restrict contract t a)) := by
  obtain ⟨r1, r2, r3⟩ := narrowed_restrict contract t hs
  obtain ⟨h1, h2, h3, h4, h5, h6, h7, h8⟩ := hf.loop contract.prohibitedResources r2
  exact ⟨fun d => by rw [h1, r1, and_assoc], h2, fun d => by rw [h3, r3, or_assoc], h4, h5, h6, h7, h8⟩

theorem forbids_prohibitListed : Forbids fun a r =>
    { a with
      permitted := idSetErase a.permitted r
      revalidationRequired := idSetErase a.revalidationRequired r
      prohibited := idSetInsert a.prohibited r } :=
  ⟨fun _ _ => rfl, fun _ _ => rfl, fun _ _ _ hd => mem_of_mem_idSetErase hd, fun _ _ => ⟨rfl, rfl, rfl, rfl⟩⟩

theorem forbids_prohibitAgain : Forbids fun a r =>
    { a with permitted := idSetErase a.permitted r, prohibited := idSetInsert a.prohibited r } :=
  ⟨fun _ _ => rfl, fun _ _ => rfl, fun _ _ _ hd => hd, fun _ _ => ⟨rfl, rfl, rfl, rfl⟩⟩

/-! ## The stored assessment -/

/-- the assessment that is stored: the surveyed one cut down to the contract, and marked unsafe if its sets then overlap -/
structure Stored (contract : DegradedModeContract) (t : Topology) (a stored : DegradedModeAssessment) : Prop where
  named : stored.contract = a.contract
  permitted : ∀ d, d ∈ stored.permitted ↔ d ∈ a.permitted ∧ allowedBy contract t d = true ∧ d ∉ contract.prohibitedResources
  sorted : SortedSet stored.permitted
  prohibited : ∀ d, d ∈ stored.prohibited ↔
    d ∈ a.prohibited ∨ (d ∈ a.permitted ∧ allowedBy contract t d = false) ∨ d ∈ contract.prohibitedResources
  revalidation : ∀ d ∈ stored.revalidationRequired, d ∈ a.revalidationRequired
  kept : degradedSetsAreDisjoint stored = true → stored.status = a.status ∧ stored.authorized = a.authorized
  marked : degradedSetsAreDisjoint stored = false → stored.status = .degradedUnsafe ∧ stored.authorized = false

theorem Narrowed.capped {contract : DegradedModeContract} {t : Topology} {a a' : DegradedModeAssessment}
    (h : Narrowed contract t a a') (total : ℕ) : Narrowed contract t a (capAt contract total a') :=
  ⟨h.permitted, h.sorted, h.prohibited, h.revalidation, h.status, h.authorized, h.named, h.redundancy⟩

/-- the second redundancy check of a new contract repeats the first -/
theorem stored_judgeContract {s : RuntimeSnapshot} {contract : DegradedModeContract} {id : DegradedModeId}
    {a a' : DegradedModeAssessment} (ha : Assessed s contract id a) (h : Narrowed contract s.topology a a') :
    Stored contract s.topology a (judgeContract contract a') := by
  unfold judgeContract
  split_ifs with hd hr
  · have hle := ha.enough (h.status.symm.trans hr.1)
    rw [ha.redundancy, ← h.redundancy] at hle
    exact absurd hr.2 (UInt32.not_lt.mpr hle)
  · exact ⟨h.named, h.permitted, h.sorted, h.prohibited, h.revalidation, fun _ => ⟨h.status, h.authorized⟩,
      fun hd' => absurd hd (Bool.eq_false_iff.mp hd')⟩
  · exact ⟨h.named, h.permitted, h.sorted, h.prohibited, h.revalidation, fun hd' => absurd hd' hd, fun _ => ⟨rfl, rfl⟩⟩

theorem stored_revalidated {contract : DegradedModeContract} {t : Topology} {a a' : DegradedModeAssessment}
    (h : Narrowed contract t a a') (g : TopologyGeneration) (e : CoordinatorEpoch) :
    Stored contract t a { (if degradedSetsAreDisjoint a' then a' else
      { a' with status := .degradedUnsafe, authorized := false }) with topologyGeneration := g, epoch := e } := by
  split_ifs with hd
  · exact ⟨h.named, h.permitted, h.sorted, h.prohibited, h.revalidation, fun _ => ⟨h.status, h.authorized⟩,
      fun hd' => absurd hd (Bool.eq_false_iff.mp hd')⟩
  · exact ⟨h.named, h.permitted, h.sorted, h.prohibited, h.revalidation, fun hd' => absurd hd' hd, fun _ => ⟨rfl, rfl⟩⟩

theorem enumSetContains_mem {α : Type} [DecidableEq α] [Coded α] {s : EnumSet α} {a : α}
    (h : enumSetContains s a = true) : a ∈ s := by
  induction s with
  | nil => simp [enumSetContains] at h
  | cons e s ih =>
    unfold enumSetContains at h
    split_ifs at h with h1
    · rw [Coded.code_injective h1]
      exact List.mem_cons_self
    · exact List.mem_cons_of_mem e (ih h)

/-! ## When the stored assessment is sound -/

section Sound

variable {s : RuntimeSnapshot} {contract : DegradedModeContract} {id : DegradedModeId} {a stored : DegradedModeAssessment}

theorem within_iff (r : ResourceRecord) : within contract s.topology r = true ↔
    usable r = true ∧ allowedBy contract s.topology r.id = true ∧ r.id ∉ contract.prohibitedResources := by
  have hall : (∀ id ∈ contract.prohibitedResources, id ≠ r.id) ↔ r.id ∉ contract.prohibitedResources :=
    List.forall_mem_ne'
  simp only [within, Bool.and_eq_true, List.all_eq_true, decide_eq_true_eq, hall, and_assoc]

/-- the permitted resources are the usable ones within the contract -/
theorem mem_stored (ha : Assessed s contract id a) (hst : Stored contract s.topology a stored) (d : ResourceId) :
    d ∈ stored.permitted ↔ ∃ r ∈ s.topology.resources.vals, r.id = d ∧ within contract s.topology r = true := by
  rw [hst.permitted, ha.permitted]
  constructor
  · rintro ⟨⟨r, hr, rfl, hu⟩, hrest⟩
    exact ⟨r, hr, rfl, (within_iff r).mpr ⟨hu, hrest⟩⟩
  · rintro ⟨r, hr, rfl, hw⟩
    obtain ⟨hu, hrest⟩ := (within_iff r).mp hw
    exact ⟨⟨r, hr, rfl, hu⟩, hrest⟩

/-- **What is permitted is always usable and within the contract.** -/
theorem permitted_stored (hk : OrderedMap.Keyed ResourceRecord.id s.topology.resources) (ha : Assessed s contract id a)
    (hst : Stored contract s.topology a stored) {d : ResourceId} (hd : d ∈ stored.permitted) :
    ∃ r, s.topology.resources.find d = some r ∧ r.quarantined = false ∧ isContained r.state = false ∧
      r.freshness = .fresh ∧ isOperable r.state = true ∧ d ∉ contract.prohibitedResources ∧
      (contract.permittedResources ≠ [] → d ∈ contract.permittedResources) ∧
      (contract.legalWorkloadClasses ≠ [] → r.resourceClass ∈ contract.legalWorkloadClasses) := by
  obtain ⟨r, hr, rfl, hw⟩ := (mem_stored ha hst d).mp hd
  obtain ⟨hu, hallowed, hn⟩ := (within_iff r).mp hw
  obtain ⟨hfresh, hcontained, hop⟩ := usable_spec hu
  obtain ⟨k, hf⟩ := (OrderedMap.mem_vals _ r).mp hr
  obtain rfl : r.id = k := hk k r hf
  rw [resourceIsContained, Bool.or_eq_false_iff] at hcontained
  rw [allowedBy, hf, Bool.and_eq_true, Bool.or_eq_true, Bool.or_eq_true, decide_eq_true_eq, decide_eq_true_eq] at hallowed
  exact ⟨r, hf, hcontained.2, hcontained.1, hfresh, hop, hn,
    fun hne => mem_of_idSetContains (hallowed.1.resolve_left hne),
    fun hne => enumSetContains_mem (hallowed.2.resolve_left hne)⟩

/-- counting the permitted redundant resources counts records -/
theorem length_permitted (hk : OrderedMap.Keyed ResourceRecord.id s.topology.resources) (ha : Assessed s contract id a)
    (hst : Stored contract s.topology a stored) : (stored.permitted.filter (redundantIn s.topology)).length =
      (s.topology.resources.vals.filter fun r => within contract s.topology r && redundant r).length := by
  have hfind : ∀ r ∈ s.topology.resources.vals, s.topology.resources.find r.id = some r := by
    intro r hr
    obtain ⟨k, hf⟩ := (OrderedMap.mem_vals _ r).mp hr
    rwa [hk k r hf]
  calc (stored.permitted.filter (redundantIn s.topology)).length
      = ((s.topology.resources.vals.filter fun r => within contract s.topology r && redundant r).map
          ResourceRecord.id).length := by
        refine List.Perm.length_eq ((List.perm_ext_iff_of_nodup ?_ ?_).mpr fun d => ?_)
        · exact (hst.sorted.imp fun h => ne_of_lt h).filter _
        · exact ((OrderedMap.nodup_keys_vals _ _ hk).sublist (List.filter_sublist.map _))
        · rw [List.mem_filter, mem_stored ha hst, List.mem_map]
          constructor
          · rintro ⟨⟨r, hr, rfl, hw⟩, hred⟩
            rw [redundantIn, hfind r hr, Option.any_some] at hred
            exact ⟨r, List.mem_filter.mpr ⟨hr, by rw [hw, hred]; rfl⟩, rfl⟩
          · rintro ⟨r, hr, rfl⟩
            obtain ⟨hr, hwr⟩ := List.mem_filter.mp hr
            obtain ⟨hw, hred⟩ := Bool.and_eq_true_iff.mp hwr
            exact ⟨⟨r, hr, rfl, hw⟩, by rw [redundantIn, hfind r hr, Option.any_some, hred]⟩
    _ = _ := List.length_map _

/-- sets that were apart stay apart under the contract's lists -/
theorem disjoint_stored (hk : OrderedMap.Keyed ResourceRecord.id s.topology.resources) (ha : Assessed s contract id a)
    (hst : Stored contract s.topology a stored) (hap : Apart s contract) : degradedSetsAreDisjoint stored = true := by
  rw [degradedSetsAreDisjoint_iff]
  intro d hd
  obtain ⟨r, hr, rfl, hw⟩ := (mem_stored ha hst d).mp hd
  obtain ⟨hu, hallowed, hn⟩ := (within_iff r).mp hw
  obtain ⟨hfresh, hcontained, -⟩ := usable_spec hu
  constructor
  · rw [hst.prohibited, ha.prohibited]
    rintro (((hc | hp) | ⟨r', hr', hid, hc⟩) | ⟨-, hna⟩ | hp)
    · exact (hap r hr hu).1 hc
    · exact hn hp
    · rw [vals_unique hk hr' hr hid, hcontained] at hc
      exact absurd hc (by simp)
    · rw [hallowed] at hna
      exact absurd hna (by simp)
    · exact hn hp
  · intro hrv
    obtain ⟨r', hr', hid, hf⟩ := (ha.revalidation _).mp (hst.revalidation _ hrv)
    exact hf (vals_unique hk hr' hr hid ▸ hfresh)

/-- once the survey found an overlap, the stored assessment says so -/
theorem unsafe_stored (ha : Assessed s contract id a) (hst : Stored contract s.topology a stored)
    (hap : ¬ Apart s contract) : stored.status = .degradedUnsafe := by
  cases hd : degradedSetsAreDisjoint stored with
  | true => exact (hst.kept hd).1.trans (ha.overlapping hap).1
  | false => exact (hst.marked hd).1

/-- **Exactly when a stored assessment is sound.** -/
theorem sound_iff (hk : OrderedMap.Keyed ResourceRecord.id s.topology.resources) (ha : Assessed s contract id a)
    (hst : Stored contract s.topology a stored) : Sound s.topology contract stored ↔ Warrants s contract := by
  have hvals : ∀ d r, s.topology.resources.find d = some r → r ∈ s.topology.resources.vals :=
    fun d r hf => (OrderedMap.mem_vals _ r).mpr ⟨d, hf⟩
  have hnonempty : stored.permitted ≠ [] ↔
      ∃ r ∈ s.topology.resources.vals, within contract s.topology r = true := by
    constructor
    · intro hne
      obtain ⟨d, hd⟩ := List.exists_mem_of_ne_nil _ hne
      obtain ⟨r, hr, -, hw⟩ := (mem_stored ha hst d).mp hd
      exact ⟨r, hr, hw⟩
    · rintro ⟨r, hr, hw⟩
      exact List.ne_nil_of_mem ((mem_stored ha hst r.id).mpr ⟨r, hr, rfl, hw⟩)
  by_cases hap : Apart s contract
  · have hdisjoint := disjoint_stored hk ha hst hap
    obtain ⟨hstatus, hauth⟩ := hst.kept hdisjoint
    have hoffers : stored.authorized = true ↔ Offers s contract := by rw [hauth, ha.authorized hap]
    constructor
    · intro h
      refine ⟨hap, fun ho => ?_, fun hc r hr => ?_⟩
      · obtain ⟨hne, hle⟩ := h.authorized (hoffers.mpr ho)
        exact ⟨hnonempty.mp hne, length_permitted hk ha hst ▸ hle⟩
      · obtain ⟨k, hf⟩ := (OrderedMap.mem_vals _ r).mp hr
        obtain ⟨hq, hcontained⟩ := h.normal (hstatus.trans (ha.clear hap hc)) k r hf
        rw [resourceIsContained, hq, hcontained]
        rfl
    · intro h
      refine ⟨fun d hd => ((degradedSetsAreDisjoint_iff stored).mp hdisjoint d hd).1,
        fun d hd => permitted_stored hk ha hst hd, fun ho => ?_, fun hn d r hf => ?_, fun hu => ?_⟩
      · obtain ⟨hne, hle⟩ := h.backed (hoffers.mp ho)
        exact ⟨hnonempty.mpr hne, (length_permitted hk ha hst).symm ▸ hle⟩
      · have hc : AllClear s := by
          by_contra hc
          exact ha.unclear hap hc (hstatus.symm.trans hn)
        have hr := h.clear hc r (hvals d r hf)
        rw [resourceIsContained, Bool.or_eq_false_iff] at hr
        exact ⟨hr.2, hr.1⟩
      · exact absurd (hstatus.symm.trans hu) (ha.safe hap)
  · -- the overlap stays on record, so the sets must overlap still, and then they are not disjoint
    refine iff_of_false (fun h => ?_) fun h => hap h.apart
    obtain ⟨d, hd, hd'⟩ := h.unsafe_ (unsafe_stored ha hst hap)
    exact h.disjoint d hd hd'

end Sound

/-! ## Runs -/

/-- the contract a call assesses, and the identity it stores both under -/
def assesses (i : Impl) : Op → Option (DegradedModeId × DegradedModeContract)
  | .authorizeDegradedMode contract =>
    match admitContract contract i with
    | .ok () => some (if contract.id.valid then contract.id else ⟨i.nextDegraded⟩, contract)
    | .error _ => none
  | .revalidateDegradedMode id => (i.state.degradedContracts.find id).map fun contract => (id, contract)
  | _ => none

/-- a call that assesses a contract stores a sound assessment of it -/
def StoresSound (c : Call) (i : Impl) : Prop :=
  ∀ p ∈ assesses i c.op,
    ∃ a, (c.after i).state.degradedModes.find p.1 = some a ∧ Sound (c.after i).state.topology p.2 a

/-- a call that assesses a contract does so in a state that warrants it -/
def Warranted (c : Call) (i : Impl) : Prop :=
  ∀ p ∈ assesses i c.op, Warrants i.state p.2

/-- every resource is stored under its own identity -/
def ResourcesKeyed (_ : Call) (i : Impl) : Prop := OrderedMap.Keyed ResourceRecord.id i.state.topology.resources

instance (c : Call) (i : Impl) : Decidable (ResourcesKeyed c i) :=
  decidable_of_iff (∀ e ∈ i.state.topology.resources.toList, e.2.id = e.1)
    ⟨fun h k r hf => h (k, r) ((OrderedMap.mem_toList _ k r).mpr hf),
      fun h e he => h e.1 e.2 ((OrderedMap.mem_toList _ e.1 e.2).mp he)⟩

/-- the identity and the generations a contract is stored under do not matter to either side -/
theorem sound_stamped {t : Topology} {contract : DegradedModeContract} {a : DegradedModeAssessment} (id : DegradedModeId)
    (g : TopologyGeneration) (cg : ContainmentGeneration) :
    Sound t { contract with id := id, topologyGeneration := g, containmentGeneration := cg } a ↔ Sound t contract a :=
  ⟨fun h => ⟨h.disjoint, h.permitted, h.authorized, h.normal, h.unsafe_⟩,
    fun h => ⟨h.disjoint, h.permitted, h.authorized, h.normal, h.unsafe_⟩⟩

theorem warrants_stamped {s : RuntimeSnapshot} {contract : DegradedModeContract} (id : DegradedModeId)
    (g : TopologyGeneration) (cg : ContainmentGeneration) :
    Warrants s { contract with id := id, topologyGeneration := g, containmentGeneration := cg } ↔ Warrants s contract :=
  ⟨fun h => ⟨h.apart, h.backed, h.clear⟩, fun h => ⟨h.apart, h.backed, h.clear⟩⟩

/-- what an accepted contract leaves behind -/
theorem stored_authorize (clk : Clock) {contract : DegradedModeContract} {i : Impl}
    (hadmitted : admitContract contract i = .ok ()) (hk : OrderedMap.Keyed ResourceRecord.id i.state.topology.resources) :
    ∃ a, (authorizeDegradedMode clk contract i).impl.state.degradedModes.find
        (if contract.id.valid then contract.id else ⟨i.nextDegraded⟩) = some a ∧
      (Sound i.state.topology contract a ↔ Warrants i.state contract) := by
  unfold authorizeDegradedMode
  rw [hadmitted]
  dsimp only
  generalize (if contract.id.valid then contract.id else ⟨i.nextDegraded⟩) = id
  have hstate : (if contract.id.valid then i else { i with nextDegraded := i.nextDegraded + 1 }).state = i.state := by
    split <;> rfl
  rw [hstate]
  have ha := assessed i.state { contract with
    id := id, topologyGeneration := i.state.topologyGeneration
    containmentGeneration := i.state.containmentGeneration } id (clk 0) hk
  generalize assessDegradedMode i.state _ id (clk 0) = a at ha ⊢
  have hst := stored_judgeContract ha
    ((forbids_prohibitListed.narrowed _ i.state.topology ha.sorted).capped i.state.topology.resources.size)
  refine ⟨_, ?_, ((sound_stamped _ _ _).symm.trans (sound_iff hk ha hst)).trans (warrants_stamped _ _ _)⟩
  show (OrderedMap.insert _ _ _).find id = _
  rw [prohibitListed]
  rw [hst.named.trans ha.named, OrderedMap.find_insert_self]

/-- what a revalidation leaves behind -/
theorem stored_revalidate (clk : Clock) {id : DegradedModeId} {contract : DegradedModeContract} {i : Impl}
    (hfind : i.state.degradedContracts.find id = some contract)
    (hk : OrderedMap.Keyed ResourceRecord.id i.state.topology.resources) :
    ∃ a, (revalidateDegradedMode clk id i).impl.state.degradedModes.find id = some a ∧
      (Sound i.state.topology contract a ↔ Warrants i.state contract) := by
  unfold revalidateDegradedMode
  rw [hfind]
  dsimp only
  have ha := assessed i.state contract id (clk 0) hk
  generalize assessDegradedMode i.state (some contract) id (clk 0) = a at ha ⊢
  have hst := stored_revalidated
    ((forbids_prohibitAgain.narrowed contract i.state.topology ha.sorted).capped i.state.topology.resources.size)
    i.state.topologyGeneration i.state.epoch
  exact ⟨_, OrderedMap.find_insert_self _ _ _, sound_iff hk ha hst⟩

theorem assesses_authorize {i : Impl} {contract contract' : DegradedModeContract} {id : DegradedModeId}
    (h : assesses i (.authorizeDegradedMode contract) = some (id, contract')) : admitContract contract i = .ok () ∧
      id = (if contract.id.valid then contract.id else ⟨i.nextDegraded⟩) ∧
      contract' = contract := by
  simp only [assesses] at h
  split at h
  · next hadmitted =>
    obtain ⟨rfl, rfl⟩ := Prod.mk.inj (Option.some.inj h)
    exact ⟨hadmitted, rfl, rfl⟩
  · simp at h

/-- A call stores a sound assessment exactly when the state warrants the contract. -/
theorem storesSound_iff (c : Call) (i : Impl) (hk : ResourcesKeyed c i) : StoresSound c i ↔ Warranted c i := by
  refine forall₂_congr fun ⟨id, contract⟩ h => ?_
  have hframe : (c.after i).state.topology = i.state.topology ∧ ∃ a, (c.after i).state.degradedModes.find id = some a ∧
      (Sound i.state.topology contract a ↔ Warrants i.state contract) := by
    obtain ⟨clk, op⟩ := c
    cases op with
    | authorizeDegradedMode contract' =>
      obtain ⟨hadmitted, rfl, rfl⟩ := assesses_authorize h
      exact ⟨((frame_authorizeDegradedMode clk contract i).topology (by simp)), stored_authorize clk hadmitted hk⟩
    | revalidateDegradedMode id' =>
      obtain ⟨contract', hfind, heq⟩ := Option.map_eq_some_iff.mp h
      obtain ⟨rfl, rfl⟩ := Prod.mk.inj heq
      exact ⟨((frame_revalidateDegradedMode clk id' i).topology (by simp)), stored_revalidate clk hfind hk⟩
    | _ => simp [assesses] at h
  obtain ⟨htop, a, hfind, hiff⟩ := hframe
  rw [htop, ← hiff]
  constructor
  · rintro ⟨a', hfind', hs⟩
    rwa [Option.some.inj (hfind.symm.trans hfind')]
  · exact fun hs => ⟨a, hfind, hs⟩

/-- **Stored assessments are sound exactly along the runs that warrant their contracts.** -/
theorem degraded_run_iff (calls : List Call) (i : Impl) (hk : Runs.Along Call.after ResourcesKeyed calls i) :
    Runs.Along Call.after StoresSound calls i ↔ Runs.Along Call.after Warranted calls i := by
  induction calls generalizing i with
  | nil => exact Iff.rfl
  | cons c calls ih => exact and_congr (storesSound_iff c i hk.1) (ih _ hk.2)

instance (c : Call) (i : Impl) : Decidable (Warranted c i) :=
  inferInstanceAs (Decidable (∀ p ∈ assesses i c.op, Warrants i.state p.2))

/-- a contract for services, in a runtime that has one, authorized and revalidated -/
def served : List Call := [
  ⟨ticks, .registerResource { id := ⟨1⟩, resourceClass := .service, state := .active, freshness := .fresh }⟩,
  ⟨ticks, .authorizeDegradedMode { legalWorkloadClasses := [.service] }⟩,
  ⟨ticks, .revalidateDegradedMode ⟨1⟩⟩]

theorem degraded_run_iff_served : Runs.Along Call.after ResourcesKeyed served (construct ticks {}) ∧
    Runs.Along Call.after StoresSound served (construct ticks {}) := by
  have hk : Runs.Along Call.after ResourcesKeyed served (construct ticks {}) := by decide +kernel
  exact ⟨hk, (degraded_run_iff served (construct ticks {}) hk).mpr (by decide +kernel)⟩

/-- a contract for services, in a runtime that has a device only -/
def unserved : List Call := [
  ⟨ticks, .registerResource { id := ⟨1⟩, resourceClass := .device, state := .active, freshness := .fresh }⟩,
  ⟨ticks, .authorizeDegradedMode { legalWorkloadClasses := [.service] }⟩]

/-- Without the condition degraded operation is authorized with nothing permitted. -/
theorem degraded_run_unserved :
    ¬ ∀ (clk : Clock) (config : Config) (calls : List Call),
      Runs.Along Call.after StoresSound calls (construct clk config) := by
  intro h
  obtain ⟨-, hstored, -⟩ := h ticks {} unserved
  obtain ⟨a, ha, hsound⟩ := hstored (⟨1⟩, { legalWorkloadClasses := [.service] }) (by decide +kernel)
  have hempty : ((Runs.run Call.after unserved (construct ticks {})).state.degradedModes.find ⟨1⟩).all
      (fun a => a.authorized && a.permitted.isEmpty) = true := by decide +kernel
  rw [show (Runs.run Call.after unserved (construct ticks {})).state.degradedModes.find ⟨1⟩ = some a from ha,
    Option.all_some, Bool.and_eq_true, List.isEmpty_iff] at hempty
  exact (hsound.authorized hempty.1).1 hempty.2

end FaultContainment.Degraded
