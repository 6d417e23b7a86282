/-
The blast radius is a partition of the registered resources.

From the sets the phases end in, each registered resource is looked at once, and the four buckets are read off. What is held is
mandatory, what is to be drained is precautionary, what is in doubt or without fresh evidence is unresolved, and the rest is
unaffected.

- `buckets_spec`: membership of each bucket, in the terms of the specification.
- `radius_partition`: the computation ends; the buckets are sorted, disjoint and cover the registered resources, and the
  classifications agree with them.
-/
import FaultContainment.Radius.Phases

namespace FaultContainment.Radius

open FaultContainment.Lib FaultContainment.Ids FaultContainment.Enums FaultContainment.Records
open FaultContainment.Policy FaultContainment.BlastRadius

variable {topology : Topology} {rule : FaultRule} {kind : FaultKind} {subject : ResourceRecord}

/-! ## Every resource is looked at -/

/-- the entry of a resource outside the mandatory and precautionary sets, once it has been looked at -/
structure Rest (acc : Classifications) (candidate : ResourceRecord) (c : ClassifiedResource) : Prop where
  included : c.hasInclusion = false
  flagged : c.hasUnresolved = true ↔ flagged acc candidate.id ∨ candidate.freshness ≠ .fresh
  excluded : c.hasExclusion = !c.hasUnresolved
  reason : c.hasUnresolved = false → c.exclusion = .noProvenPropagationPath

theorem classifyRest_inside {mandatorySet : IdSet .resourceId} {precautionarySet : List ResourceId}
    {acc : Classifications} {candidate : ResourceRecord} (hs : SortedSet mandatorySet)
    (h : candidate.id ∈ mandatorySet ∨ candidate.id ∈ precautionarySet) :
    classifyRest subject mandatorySet precautionarySet acc candidate = acc := by
  unfold classifyRest
  rcases h with h | h
  · exact if_pos ((idSetContains_iff hs _).mpr h)
  · rw [if_pos h, ite_self]

/-- one resource is looked at: no other entry changes -/
theorem classifyRest_outside {mandatorySet : IdSet .resourceId} {precautionarySet : List ResourceId}
    {acc : Classifications} {candidate : ResourceRecord} (hm : candidate.id ∉ mandatorySet)
    (hp : candidate.id ∉ precautionarySet) (hi : ¬ included acc candidate.id) (hx : ¬ excluded acc candidate.id) :
    (∀ d, candidate.id ≠ d →
      (classifyRest subject mandatorySet precautionarySet acc candidate).find d = acc.find d) ∧
      ∃ c, (classifyRest subject mandatorySet precautionarySet acc candidate).find candidate.id = some c ∧
        Rest acc candidate c := by
  have hd : ((acc.subscript candidate.id fun c => c).find candidate.id).getD {} =
      (acc.find candidate.id).getD {} := by rw [getD_subscript, if_pos rfl]
  have hne : ∀ d, candidate.id ≠ d → (acc.subscript candidate.id fun c => c).find d = acc.find d := fun d h => by
    rw [OrderedMap.find_subscript, if_neg h]
  unfold included at hi
  unfold excluded at hx
  rw [Bool.not_eq_true] at hi hx
  unfold classifyRest
  rw [if_neg fun h => hm (mem_of_idSetContains h), if_neg hp]
  dsimp only
  rw [hd]
  cases hu : ((acc.find candidate.id).getD {}).hasUnresolved with
  | true =>
    refine ⟨hne, (acc.find candidate.id).getD {}, ?_, hi, ?_, ?_, ?_⟩
    · rw [if_pos rfl, OrderedMap.find_subscript, if_pos rfl]; rfl
    · simp [flagged, hu]
    · simp [hu, hx]
    · simp [hu]
  | false =>
    simp only [Bool.false_eq_true, if_false]
    by_cases hf : candidate.freshness ≠ .fresh
    · rw [if_pos hf]
      refine ⟨fun d h => ?_, _, OrderedMap.find_insert_self _ _ _, ?_⟩
      · exact (OrderedMap.find_insert_ne _ _ h).trans (hne d h)
      · refine ⟨?_, ?_, ?_, ?_⟩ <;> simp [entryOf, hd, hi, hx, hu, hf]
    · rw [if_neg hf]
      refine ⟨fun d h => ?_, _, OrderedMap.find_insert_self _ _ _, ?_⟩
      · exact (OrderedMap.find_insert_ne _ _ h).trans (hne d h)
      · refine ⟨?_, ?_, ?_, ?_⟩ <;> simp [entryOf, hd, hi, hx, hu, hf, flagged]

/-- each of several resources is looked at -/
theorem classifyRest_loop {mandatorySet : IdSet .resourceId} {precautionarySet : List ResourceId}
    (hs : SortedSet mandatorySet) (cs : List ResourceRecord) (hd : (cs.map ResourceRecord.id).Nodup)
    {acc : Classifications}
    (hacc : ∀ c ∈ cs, c.id ∉ mandatorySet → ¬ included acc c.id ∧ ¬ excluded acc c.id) :
    (∀ d, (d ∈ cs.map ResourceRecord.id → d ∈ mandatorySet ∨ d ∈ precautionarySet) →
      (cs.foldl (classifyRest subject mandatorySet precautionarySet) acc).find d = acc.find d) ∧
      ∀ candidate ∈ cs, candidate.id ∉ mandatorySet → candidate.id ∉ precautionarySet →
        ∃ c, (cs.foldl (classifyRest subject mandatorySet precautionarySet) acc).find candidate.id = some c ∧
          Rest acc candidate c := by
  induction cs generalizing acc with
  | nil => simp
  | cons a cs ih =>
    rw [List.map_cons, List.nodup_cons] at hd
    rw [List.foldl_cons]
    by_cases hin : a.id ∈ mandatorySet ∨ a.id ∈ precautionarySet
    · rw [classifyRest_inside hs hin]
      obtain ⟨h1, h2⟩ := ih hd.2 fun c hc => hacc c (List.mem_cons_of_mem a hc)
      refine ⟨fun d hdin => h1 d fun hmem => hdin (List.mem_cons_of_mem _ hmem), fun candidate hc hm hp => ?_⟩
      rcases List.mem_cons.mp hc with rfl | hc
      · exact absurd hin (not_or.mpr ⟨hm, hp⟩)
      · exact h2 candidate hc hm hp
    · rw [not_or] at hin
      obtain ⟨hai, hax⟩ := hacc a List.mem_cons_self hin.1
      obtain ⟨hsame, c, hc, hrest⟩ := @classifyRest_outside subject _ _ _ _ hin.1 hin.2 hai hax
      have hother : ∀ b ∈ cs, a.id ≠ b.id := fun b hb he => hd.1 (he ▸ List.mem_map_of_mem hb)
      obtain ⟨h1, h2⟩ := @ih hd.2 (classifyRest subject mandatorySet precautionarySet acc a) fun b hb hm => by
        unfold included excluded
        rw [hsame _ (hother b hb)]
        exact hacc b (List.mem_cons_of_mem a hb) hm
      refine ⟨fun d hdin => ?_, fun candidate hcm hm hp => ?_⟩
      · have hne : a.id ≠ d := by
          rintro rfl
          exact not_or.mpr hin (hdin List.mem_cons_self)
        rw [h1 d fun hmem => hdin (List.mem_cons_of_mem _ hmem), hsame d hne]
      · rcases List.mem_cons.mp hcm with rfl | hcm
        · rw [h1 _ fun hmem => absurd hmem hd.1]
          exact ⟨c, hc, hrest⟩
        · obtain ⟨c', hc', hr'⟩ := h2 candidate hcm hm hp
          refine ⟨c', hc', hr'.included, ?_, hr'.excluded, hr'.reason⟩
          rw [hr'.flagged, flagged, hsame _ (hother candidate hcm)]
          exact Iff.rfl

/-- what the classifications say once every resource has been looked at -/
structure Filed (topology : Topology) (rule : FaultRule) (kind : FaultKind) (subject : ResourceRecord) (e : Escalation)
    (acc : Classifications) : Prop where
  entries : ∀ d, acc.has d = true → topology.resources.has d = true
  included : ∀ d, included acc d ↔ d ∈ e.mandatorySet
  rest : ∀ d, topology.resources.has d = true → d ∉ e.mandatorySet → d ∉ e.precautionarySet →
    ∃ c, acc.find d = some c ∧
      (c.hasUnresolved = true ↔ Doubted topology rule kind subject d ∨ Stale topology d) ∧
      c.hasExclusion = !c.hasUnresolved ∧ (c.hasUnresolved = false → c.exclusion = .noProvenPropagationPath)

/-- **Every registered resource is filed.** -/
theorem filed_classifyAll (hk : OrderedMap.Keyed ResourceRecord.id topology.resources) {held : ResourceId → Prop}
    {e : Escalation} (h : Grown topology rule kind subject held e) :
    Filed topology rule kind subject e (classifyAll topology subject e) := by
  obtain ⟨hsame, hrest⟩ := @classifyRest_loop subject _ e.precautionarySet
    h.coherent.sorted topology.resources.vals (OrderedMap.nodup_keys_vals _ _ hk) e.acc
    fun c _ hm => ⟨fun hi => hm ((h.coherent.included _).mp hi), h.coherent.unexcluded _⟩
  have hvals : ∀ d r, topology.resources.find d = some r → r ∈ topology.resources.vals ∧ r.id = d := fun d r hr =>
    ⟨(OrderedMap.mem_vals _ _).mpr ⟨d, hr⟩, hk d r hr⟩
  have hreg : ∀ d, d ∈ topology.resources.vals.map ResourceRecord.id → topology.resources.has d = true := by
    intro d hd
    obtain ⟨r, hr, rfl⟩ := List.mem_map.mp hd
    exact has_of_mem_vals hk hr
  -- an entry not looked at is as the phases before left it
  have hold : ∀ d, (topology.resources.has d = true → d ∈ e.mandatorySet ∨ d ∈ e.precautionarySet) →
      (classifyAll topology subject e).find d = e.acc.find d := fun d hd => hsame d fun hmem => hd (hreg d hmem)
  refine ⟨fun d hd => ?_, fun d => ?_, fun d hd hm hp => ?_⟩
  · by_contra hn
    have hf := hold d fun hr => absurd hr hn
    exact hn (h.coherent.entries d (by rw [OrderedMap.has, ← hf]; exact hd))
  · by_cases hin : topology.resources.has d = true → d ∈ e.mandatorySet ∨ d ∈ e.precautionarySet
    · rw [← h.coherent.included, included, included, hold d hin]
    · push Not at hin
      obtain ⟨hr, hm, hp⟩ := hin
      obtain ⟨r, hr⟩ := (OrderedMap.has_iff _ _).mp hr
      obtain ⟨hv, rfl⟩ := hvals d r hr
      obtain ⟨c, hc, hcr⟩ := hrest r hv hm hp
      unfold classifyAll included
      rw [hc]
      simp [hcr.included, hm]
  · obtain ⟨r, hr⟩ := (OrderedMap.has_iff _ _).mp hd
    obtain ⟨hv, rfl⟩ := hvals d r hr
    obtain ⟨c, hc, hcr⟩ := hrest r hv hm hp
    refine ⟨c, hc, ?_, hcr.excluded, hcr.reason⟩
    rw [hcr.flagged, h.flagged _ hm hp]
    apply or_congr_right
    constructor
    · intro hs
      exact ⟨r, hr, hs⟩
    · rintro ⟨r', hr', hs⟩
      obtain rfl := Option.some.inj (hr.symm.trans hr')
      exact hs

/-! ## The buckets -/

/-- the four buckets -/
structure Buckets where
  mandatory : IdSet .resourceId
  precautionary : IdSet .resourceId
  unaffected : IdSet .resourceId
  unresolved : IdSet .resourceId

/-- the buckets read off the sets the phases end in -/
def bucketsOf (topology : Topology) (subject : ResourceRecord) (e : Escalation) : Buckets :=
  let acc := classifyAll topology subject e
  let precautionarySet := idSetOf e.precautionarySet
  let rest := acc.toList.filter fun c => !c.2.hasInclusion && !idSetContains precautionarySet c.1
  { mandatory := includedIds acc
    precautionary := precautionarySet.filter fun id => !idSetContains e.mandatorySet id
    unaffected := (rest.filter fun c => !c.2.hasUnresolved).map Prod.fst
    unresolved := (rest.filter fun c => c.2.hasUnresolved).map Prod.fst }

/-- the buckets of a radius -/
def buckets (radius : Records.BlastRadius) : Buckets :=
  ⟨radius.mandatory, radius.precautionary, radius.unaffected, radius.unresolved⟩

theorem buckets_radiusOf (input : BlastRadiusInput) (subject : ResourceRecord) :
    buckets (radiusOf input subject) =
      bucketsOf input.topology subject
        (settle input.topology (input.policy.ruleFor input.fault.evidence.kind) subject
          (propagate input.topology (input.policy.ruleFor input.fault.evidence.kind)
            (structuralInclusions input.topology (input.policy.ruleFor input.fault.evidence.kind)
              input.fault.evidence.kind subject))) := rfl

/-- in none of the sets, and either in doubt or without fresh evidence -/
def Open (topology : Topology) (rule : FaultRule) (kind : FaultKind) (subject : ResourceRecord) (d : ResourceId) :
    Prop := Doubted topology rule kind subject d ∨ Stale topology d

/-- what the buckets hold, in the terms of the specification -/
structure Bucketed (topology : Topology) (rule : FaultRule) (kind : FaultKind) (subject : ResourceRecord)
    (b : Buckets) : Prop where
  sorted : SortedSet b.mandatory ∧ SortedSet b.precautionary ∧ SortedSet b.unaffected ∧ SortedSet b.unresolved
  mandatory : ∀ d, d ∈ b.mandatory ↔ Held topology rule kind subject d
  precautionary : ∀ d, d ∈ b.precautionary ↔ Cautioned topology rule kind subject d
  unaffected : ∀ d, d ∈ b.unaffected ↔ topology.resources.has d = true ∧ ¬ Held topology rule kind subject d ∧
    ¬ Cautioned topology rule kind subject d ∧ ¬ Open topology rule kind subject d
  unresolved : ∀ d, d ∈ b.unresolved ↔ topology.resources.has d = true ∧ ¬ Held topology rule kind subject d ∧
    ¬ Cautioned topology rule kind subject d ∧ Open topology rule kind subject d

/-- **The buckets are what the specification names.** -/
theorem buckets_spec (hk : OrderedMap.Keyed ResourceRecord.id topology.resources) {e : Escalation}
    (h : Grown topology rule kind subject (Held topology rule kind subject) e) :
    Bucketed topology rule kind subject (bucketsOf topology subject e) := by
  have hfiled := filed_classifyAll hk h
  have hcaution : ∀ d, Cautioned topology rule kind subject d ↔ d ∉ e.mandatorySet ∧ d ∈ e.precautionarySet := by
    intro d
    rw [Cautioned, ← h.mandatory]
    exact and_congr_right fun hd => (h.precautionary d hd).symm
  -- a bucket of the rest holds the entries outside both sets whose flag is as asked
  have hrest : ∀ (u : Bool) d,
      d ∈ (((classifyAll topology subject e).toList.filter fun c =>
          !c.2.hasInclusion && !idSetContains (idSetOf e.precautionarySet) c.1).filter fun c =>
          c.2.hasUnresolved == u).map Prod.fst ↔
        topology.resources.has d = true ∧ ¬ Held topology rule kind subject d ∧
          ¬ Cautioned topology rule kind subject d ∧ (Open topology rule kind subject d ↔ u = true) := by
    intro u d
    rw [hcaution, ← h.mandatory]
    constructor
    · intro hd
      obtain ⟨⟨k, c⟩, hm, rfl⟩ := List.mem_map.mp hd
      obtain ⟨hm, hu⟩ := List.mem_filter.mp hm
      obtain ⟨hm, hn⟩ := List.mem_filter.mp hm
      have hc := (OrderedMap.mem_toList _ _ _).mp hm
      simp only [Bool.and_eq_true, Bool.not_eq_true', ← Bool.not_eq_true, idSetContains_iff (sorted_idSetOf _),
        mem_idSetOf] at hn
      have hr := hfiled.entries k ((OrderedMap.has_iff _ _).mpr ⟨c, hc⟩)
      have hkm : k ∉ e.mandatorySet := fun hkm => by
        have := (hfiled.included k).mpr hkm
        rw [included, hc] at this
        exact hn.1 this
      obtain ⟨c', hc', hflag, -⟩ := hfiled.rest k hr hkm hn.2
      obtain rfl := Option.some.inj (hc.symm.trans hc')
      refine ⟨hr, hkm, fun hca => hn.2 hca.2, ?_⟩
      rw [Open, ← hflag]
      simp only [beq_iff_eq] at hu
      rw [hu]
    · rintro ⟨hr, hm, hp, hopen⟩
      have hp : d ∉ e.precautionarySet := fun hin => hp ⟨hm, hin⟩
      obtain ⟨c, hc, hflag, -⟩ := hfiled.rest d hr hm hp
      have hinc : c.hasInclusion = false := by
        have := (hfiled.included d).not.mpr hm
        rw [included, hc] at this
        simpa using this
      have hu : c.hasUnresolved = u := by
        rw [Bool.eq_iff_iff, hflag]
        exact hopen
      refine List.mem_map.mpr ⟨(d, c), List.mem_filter.mpr ⟨List.mem_filter.mpr
        ⟨(OrderedMap.mem_toList _ _ _).mpr hc, ?_⟩, by simp [hu]⟩, rfl⟩
      have hpc : idSetContains (idSetOf e.precautionarySet) d = false := by
        rw [Bool.eq_false_iff]
        exact fun hin => hp ((mem_idSetOf _ _).mp (mem_of_idSetContains hin))
      simp [hinc, hpc]
  have hkeys : ∀ (p q : ResourceId × ClassifiedResource → Bool),
      SortedSet ((((classifyAll topology subject e).toList.filter p).filter q).map Prod.fst) := fun p q => by
    rw [SortedSet, List.pairwise_map]
    exact (OrderedMap.pairwise_keys _).sublist (List.filter_sublist.trans List.filter_sublist)
  refine ⟨⟨sorted_includedIds _, (sorted_idSetOf _).sublist List.filter_sublist, hkeys _ _, hkeys _ _⟩,
    fun d => ?_, fun d => ?_, fun d => ?_, fun d => ?_⟩
  · show d ∈ includedIds _ ↔ _
    rw [mem_includedIds, hfiled.included, h.mandatory]
  · show d ∈ List.filter _ _ ↔ _
    rw [List.mem_filter, mem_idSetOf, hcaution, Bool.not_eq_true', ← Bool.not_eq_true,
      idSetContains_iff h.coherent.sorted, and_comm]
  · have := hrest false d
    simpa [bucketsOf] using this
  · have := hrest true d
    simpa [bucketsOf] using this

/-! ## The classifications -/

/-- the flags of an entry name the bucket of its resource -/
structure Classified (topology : Topology) (radius : Records.BlastRadius) : Prop where
  entries : ∀ d, radius.classifications.has d = true ↔ topology.resources.has d = true
  mandatory : ∀ d c, radius.classifications.find d = some c → (d ∈ radius.mandatory ↔ c.hasInclusion = true)
  precautionary : ∀ d c, radius.classifications.find d = some c →
    (d ∈ radius.precautionary ↔
      c.hasInclusion = false ∧ c.hasExclusion = true ∧ c.exclusion = .conditionalOnlyInclusion)
  unaffected : ∀ d c, radius.classifications.find d = some c →
    (d ∈ radius.unaffected ↔
      c.hasInclusion = false ∧ c.hasExclusion = true ∧ c.exclusion = .noProvenPropagationPath)
  unresolved : ∀ d c, radius.classifications.find d = some c →
    (d ∈ radius.unresolved ↔ c.hasInclusion = false ∧ c.hasUnresolved = true)

/-- what the precautionary resources' entries become -/
theorem find_markPrecautionary (ids : List ResourceId) (hd : ids.Nodup) (acc : Classifications) :
    (∀ d ∈ ids, ∃ c, (ids.foldl markPrecautionary acc).find d = some c ∧
      (c.hasInclusion = true ↔ included acc d) ∧ c.hasUnresolved = false ∧
      (c.hasInclusion = false → c.hasExclusion = true ∧ c.exclusion = .conditionalOnlyInclusion)) ∧
      ∀ d, d ∉ ids → (ids.foldl markPrecautionary acc).find d = acc.find d := by
  obtain ⟨h1, h2⟩ := OrderedMap.find_foldl_at (fun d : ResourceId => d) (f := markPrecautionary)
    (h := fun _ entry => some (if (entry.getD {}).hasInclusion then { entry.getD {} with hasUnresolved := false }
      else { entry.getD {} with hasUnresolved := false, hasExclusion := true, exclusion := .conditionalOnlyInclusion,
                                detail := lit "conditional propagation path only" }))
    (fun m a k => by
      unfold markPrecautionary
      rw [OrderedMap.find_subscript]
      by_cases hk : a = k
      · subst hk
        rw [if_pos rfl, if_pos rfl]
        rfl
      · rw [if_neg hk, if_neg hk]) ids (by simpa using hd) acc
  refine ⟨fun d hm => ⟨_, h1 d hm, ?_⟩, fun d hm => h2 d (by simpa using hm)⟩
  unfold included
  cases hi : ((acc.find d).getD {}).hasInclusion <;> simp [hi]

/-- **The classifications agree with the buckets.** -/
theorem classified_radiusOf {input : BlastRadiusInput} {e : Escalation} {radius : Records.BlastRadius}
    (hk : OrderedMap.Keyed ResourceRecord.id input.topology.resources)
    (h : Grown input.topology rule kind subject (Held input.topology rule kind subject) e)
    (hb : buckets radius = bucketsOf input.topology subject e)
    (hc : radius.classifications = radius.precautionary.foldl markPrecautionary (classifyAll input.topology subject e)) :
    Classified input.topology radius := by
  have hfiled := filed_classifyAll hk h
  have hspec : Bucketed input.topology rule kind subject (buckets radius) := hb ▸ buckets_spec hk h
  obtain ⟨hmark, hkeep⟩ := find_markPrecautionary radius.precautionary (hspec.sorted.2.1.imp fun h => h.ne)
    (classifyAll input.topology subject e)
  rw [← hc] at hmark hkeep
  have hnotheld : ∀ d, d ∉ e.mandatorySet → ¬ Held input.topology rule kind subject d := fun d hd hh =>
    hd ((h.mandatory d).mpr hh)
  have hcaution : ∀ d, d ∈ radius.precautionary ↔ d ∉ e.mandatorySet ∧ d ∈ e.precautionarySet := by
    intro d
    rw [show d ∈ radius.precautionary ↔ Cautioned input.topology rule kind subject d from hspec.precautionary d,
      Cautioned, ← h.mandatory]
    exact and_congr_right fun hd => (h.precautionary d hd).symm
  have hmand : ∀ d, d ∈ radius.mandatory ↔ d ∈ e.mandatorySet := fun d =>
    (hspec.mandatory d).trans (h.mandatory d).symm
  -- a resource is mandatory, precautionary or one of the rest
  have hcases : ∀ d c, radius.classifications.find d = some c →
      (d ∈ e.mandatorySet ∧ c.hasInclusion = true) ∨
      (d ∈ radius.precautionary ∧ c.hasInclusion = false ∧ c.hasUnresolved = false ∧ c.hasExclusion = true ∧
        c.exclusion = .conditionalOnlyInclusion) ∨
      (d ∉ e.mandatorySet ∧ d ∉ radius.precautionary ∧ c.hasInclusion = false ∧
        input.topology.resources.has d = true ∧
        (c.hasUnresolved = true ↔ Open input.topology rule kind subject d) ∧ c.hasExclusion = !c.hasUnresolved ∧
        (c.hasUnresolved = false → c.exclusion = .noProvenPropagationPath)) := by
    intro d c hf
    by_cases hp : d ∈ radius.precautionary
    · obtain ⟨c', hc', hi, hu, hx⟩ := hmark d hp
      obtain rfl := Option.some.inj (hf.symm.trans hc')
      have hinc : c.hasInclusion = false := by
        rw [← Bool.not_eq_true, hi, hfiled.included]
        exact ((hcaution d).mp hp).1
      exact .inr (.inl ⟨hp, hinc, hu, hx hinc⟩)
    · rw [hkeep d hp] at hf
      have hi : c.hasInclusion = true ↔ d ∈ e.mandatorySet := by
        rw [← hfiled.included, included, hf]
        rfl
      by_cases hm : d ∈ e.mandatorySet
      · exact .inl ⟨hm, hi.mpr hm⟩
      · have hr := hfiled.entries d ((OrderedMap.has_iff _ _).mpr ⟨c, hf⟩)
        obtain ⟨c', hc', hrest⟩ := hfiled.rest d hr hm fun hpe => hp ((hcaution d).mpr ⟨hm, hpe⟩)
        obtain rfl := Option.some.inj (hf.symm.trans hc')
        exact .inr (.inr ⟨hm, hp, by rw [← Bool.not_eq_true, hi]; exact hm, hr, hrest⟩)
  have hprec : ∀ d, d ∈ radius.precautionary → Cautioned input.topology rule kind subject d := fun d =>
    (hspec.precautionary d).mp
  refine ⟨fun d => ?_, fun d c hf => ?_, fun d c hf => ?_, fun d c hf => ?_, fun d c hf => ?_⟩
  · constructor
    · intro hd
      by_cases hp : d ∈ radius.precautionary
      · exact (hprec d hp).registered
      · rw [OrderedMap.has, hkeep d hp] at hd
        exact hfiled.entries d hd
    · intro hr
      by_cases hp : d ∈ radius.precautionary
      · obtain ⟨c, hc', -⟩ := hmark d hp
        exact (OrderedMap.has_iff _ _).mpr ⟨c, hc'⟩
      · rw [OrderedMap.has, hkeep d hp, ← OrderedMap.has]
        by_cases hm : d ∈ e.mandatorySet
        · exact ((hfiled.included d).mpr hm).has
        · obtain ⟨c, hc', -⟩ := hfiled.rest d hr hm fun hpe => hp ((hcaution d).mpr ⟨hm, hpe⟩)
          exact (OrderedMap.has_iff _ _).mpr ⟨c, hc'⟩
  · rw [hmand]
    rcases hcases d c hf with ⟨hm, hi⟩ | ⟨hp, hi, -⟩ | ⟨hm, -, hi, -⟩
    · simp [hm, hi]
    · simp [((hcaution d).mp hp).1, hi]
    · simp [hm, hi]
  · rcases hcases d c hf with ⟨hm, hi⟩ | ⟨hp, hi, -, hx, hxc⟩ | ⟨hm, hp, hi, hr, hu, hx, hxc⟩
    · simp [hcaution, hm, hi]
    · simp [hp, hi, hx, hxc]
    · cases hun : c.hasUnresolved <;> simp_all
  · rw [show d ∈ radius.unaffected ↔ _ from hspec.unaffected d]
    rcases hcases d c hf with ⟨hm, hi⟩ | ⟨hp, hi, -, hx, hxc⟩ | ⟨hm, hp, hi, hr, hu, hx, hxc⟩
    · simp [(h.mandatory d).mp hm, hi]
    · simp [hprec d hp, hi, hxc]
    · have hnp : ¬ Cautioned input.topology rule kind subject d := fun hca => hp ((hspec.precautionary d).mpr hca)
      cases hun : c.hasUnresolved with
      | true => simp [hi, hx, hun, hu.mp hun]
      | false =>
        have hno : ¬ Open input.topology rule kind subject d := fun ho => by simp [hu.mpr ho] at hun
        simp [hi, hx, hun, hxc hun, hr, hnotheld d hm, hnp, hno]
  · rw [show d ∈ radius.unresolved ↔ _ from hspec.unresolved d]
    rcases hcases d c hf with ⟨hm, hi⟩ | ⟨hp, hi, hun, -⟩ | ⟨hm, hp, hi, hr, hu, -⟩
    · simp [(h.mandatory d).mp hm, hi]
    · simp [hprec d hp, hun]
    · have hnp : ¬ Cautioned input.topology rule kind subject d := fun hca => hp ((hspec.precautionary d).mpr hca)
      simp [hi, hu, hr, hnotheld d hm, hnp]

/-! ## The partition -/

/-- the buckets are sorted without repetition, no resource is in two of them, and every registered resource, and nothing
else, is in one -/
structure Partition (topology : Topology) (b : Buckets) : Prop where
  sorted : SortedSet b.mandatory ∧ SortedSet b.precautionary ∧ SortedSet b.unaffected ∧ SortedSet b.unresolved
  disjoint : [b.mandatory, b.precautionary, b.unaffected, b.unresolved].Pairwise List.Disjoint
  covers : ∀ d, topology.resources.has d = true ↔
    d ∈ b.mandatory ∨ d ∈ b.precautionary ∨ d ∈ b.unaffected ∨ d ∈ b.unresolved

theorem Bucketed.partition {b : Buckets} (hs : topology.resources.has subject.id = true)
    (h : Bucketed topology rule kind subject b) : Partition topology b := by
  refine ⟨h.sorted, ?_, fun d => ⟨fun hr => ?_, fun hd => ?_⟩⟩
  · have hmp : List.Disjoint b.mandatory b.precautionary := fun d h1 h2 =>
      ((h.precautionary d).mp h2).1 ((h.mandatory d).mp h1)
    have hma : List.Disjoint b.mandatory b.unaffected := fun d h1 h2 =>
      ((h.unaffected d).mp h2).2.1 ((h.mandatory d).mp h1)
    have hmu : List.Disjoint b.mandatory b.unresolved := fun d h1 h2 =>
      ((h.unresolved d).mp h2).2.1 ((h.mandatory d).mp h1)
    have hpa : List.Disjoint b.precautionary b.unaffected := fun d h1 h2 =>
      ((h.unaffected d).mp h2).2.2.1 ((h.precautionary d).mp h1)
    have hpu : List.Disjoint b.precautionary b.unresolved := fun d h1 h2 =>
      ((h.unresolved d).mp h2).2.2.1 ((h.precautionary d).mp h1)
    have hau : List.Disjoint b.unaffected b.unresolved := fun d h1 h2 =>
      ((h.unaffected d).mp h1).2.2.2 ((h.unresolved d).mp h2).2.2.2
    simp [hmp, hma, hmu, hpa, hpu, hau]
  · by_cases hh : Held topology rule kind subject d
    · exact .inl ((h.mandatory d).mpr hh)
    by_cases hc : Cautioned topology rule kind subject d
    · exact .inr (.inl ((h.precautionary d).mpr hc))
    by_cases ho : Open topology rule kind subject d
    · exact .inr (.inr (.inr ((h.unresolved d).mpr ⟨hr, hh, hc, ho⟩)))
    · exact .inr (.inr (.inl ((h.unaffected d).mpr ⟨hr, hh, hc, ho⟩)))
  · rcases hd with hd | hd | hd | hd
    · exact ((h.mandatory d).mp hd).registered hs
    · exact ((h.precautionary d).mp hd).registered
    · exact ((h.unaffected d).mp hd).1
    · exact ((h.unresolved d).mp hd).1

/-- the loop stops because nothing is left to visit, not because its fuel is spent -/
def Terminates (input : BlastRadiusInput) : Prop :=
  ∀ subject, input.topology.resources.find input.fault.evidence.subject = some subject →
    (escalate input.topology (input.policy.ruleFor input.fault.evidence.kind) input.fault.evidence.kind
      subject).1.frontier = []

/-- the radius of a stored subject, and the sets its phases end in -/
theorem computeBlastRadius_spec {input : BlastRadiusInput} (hw : WellFormed input.topology) {subject : ResourceRecord}
    (hs : input.topology.resources.find input.fault.evidence.subject = some subject) :
    computeBlastRadius input = .ok (radiusOf input subject) ∧
      Bucketed input.topology (input.policy.ruleFor input.fault.evidence.kind) input.fault.evidence.kind subject
        (buckets (radiusOf input subject)) ∧
      Classified input.topology (radiusOf input subject) := by
  have hgrown := grown_settle (@traversed_propagate _ (input.policy.ruleFor input.fault.evidence.kind)
    input.fault.evidence.kind _ hw (has_of_find hw.keyed hs)).2
  refine ⟨?_, ?_, ?_⟩
  · unfold computeBlastRadius
    rw [hs]
  · rw [buckets_radiusOf]
    exact buckets_spec hw.keyed hgrown
  · exact classified_radiusOf hw.keyed hgrown (buckets_radiusOf input subject) rfl

/-- **The blast radius is a partition.** Over a well-formed topology that holds the subject, the computation ends with a
radius whose buckets partition the registered resources, with the subject mandatory, fresh evidence for every unaffected
resource, and classifications that agree with the buckets. -/
theorem radius_partition (input : BlastRadiusInput) (hw : WellFormed input.topology)
    (hs : input.topology.resources.has input.fault.evidence.subject = true) :
    Terminates input ∧ ∃ radius, computeBlastRadius input = .ok radius ∧
      Partition input.topology (buckets radius) ∧
      input.fault.evidence.subject ∈ radius.mandatory ∧
      (∀ d ∈ radius.unaffected, ∃ r, input.topology.resources.find d = some r ∧ r.freshness = .fresh) ∧
      Classified input.topology radius := by
  obtain ⟨subject, hf⟩ := (OrderedMap.has_iff _ _).mp hs
  have hid := hw.keyed _ _ hf
  have hreg : input.topology.resources.has subject.id = true := hid ▸ hs
  refine ⟨fun subject' hf' => ?_, radiusOf input subject, ?_⟩
  · exact (@traversed_propagate _ _ input.fault.evidence.kind _ hw (has_of_find hw.keyed hf')).1
  · obtain ⟨hok, hspec, hclass⟩ := computeBlastRadius_spec hw hf
    refine ⟨hok, hspec.partition hreg, ?_, fun d hd => ?_, hclass⟩
    · rw [← hid]
      exact (hspec.mandatory _).mpr (.inl (.seed .subject))
    · obtain ⟨hr, -, -, ho⟩ := (hspec.unaffected d).mp hd
      obtain ⟨r, hr⟩ := (OrderedMap.has_iff _ _).mp hr
      refine ⟨r, hr, ?_⟩
      by_contra hn
      exact ho (.inr ⟨r, hr, hn⟩)

/-- three resources in a row; the evidence of the first edge was never established -/
def chain : Topology where
  generation := ⟨1⟩
  resources := OrderedMap.ofRecords ResourceRecord.id
    [{ id := ⟨1⟩, freshness := .fresh }, { id := ⟨2⟩, freshness := .fresh }, { id := ⟨3⟩, freshness := .fresh }]
  dependencies := Dependency.insertEdge (Dependency.insertEdge {} { id := ⟨1⟩, source := ⟨1⟩, destination := ⟨2⟩ })
    { id := ⟨2⟩, source := ⟨2⟩, destination := ⟨3⟩, freshness := .fresh, integrity := .verified }

theorem chain_wellFormed : WellFormed chain where
  keyed k r h := by
    rw [chain, OrderedMap.find_ofRecords _ _ (by decide)] at h
    simpa using List.find?_some h
  valid id h := by
    obtain ⟨r, hr⟩ := (OrderedMap.has_iff _ _).mp h
    rw [chain, OrderedMap.find_ofRecords _ _ (by decide)] at hr
    obtain rfl : r.id = id := by simpa using List.find?_some hr
    have hmem := List.mem_of_find?_eq_some hr
    simp only [List.mem_cons, List.not_mem_nil, or_false] at hmem
    rcases hmem with rfl | rfl | rfl <;> rfl
  indexed := (indexed_empty.insertEdge (by simp)).insertEdge (by rw [Dependency.find_insertEdge]; simp)

/-- the first resource of the row has failed, under the default policy -/
def chainInput : BlastRadiusInput where
  topology := chain
  policy := makeDefaultPolicy
  fault := { evidence := { id := ⟨1⟩, kind := .processDeath, subject := ⟨1⟩ } }
  epoch := ⟨1⟩
  generation := ⟨1⟩

theorem radius_partition_chain : Terminates chainInput ∧ ∃ radius, computeBlastRadius chainInput = .ok radius ∧
    Partition chain (buckets radius) ∧ (⟨1⟩ : ResourceId) ∈ radius.mandatory ∧
    (∀ d ∈ radius.unaffected, ∃ r, chain.resources.find d = some r ∧ r.freshness = .fresh) ∧
    Classified chain radius := radius_partition chainInput chain_wellFormed (by decide +kernel)

end FaultContainment.Radius
