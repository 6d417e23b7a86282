/-
The traversal finds what the fault reaches.

A visit follows one edge out of a resource that is already in the mandatory set. `Tracked E w` says what a traversal knows
after the edges `E` have been visited, in whatever order. The loop of the source visits resources in identity order until its
frontier is empty; it ends, and every edge out of a mandatory resource has then been visited.

- `structuralInclusions_seeds`: the structural inclusions are the seeds.
- `visitEdge_cases`: everything one visit can do.
- `Tracked.visit`: one visit, in any order.
- `Tracked.traversed`: what a traversal knows when no edge is left.
- `traversed_propagate`: the loop of the source ends there.
-/
import FaultContainment.Radius.Flags
import FaultContainment.Lib.Runs

namespace FaultContainment.Radius

open FaultContainment.Lib FaultContainment.Ids FaultContainment.Enums FaultContainment.Records
open FaultContainment.Policy FaultContainment.BlastRadius

/-! ## The structural inclusions -/

/-- every entry is an inclusion -/
structure Plain (acc : Classifications) : Prop where
  unexcluded : ∀ d, ¬ excluded acc d
  unflagged : ∀ d, ¬ flagged acc d
  entries : ∀ d, acc.has d = true → included acc d

theorem Plain.includeIn {acc : Classifications} (h : Plain acc) (id : ResourceId) (g : ResourceGeneration)
    (r : InclusionReason) (detail : Text) : Plain (includeIn acc id g r detail) where
  unexcluded d := by rw [excluded_includeIn]; exact h.unexcluded d
  unflagged d := by rw [flagged_includeIn]; exact h.unflagged d
  entries d hd := by
    rw [included_includeIn]
    rcases (has_includeIn _ _ _ _ _ _).mp hd with hd | hd
    · exact .inl (h.entries d hd)
    · exact .inr hd

/-- a loop that includes those elements it looks at that have `p` -/
theorem include_loop {α : Type} {p : α → Prop} {id : α → ResourceId} {f : Classifications → α → Classifications}
    (hf : ∀ acc a, f acc a = acc ∧ ¬ p a ∨ p a ∧ ∃ g r detail, f acc a = includeIn acc (id a) g r detail) (as : List α)
    {acc : Classifications} (h : Plain acc) :
    Plain (as.foldl f acc) ∧ ∀ d, included (as.foldl f acc) d ↔ included acc d ∨ ∃ a ∈ as, p a ∧ id a = d := by
  induction as generalizing acc with
  | nil => simp [h]
  | cons a as ih =>
    rw [List.foldl_cons]
    rcases hf acc a with ⟨he, hp⟩ | ⟨hp, g, r, detail, he⟩
    · rw [he]
      obtain ⟨h1, h2⟩ := ih h
      exact ⟨h1, fun d => by rw [h2]; simp [hp]⟩
    · rw [he]
      obtain ⟨h1, h2⟩ := ih (h.includeIn _ _ _ _)
      exact ⟨h1, fun d => by rw [h2, included_includeIn]; simp [hp, or_assoc]⟩

section Seeds

variable (topology : Topology) (rule : FaultRule) (kind : FaultKind) (subject : ResourceRecord)
  {acc : Classifications}

theorem includeMembers_loop (members : IdSet .resourceId) (reason : InclusionReason) (detail : Text) (h : Plain acc) :
    Plain (includeMembers topology members reason detail acc) ∧
      ∀ d, included (includeMembers topology members reason detail acc) d ↔
        included acc d ∨ d ∈ members ∧ topology.resources.has d = true := by
  have hl : Plain (includeMembers topology members reason detail acc) ∧
      ∀ d, included (includeMembers topology members reason detail acc) d ↔
        included acc d ∨ ∃ m ∈ members, topology.resources.has m = true ∧ m = d := by
    refine include_loop (fun acc m => ?_) members h
    cases hf : topology.resources.find m with
    | none => exact .inl ⟨rfl, by simp [hf]⟩
    | some r => exact .inr ⟨by simp [hf], _, _, _, rfl⟩
  refine ⟨hl.1, fun d => (hl.2 d).trans (or_congr_right ?_)⟩
  constructor
  · rintro ⟨m, hm, hr, rfl⟩
    exact ⟨hm, hr⟩
  · intro h
    exact ⟨d, h.1, h.2, rfl⟩

/-- bound to the subject's owner -/
def SharesOwner (r : ResourceRecord) : Prop :=
  sharesAuthority kind = true ∧
    (subject.ownerBoot.valid = true ∧ r.ownerBoot = subject.ownerBoot ∨
      subject.ownerBoot.valid = false ∧ subject.ownerWorker.valid = true ∧ r.ownerWorker = subject.ownerWorker)

theorem includeAuthority_loop (h : Plain acc) :
    Plain (includeAuthority topology kind subject acc) ∧
      ∀ d, included (includeAuthority topology kind subject acc) d ↔
        included acc d ∨ ∃ r ∈ topology.resources.vals, SharesOwner kind subject r ∧ r.id = d := by
  unfold includeAuthority
  by_cases hk : sharesAuthority kind = true
  · rw [if_pos hk]
    by_cases hb : subject.ownerBoot.valid = true
    · rw [if_pos hb]
      refine include_loop (fun acc r => ?_) _ h
      by_cases ho : r.ownerBoot = subject.ownerBoot
      · exact .inr ⟨⟨hk, .inl ⟨hb, ho⟩⟩, _, _, _, if_pos ho⟩
      · exact .inl ⟨if_neg ho, fun h => by simp [SharesOwner, hb, ho] at h⟩
    · rw [if_neg hb]
      by_cases hw : subject.ownerWorker.valid = true
      · rw [if_pos hw]
        refine include_loop (fun acc r => ?_) _ h
        by_cases ho : r.ownerWorker = subject.ownerWorker
        · exact .inr ⟨⟨hk, .inr ⟨by simpa using hb, hw, ho⟩⟩, _, _, _, if_pos ho⟩
        · exact .inl ⟨if_neg ho, fun h => by simp [SharesOwner, hb, ho] at h⟩
      · rw [if_neg hw]
        simp [SharesOwner, hb, hw, h]
  · rw [if_neg hk]
    simp [SharesOwner, hk, h]

/-- the members of a group, when the rule asks for them -/
theorem includeGroup_loop (asked : Bool) (members : IdSet .resourceId) (reason : InclusionReason) (detail : Text)
    (h : Plain acc) :
    Plain (if asked then includeMembers topology members reason detail acc else acc) ∧
      ∀ d, included (if asked then includeMembers topology members reason detail acc else acc) d ↔
        included acc d ∨ asked = true ∧ d ∈ members ∧ topology.resources.has d = true := by
  cases asked with
  | false => simp [h]
  | true => simpa using includeMembers_loop topology members reason detail h

theorem plain_empty : Plain ∅ := ⟨by simp, by simp, by simp⟩

/-- **The structural inclusions are the seeds.** -/
theorem structuralInclusions_seeds (hk : OrderedMap.Keyed ResourceRecord.id topology.resources) :
    Plain (structuralInclusions topology rule kind subject) ∧
      ∀ d, included (structuralInclusions topology rule kind subject) d ↔ Seed topology rule kind subject d := by
  obtain ⟨h2, i2⟩ := includeAuthority_loop topology kind subject
    (plain_empty.includeIn subject.id subject.generation .faultSubject (lit "subject of " ++ Coded.name kind))
  obtain ⟨h3, i3⟩ := includeGroup_loop topology rule.isolateIsolationDomain (isolationMembers topology subject)
    .sharedIsolationDomain (lit "inseparable in isolation domain " ++ subject.isolationDomain.text) h2
  obtain ⟨h4, i4⟩ := includeGroup_loop topology rule.isolateFailureDomain (failureMembers topology subject)
    .sharedFailureDomain (lit "correlated failure domain " ++ subject.failureDomain.text) h3
  obtain ⟨h5, i5⟩ := includeGroup_loop topology rule.coIsolateContainmentDomain (coIsolatedMembers topology subject)
    .domainCoIsolation (lit "containment domain " ++ subject.containmentDomain.text ++ lit " refuses separation") h4
  refine ⟨h5, fun d => (i5 d).trans ?_⟩
  rw [i4, i3, i2, included_includeIn]
  constructor
  · rintro (((((h | rfl) | ⟨r, hr, ⟨ha, ho⟩, rfl⟩) | ⟨ha, hm, hr⟩) | ⟨ha, hm, hr⟩) | ⟨ha, hm, hr⟩)
    · simp at h
    · exact .subject
    · obtain ⟨k, hf⟩ := (OrderedMap.mem_vals _ r).mp hr
      obtain rfl := hk k r hf
      rcases ho with ⟨hb, ho⟩ | ⟨hb, hw, ho⟩
      · exact .boot ha hb hf ho
      · exact .worker ha hb hw hf ho
    · exact .isolation ha hm hr
    · exact .failure ha hm hr
    · exact .coIsolated ha hm hr
  · intro h
    have hv : ∀ {d r}, topology.resources.find d = some r → r ∈ topology.resources.vals ∧ r.id = d :=
      fun hr => ⟨(OrderedMap.mem_vals _ _).mpr ⟨_, hr⟩, hk _ _ hr⟩
    cases h with
    | subject => exact .inl (.inl (.inl (.inl (.inr rfl))))
    | boot ha hb hr ho =>
      exact .inl (.inl (.inl (.inr ⟨_, (hv hr).1, ⟨ha, .inl ⟨hb, ho⟩⟩, (hv hr).2⟩)))
    | worker ha hb hw hr ho =>
      exact .inl (.inl (.inl (.inr ⟨_, (hv hr).1, ⟨ha, .inr ⟨hb, hw, ho⟩⟩, (hv hr).2⟩)))
    | isolation ha hm hr => exact .inl (.inl (.inr ⟨ha, hm, hr⟩))
    | failure ha hm hr => exact .inl (.inr ⟨ha, hm, hr⟩)
    | coIsolated ha hm hr => exact .inr ⟨ha, hm, hr⟩

end Seeds

/-! ## One visit -/

section Visit

variable {topology : Topology} {rule : FaultRule}

/-- an edge that is not proven leaves propagation unknown; a proven one settles it -/
theorem classifyPropagation_open {e : DependencyEdge} (hne : e.source ≠ e.destination)
    (hk : rulePropagatesOver rule e.kind = true) (known : Bool) :
    (¬ Proven e ∧ classifyPropagation rule e false known = .propagationUnknown) ∨
      (Proven e ∧ (classifyPropagation rule e false known = .propagationConfirmed ∨
        classifyPropagation rule e false known = .propagationLikely ∨
        classifyPropagation rule e false known = .propagationPossible)) := by
  have hnone : rule.propagation ≠ .none := by
    intro hn
    simp [rulePropagatesOver, hn] at hk
  unfold classifyPropagation
  rw [if_neg hne, hk]
  by_cases hp : Proven e
  · refine .inr ⟨hp, ?_⟩
    have hp' : e.freshness = .fresh ∧ e.integrity = .verified := hp
    simp only [Bool.not_true, Bool.false_eq_true, if_false, hp'.1, hp'.2, decide_true, Bool.and_self, hnone]
    split_ifs <;> simp
  · refine .inl ⟨hp, ?_⟩
    have hp' : ¬ (e.freshness = .fresh ∧ e.integrity = .verified) := hp
    simp [hp']

/-- an edge that carries nothing, or whose destination is already contained, changes nothing -/
theorem classifyPropagation_shut {e : DependencyEdge} {contained : Bool}
    (h : e.source = e.destination ∨ rulePropagatesOver rule e.kind = false ∨ contained = true) (known : Bool) :
    classifyPropagation rule e contained known = .propagationImpossible ∨
      classifyPropagation rule e contained known = .propagationBlocked := by
  unfold classifyPropagation
  split_ifs <;> simp_all

/-- what one visit of the edge `id` out of `current` does to the sets and the classifications -/
inductive Visit (topology : Topology) (rule : FaultRule) (current : ResourceId) (id : DependencyId) (w w' : Walk) : Prop
  /-- no edge there, or one that exposes nothing but its own source -/
  | idle (h : ∀ e s d, Exposes topology rule id e s d → s = d) (hm : w'.mandatorySet = w.mandatorySet)
      (hf : w'.frontier = w.frontier) (hp : w'.precautionarySet = w.precautionarySet) (ha : w'.acc = w.acc)
  /-- the destination is not registered -/
  | dangling {g : ResourceGeneration} {r : UnresolvedReason} {detail : Text}
      (h : ∀ e s d, ¬ Exposes topology rule id e s d) (hm : w'.mandatorySet = w.mandatorySet)
      (hf : w'.frontier = w.frontier) (hp : w'.precautionarySet = w.precautionarySet)
      (ha : w'.acc = markUnresolved w.acc current g r detail)
  | soft {e : DependencyEdge} {d : ResourceId} (he : Exposes topology rule id e e.source d) (hne : e.source ≠ d)
      (hproven : Proven e) (hcond : Conditional rule e) (hm : w'.mandatorySet = w.mandatorySet)
      (hf : w'.frontier = w.frontier) (hp : ∀ x, x ∈ w'.precautionarySet ↔ x ∈ w.precautionarySet ∨ x = d)
      (ha : w'.acc = w.acc)
  | hard {e : DependencyEdge} {d : ResourceId} {g : ResourceGeneration} {r : InclusionReason} {detail : Text}
      (he : Exposes topology rule id e e.source d) (hne : e.source ≠ d) (hproven : Proven e)
      (hcond : ¬ Conditional rule e) (hm : w'.mandatorySet = idSetInsert w.mandatorySet d)
      (hf : w'.frontier = if idSetContains w.mandatorySet d then w.frontier else idSetInsert w.frontier d)
      (hp : w'.precautionarySet = w.precautionarySet) (ha : w'.acc = includeIn w.acc d g r detail)
  | doubtful {e : DependencyEdge} {d : ResourceId} {g : ResourceGeneration} {r : UnresolvedReason} {detail : Text}
      (he : Exposes topology rule id e e.source d) (hne : e.source ≠ d) (hproven : ¬ Proven e)
      (hm : w'.mandatorySet = w.mandatorySet) (hf : w'.frontier = w.frontier)
      (hp : w'.precautionarySet = w.precautionarySet) (ha : w'.acc = markUnresolved w.acc d g r detail)

/-- the edge a visit looks at is the only one under its identity -/
theorem Exposes.unique {id : DependencyId} {e e' : DependencyEdge} {s d s' d' : ResourceId}
    (h : Exposes topology rule id e s d) (h' : Exposes topology rule id e' s' d') : e' = e ∧ s' = s ∧ d' = d := by
  obtain rfl := Option.some.inj (h.stored.symm.trans h'.stored)
  exact ⟨rfl, h'.source.symm.trans h.source, h'.destination.symm.trans h.destination⟩

theorem visitEdge_cases (hk : OrderedMap.Keyed ResourceRecord.id topology.resources) (current : ResourceId) (w : Walk)
    (id : DependencyId) : Visit topology rule current id w (visitEdge topology rule current w id) := by
  unfold visitEdge
  cases hf : topology.dependencies.edges.find id with
  | none => exact .idle (fun e s d he => by simp [he.stored] at hf) rfl rfl rfl rfl
  | some edge =>
    dsimp only
    cases hd : topology.resources.find edge.destination with
    | none =>
      refine .dangling (fun e s d he => ?_) rfl rfl rfl rfl
      obtain ⟨r, hr, -⟩ := he.uncontained
      obtain rfl := Option.some.inj (hf.symm.trans he.stored)
      rw [he.destination, hr] at hd
      simp at hd
    | some destination =>
      have hid : destination.id = edge.destination := hk _ _ hd
      dsimp only
      rw [hid]
      by_cases hopen : edge.source ≠ edge.destination ∧ rulePropagatesOver rule edge.kind = true ∧
          resourceIsContained destination = false
      · obtain ⟨hne, hkind, hcont⟩ := hopen
        have he : Exposes topology rule id edge edge.source edge.destination :=
          ⟨hf, rfl, rfl, hkind, destination, hd, hcont⟩
        rw [hcont]
        rcases classifyPropagation_open hne hkind (idSetContains w.mandatorySet edge.destination) with
          ⟨hproven, ho⟩ | ⟨hproven, ho⟩
        · rw [ho]
          exact .doubtful he hne hproven rfl rfl rfl rfl
        · by_cases hcond : edge.conditional || rule.propagation = .conditional
          · have hc : Conditional rule edge := by simpa [Conditional] using hcond
            have hp : ∀ x, x ∈ (if edge.destination ∈ w.precautionarySet then w.precautionarySet
                else w.precautionarySet ++ [edge.destination]) ↔ x ∈ w.precautionarySet ∨ x = edge.destination := by
              intro x
              split_ifs with hm
              · exact ⟨.inl, fun h => h.elim (fun h => h) fun h => h ▸ hm⟩
              · simp
            rcases ho with ho | ho | ho <;> rw [ho] <;> dsimp only <;> rw [if_pos hcond] <;>
              exact .soft he hne hproven hc rfl rfl hp rfl
          · have hc : ¬ Conditional rule edge := by simpa [Conditional] using hcond
            rcases ho with ho | ho | ho <;> rw [ho] <;> dsimp only <;> rw [if_neg hcond] <;>
              exact .hard he hne hproven hc rfl rfl rfl rfl
      · have hshut : edge.source = edge.destination ∨ rulePropagatesOver rule edge.kind = false ∨
            resourceIsContained destination = true := by
          by_contra hcon
          push Not at hcon
          exact hopen ⟨hcon.1, by simpa using hcon.2.1, by simpa using hcon.2.2⟩
        have hidle : ∀ e s d, Exposes topology rule id e s d → s = d := by
          intro e s d he
          obtain rfl := Option.some.inj (hf.symm.trans he.stored)
          obtain ⟨r, hr, hc⟩ := he.uncontained
          rw [← he.source, ← he.destination]
          rw [← he.destination, hd] at hr
          obtain rfl := Option.some.inj hr
          simpa [he.kind, hc] using hshut
        rcases classifyPropagation_shut hshut (idSetContains w.mandatorySet edge.destination) with ho | ho <;>
          rw [ho] <;> exact .idle hidle rfl rfl rfl rfl

/-- the classifications agree with the mandatory set -/
structure Coherent (topology : Topology) (acc : Classifications) (mandatorySet : IdSet .resourceId) : Prop where
  sorted : SortedSet mandatorySet
  included : ∀ d, included acc d ↔ d ∈ mandatorySet
  unexcluded : ∀ d, ¬ excluded acc d
  entries : ∀ d, acc.has d = true → topology.resources.has d = true

/-- the sets after a visit of the edge `id` out of `current` -/
structure Visited (topology : Topology) (rule : FaultRule) (current : ResourceId) (id : DependencyId) (w w' : Walk) :
    Prop where
  coherent : Coherent topology w'.acc w'.mandatorySet
  mandatory : ∀ x, x ∈ w'.mandatorySet ↔ x ∈ w.mandatorySet ∨ Hard topology rule id current x
  precautionary : ∀ x, x ∈ w'.precautionarySet ↔
    x ∈ w.precautionarySet ∨ x ≠ current ∧ Soft topology rule id current x
  flagged : ∀ x, flagged w'.acc x ↔ flagged w.acc x ∨ x ∉ w.mandatorySet ∧ Doubtful topology rule id current x
  frontier : ∀ x, x ∈ w'.frontier ↔ x ∈ w.frontier ∨ x ∈ w'.mandatorySet ∧ x ∉ w.mandatorySet
  frontierSorted : SortedSet w.frontier → SortedSet w'.frontier

variable {current : ResourceId} {id : DependencyId} {w w' : Walk}

/-- an entry marked unresolved keeps the rest of the classifications as they are -/
theorem Coherent.mark {acc : Classifications} {mandatorySet : IdSet .resourceId}
    (h : Coherent topology acc mandatorySet) {d : ResourceId} (hd : topology.resources.has d = true)
    (g : ResourceGeneration) (r : UnresolvedReason) (detail : Text) :
    Coherent topology (markUnresolved acc d g r detail) mandatorySet ∧
      ∀ x, flagged (markUnresolved acc d g r detail) x ↔ flagged acc x ∨ x ∉ mandatorySet ∧ x = d := by
  refine ⟨⟨h.sorted, fun x => ?_, fun x => ?_, fun x hx => ?_⟩, fun x => ?_⟩
  · rw [included_markUnresolved, h.included]
  · rw [excluded_markUnresolved]; exact h.unexcluded x
  · rcases (has_markUnresolved _ _ _ _ _ _).mp hx with hx | rfl
    · exact h.entries x hx
    · exact hd
  · rw [flagged_markUnresolved, h.included]
    exact or_congr_right ⟨fun ⟨he, hx, _⟩ => ⟨hx, he.symm⟩, fun ⟨hx, he⟩ => ⟨he.symm, hx, h.unexcluded x⟩⟩

theorem Visit.visited (h : Coherent topology w.acc w.mandatorySet) (hc : current ∈ w.mandatorySet)
    (hid : ∀ e s d, Exposes topology rule id e s d → s = current) (hv : Visit topology rule current id w w') :
    Visited topology rule current id w w' := by
  have hkeep : w'.frontier = w.frontier → w'.mandatorySet = w.mandatorySet →
      ∀ x, x ∈ w'.frontier ↔ x ∈ w.frontier ∨ x ∈ w'.mandatorySet ∧ x ∉ w.mandatorySet := by
    intro hf hm x
    rw [hf, hm]
    tauto
  cases hv with
  | idle hidle hm hf hp ha =>
    have hself : ∀ x e, Exposes topology rule id e current x → x = current := fun x e he => (hidle e _ _ he).symm
    refine ⟨⟨hm ▸ h.sorted, by rw [ha, hm]; exact h.included, by rw [ha]; exact h.unexcluded,
      by rw [ha]; exact h.entries⟩, fun x => ?_, fun x => ?_, fun x => ?_, hkeep hf hm, fun hs => hf ▸ hs⟩
    · rw [hm]
      exact ⟨.inl, fun hx => hx.elim (fun hx => hx) fun ⟨e, he, _⟩ => hself x e he ▸ hc⟩
    · rw [hp]
      exact ⟨.inl, fun hx => hx.elim (fun hx => hx) fun ⟨hne, e, he, _⟩ => absurd (hself x e he) hne⟩
    · rw [ha]
      exact ⟨.inl, fun hx => hx.elim (fun hx => hx) fun ⟨hne, e, he, _⟩ => absurd (hself x e he ▸ hc) hne⟩
  | @dangling g r detail hnone hm hf hp ha =>
    obtain ⟨hcoh, hfl⟩ := h.mark (h.entries _ ((h.included _).mpr hc).has) g r detail
    rw [← ha] at hcoh hfl
    refine ⟨hm ▸ hcoh, fun x => ?_, fun x => ?_, fun x => ?_, hkeep hf hm, fun hs => hf ▸ hs⟩
    · rw [hm]
      exact ⟨.inl, fun hx => hx.elim (fun hx => hx) fun ⟨e, he, _⟩ => absurd he (hnone e _ _)⟩
    · rw [hp]
      exact ⟨.inl, fun hx => hx.elim (fun hx => hx) fun ⟨_, e, he, _⟩ => absurd he (hnone e _ _)⟩
    · rw [hfl]
      -- the resource marked is mandatory, so its flag is not set
      refine or_congr_right ⟨?_, ?_⟩
      · rintro ⟨hx, rfl⟩
        exact absurd hc hx
      · rintro ⟨-, e, he, -⟩
        exact absurd he (hnone e _ _)
  | @soft e d he hne hproven hcond hm hf hp ha =>
    obtain rfl := hid e _ _ he
    refine ⟨⟨hm ▸ h.sorted, by rw [ha, hm]; exact h.included, by rw [ha]; exact h.unexcluded,
      by rw [ha]; exact h.entries⟩, fun x => ?_, fun x => ?_, fun x => ?_, hkeep hf hm, fun hs => hf ▸ hs⟩
    · rw [hm]
      refine ⟨.inl, fun hx => hx.elim (fun hx => hx) fun ⟨e', he', _, hc'⟩ => ?_⟩
      exact absurd ((he.unique he').1 ▸ hcond) hc'
    · rw [hp]
      refine or_congr_right ⟨?_, ?_⟩
      · rintro rfl
        exact ⟨hne.symm, e, he, hproven, hcond⟩
      · rintro ⟨-, e', he', -⟩
        exact (he.unique he').2.2
    · rw [ha]
      refine ⟨.inl, fun hx => hx.elim (fun hx => hx) fun ⟨_, e', he', hp'⟩ => ?_⟩
      exact absurd ((he.unique he').1 ▸ hproven) hp'
  | @hard e d g r detail he hne hproven hcond hm hf hp ha =>
    obtain rfl := hid e _ _ he
    have hmem : ∀ x, x ∈ w'.mandatorySet ↔ x = d ∨ x ∈ w.mandatorySet := fun x => by rw [hm, mem_idSetInsert]
    refine ⟨⟨hm ▸ sorted_idSetInsert h.sorted d, fun x => ?_, fun x => ?_, fun x hx => ?_⟩, fun x => ?_, fun x => ?_,
      fun x => ?_, fun x => ?_, fun hs => ?_⟩
    · rw [ha, hmem, included_includeIn, h.included, or_comm, eq_comm]
    · rw [ha, excluded_includeIn]; exact h.unexcluded x
    · rw [ha, has_includeIn] at hx
      exact hx.elim (h.entries x) fun hd => hd ▸ he.registered
    · rw [hmem, or_comm]
      refine or_congr_right ⟨?_, ?_⟩
      · rintro rfl
        exact ⟨e, he, hproven, hcond⟩
      · rintro ⟨e', he', -⟩
        exact (he.unique he').2.2
    · rw [hp]
      refine ⟨.inl, fun hx => hx.elim (fun hx => hx) fun ⟨_, e', he', _, hc'⟩ => ?_⟩
      exact absurd ((he.unique he').1 ▸ hc') hcond
    · rw [ha, flagged_includeIn]
      refine ⟨.inl, fun hx => hx.elim (fun hx => hx) fun ⟨_, e', he', hp'⟩ => ?_⟩
      exact absurd ((he.unique he').1 ▸ hproven) hp'
    · rw [hf, hmem]
      split_ifs with hin
      · have hd := mem_of_idSetContains hin
        refine ⟨.inl, fun hx => hx.elim (fun hx => hx) fun ⟨hx, hn⟩ => ?_⟩
        rcases hx with rfl | hx
        · exact absurd hd hn
        · exact absurd hx hn
      · have hd : d ∉ w.mandatorySet := fun hd => hin ((idSetContains_iff h.sorted d).mpr hd)
        rw [mem_idSetInsert]
        constructor
        · rintro (rfl | hx)
          · exact .inr ⟨.inl rfl, hd⟩
          · exact .inl hx
        · rintro (hx | ⟨rfl | hx, hn⟩)
          · exact .inr hx
          · exact .inl rfl
          · exact absurd hx hn
    · rw [hf]
      split_ifs
      · exact hs
      · exact sorted_idSetInsert hs d
  | @doubtful e d g r detail he hne hproven hm hf hp ha =>
    obtain rfl := hid e _ _ he
    obtain ⟨hcoh, hfl⟩ := h.mark he.registered g r detail
    rw [← ha] at hcoh hfl
    refine ⟨hm ▸ hcoh, fun x => ?_, fun x => ?_, fun x => ?_, hkeep hf hm, fun hs => hf ▸ hs⟩
    · rw [hm]
      refine ⟨.inl, fun hx => hx.elim (fun hx => hx) fun ⟨e', he', hp', _⟩ => ?_⟩
      exact absurd ((he.unique he').1 ▸ hp') hproven
    · rw [hp]
      refine ⟨.inl, fun hx => hx.elim (fun hx => hx) fun ⟨_, e', he', hp', _⟩ => ?_⟩
      exact absurd ((he.unique he').1 ▸ hp') hproven
    · rw [hfl]
      refine or_congr_right (and_congr_right fun _ => ⟨?_, ?_⟩)
      · rintro rfl
        exact ⟨e, he, hproven⟩
      · rintro ⟨e', he', -⟩
        exact (he.unique he').2.2

end Visit

/-! ## What a traversal knows -/

section Tracked

variable (topology : Topology) (rule : FaultRule) (kind : FaultKind) (subject : ResourceRecord)

/-- what a traversal knows after the edges `E` have been visited -/
structure Tracked (E : Set DependencyId) (w : Walk) : Prop where
  coherent : Coherent topology w.acc w.mandatorySet
  explored : Closure.Explored {i | Seed topology rule kind subject i} (Hard topology rule) {d | d ∈ w.mandatorySet} E
  softSound : ∀ d ∈ w.precautionarySet, ∃ id, ∃ s ∈ w.mandatorySet, Soft topology rule id s d
  softAll : ∀ id ∈ E, ∀ s d, Soft topology rule id s d → d ∈ w.mandatorySet ∨ d ∈ w.precautionarySet
  doubtSound : ∀ d, flagged w.acc d → ∃ id, ∃ s ∈ w.mandatorySet, Doubtful topology rule id s d
  doubtAll : ∀ id ∈ E, ∀ s d, Doubtful topology rule id s d → d ∈ w.mandatorySet ∨ flagged w.acc d

variable {topology rule kind subject} {E : Set DependencyId} {w w' : Walk}

theorem Tracked.start (hk : OrderedMap.Keyed ResourceRecord.id topology.resources)
    (hs : topology.resources.has subject.id = true) (ha : w.acc = structuralInclusions topology rule kind subject)
    (hm : w.mandatorySet = includedIds w.acc) (hp : w.precautionarySet = []) :
    Tracked topology rule kind subject ∅ w := by
  obtain ⟨hplain, hseed⟩ := structuralInclusions_seeds topology rule kind subject hk
  have hset : {d | d ∈ w.mandatorySet} = {i | Seed topology rule kind subject i} := by
    ext d
    rw [Set.mem_ofPred_eq, Set.mem_ofPred_eq, hm, ha, mem_includedIds, hseed]
  refine ⟨⟨?_, ?_, ?_, ?_⟩, ?_, ?_, fun _ h => h.elim, ?_, fun _ h => h.elim⟩
  · rw [hm]; exact sorted_includedIds _
  · intro d; rw [hm, mem_includedIds]
  · rw [ha]; exact hplain.unexcluded
  · intro d hd
    rw [ha] at hd
    exact ((hseed d).mp (hplain.entries d hd)).registered hs
  · rw [hset]; exact .start
  · intro d hd; simp [hp] at hd
  · intro d hd
    rw [ha] at hd
    exact absurd hd (hplain.unflagged d)

/-- **One visit, whatever the order.** The traversal knows one more edge. -/
theorem Tracked.visit (h : Tracked topology rule kind subject E w) {current : ResourceId}
    (hc : current ∈ w.mandatorySet) {id : DependencyId}
    (hid : ∀ e s d, Exposes topology rule id e s d → s = current)
    (hv : Visited topology rule current id w w') : Tracked topology rule kind subject (insert id E) w' := by
  have hgrow : ∀ x, x ∈ w.mandatorySet → x ∈ w'.mandatorySet := fun x hx => (hv.mandatory x).mpr (.inl hx)
  refine ⟨hv.coherent, ?_, ?_, ?_, ?_, ?_⟩
  · exact h.explored.visit hc (fun x b ⟨e, he, _⟩ => hid e x b he) hv.mandatory
  · intro d hd
    rcases (hv.precautionary d).mp hd with hd | ⟨-, hd⟩
    · obtain ⟨i, s, hs, hsd⟩ := h.softSound d hd
      exact ⟨i, s, hgrow s hs, hsd⟩
    · exact ⟨id, current, hgrow _ hc, hd⟩
  · rintro i (rfl | hi) s d hsd
    · obtain rfl : s = current := by
        obtain ⟨e, he, -⟩ := hsd
        exact hid e s d he
      by_cases hds : d = s
      · exact .inl (hds ▸ hgrow s hc)
      · exact .inr ((hv.precautionary d).mpr (.inr ⟨hds, hsd⟩))
    · rcases h.softAll i hi s d hsd with hd | hd
      · exact .inl (hgrow d hd)
      · exact .inr ((hv.precautionary d).mpr (.inl hd))
  · intro d hd
    rcases (hv.flagged d).mp hd with hd | ⟨-, hd⟩
    · obtain ⟨i, s, hs, hsd⟩ := h.doubtSound d hd
      exact ⟨i, s, hgrow s hs, hsd⟩
    · exact ⟨id, current, hgrow _ hc, hd⟩
  · rintro i (rfl | hi) s d hsd
    · obtain rfl : s = current := by
        obtain ⟨e, he, -⟩ := hsd
        exact hid e s d he
      by_cases hd : d ∈ w.mandatorySet
      · exact .inl (hgrow d hd)
      · exact .inr ((hv.flagged d).mpr (.inr ⟨hd, hsd⟩))
    · rcases h.doubtAll i hi s d hsd with hd | hd
      · exact .inl (hgrow d hd)
      · exact .inr ((hv.flagged d).mpr (.inl hd))

/-- what the phases after the traversal rely on -/
structure Traversed (topology : Topology) (rule : FaultRule) (kind : FaultKind) (subject : ResourceRecord) (w : Walk) :
    Prop where
  coherent : Coherent topology w.acc w.mandatorySet
  mandatory : ∀ d, d ∈ w.mandatorySet ↔ Reached topology rule kind subject d
  precautionary : ∀ d, d ∉ w.mandatorySet → (d ∈ w.precautionarySet ↔ Threatened topology rule kind subject d)
  drained : ∀ d ∈ w.precautionarySet, topology.resources.has d = true
  flagged : ∀ d, d ∉ w.mandatorySet →
    (flagged w.acc d ↔ ∃ id s, Reached topology rule kind subject s ∧ Doubtful topology rule id s d)

/-- **A traversal with no edge left knows everything.** Every edge out of a mandatory resource has been visited. -/
theorem Tracked.traversed (hw : WellFormed topology) (h : Tracked topology rule kind subject E w)
    (hE : ∀ s ∈ w.mandatorySet, ∀ id ∈ outgoingOf topology s, id ∈ E) :
    Traversed topology rule kind subject w := by
  have hall : ∀ id e s d, s ∈ w.mandatorySet → Exposes topology rule id e s d → id ∈ E := fun id e s d hs he =>
    hE s hs id ((hw.indexed.outgoing s id).mpr ⟨e, he.stored, he.source⟩)
  have hset : {d | d ∈ w.mandatorySet} = {d | Reached topology rule kind subject d} :=
    h.explored.exact fun id s d hs ⟨e, he, _⟩ => hall id e s d hs he
  have hmem : ∀ d, d ∈ w.mandatorySet ↔ Reached topology rule kind subject d := fun d => by
    rw [← Set.mem_ofPred_eq (p := fun d => d ∈ w.mandatorySet), hset]; rfl
  refine ⟨h.coherent, hmem, fun d hd => ⟨fun hp => ?_, fun ⟨id, s, hs, hsd⟩ => ?_⟩, fun d hd => ?_,
    fun d hd => ⟨fun hf => ?_, fun ⟨id, s, hs, hsd⟩ => ?_⟩⟩
  · obtain ⟨id, s, hs, hsd⟩ := h.softSound d hp
    exact ⟨id, s, (hmem s).mp hs, hsd⟩
  · have hid : id ∈ E := by
      obtain ⟨e, he, -⟩ := hsd
      exact hall id e s d ((hmem s).mpr hs) he
    exact (h.softAll id hid s d hsd).resolve_left hd
  · obtain ⟨_, _, -, e, he, -⟩ := h.softSound d hd
    exact he.registered
  · obtain ⟨id, s, hs, hsd⟩ := h.doubtSound d hf
    exact ⟨id, s, (hmem s).mp hs, hsd⟩
  · have hid : id ∈ E := by
      obtain ⟨e, he, -⟩ := hsd
      exact hall id e s d ((hmem s).mpr hs) he
    exact (h.doubtAll id hid s d hsd).resolve_left hd

end Tracked

/-! ## Any order of visits -/

section Orders

variable {topology : Topology} {rule : FaultRule} {kind : FaultKind} {subject : ResourceRecord} {w : Walk}

/-- the visit of one edge out of a resource -/
def takeEdge (topology : Topology) (rule : FaultRule) (v : ResourceId × DependencyId) (w : Walk) : Walk :=
  visitEdge topology rule v.1 w v.2

/-- the edge is listed out of a resource that is mandatory by then -/
def Visitable (topology : Topology) (v : ResourceId × DependencyId) (w : Walk) : Prop :=
  v.1 ∈ w.mandatorySet ∧ v.2 ∈ outgoingOf topology v.1

theorem WellFormed.source (hw : WellFormed topology) {s : ResourceId} {id : DependencyId}
    (h : id ∈ outgoingOf topology s) : ∀ e x d, Exposes topology rule id e x d → x = s := by
  intro e x d he
  obtain ⟨e', he', rfl⟩ := (hw.indexed.outgoing s id).mp h
  obtain rfl := Option.some.inj (he'.symm.trans he.stored)
  exact he.source.symm

theorem Tracked.visitEdge (hw : WellFormed topology) {E : Set DependencyId}
    (h : Tracked topology rule kind subject E w) {v : ResourceId × DependencyId} (hv : Visitable topology v w) :
    Tracked topology rule kind subject (insert v.2 E) (takeEdge topology rule v w) :=
  h.visit hv.1 (hw.source hv.2)
    ((visitEdge_cases hw.keyed v.1 w v.2).visited h.coherent hv.1 (hw.source hv.2))

/-- a traversal in any order -/
theorem Tracked.visits (hw : WellFormed topology) (vs : List (ResourceId × DependencyId)) {E : Set DependencyId}
    (h : Tracked topology rule kind subject E w) (hv : Runs.Along (takeEdge topology rule) (Visitable topology) vs w) :
    Tracked topology rule kind subject (E ∪ {id | ∃ v ∈ vs, v.2 = id}) (Runs.run (takeEdge topology rule) vs w) := by
  induction vs generalizing E w with
  | nil =>
    have hE : E ∪ {id | ∃ v ∈ ([] : List (ResourceId × DependencyId)), v.2 = id} = E := by simp
    rw [hE]; exact h
  | cons v vs ih =>
    have hE : E ∪ {id | ∃ x ∈ v :: vs, x.2 = id} = insert v.2 E ∪ {id | ∃ x ∈ vs, x.2 = id} := by
      ext id
      simp only [List.exists_mem_cons_iff, Set.mem_union, Set.mem_ofPred_eq, Set.mem_insert_iff, eq_comm (a := id)]
      tauto
    rw [hE]
    exact ih (h.visitEdge hw hv.1) hv.2

end Orders

/-! ## The loop -/

section Loop

variable {topology : Topology} {rule : FaultRule} {kind : FaultKind} {subject : ResourceRecord} {w : Walk}

/-- a mandatory resource is either visited or waiting, and not both -/
structure Queued (w : Walk) : Prop where
  visitedSorted : SortedSet w.visited
  frontierSorted : SortedSet w.frontier
  members : ∀ d, d ∈ w.mandatorySet ↔ d ∈ w.visited ∨ d ∈ w.frontier
  apart : ∀ d ∈ w.frontier, d ∉ w.visited

theorem visitEdge_visited (current : ResourceId) (w : Walk) (id : DependencyId) :
    (visitEdge topology rule current w id).visited = w.visited := by
  unfold visitEdge
  cases topology.dependencies.edges.find id with
  | none => rfl
  | some edge =>
    dsimp only
    cases topology.resources.find edge.destination with
    | none => rfl
    | some destination =>
      dsimp only
      generalize classifyPropagation rule edge (resourceIsContained destination)
        (idSetContains w.mandatorySet destination.id) = outcome
      cases outcome <;> dsimp only <;> split <;> rfl

/-- one edge keeps every mandatory resource visited or waiting -/
theorem Queued.visitEdge (h : Queued w) {current : ResourceId} {id : DependencyId}
    (hv : Visited topology rule current id w (visitEdge topology rule current w id)) :
    Queued (visitEdge topology rule current w id) := by
  refine ⟨?_, hv.frontierSorted h.frontierSorted, fun d => ?_, fun d hd => ?_⟩
  · rw [visitEdge_visited]; exact h.visitedSorted
  · rw [visitEdge_visited, hv.frontier]
    constructor
    · intro hd
      by_cases hw : d ∈ w.mandatorySet
      · exact ((h.members d).mp hw).imp_right .inl
      · exact .inr (.inr ⟨hd, hw⟩)
    · rintro (hd | hd | hd)
      · exact (hv.mandatory d).mpr (.inl ((h.members d).mpr (.inl hd)))
      · exact (hv.mandatory d).mpr (.inl ((h.members d).mpr (.inr hd)))
      · exact hd.1
  · rw [visitEdge_visited]
    rcases (hv.frontier d).mp hd with hd | ⟨-, hd⟩
    · exact h.apart d hd
    · exact fun hd' => hd ((h.members d).mpr (.inl hd'))

/-- what the loop keeps: the edges of every visited resource are among the edges known -/
structure Looped (topology : Topology) (rule : FaultRule) (kind : FaultKind) (subject : ResourceRecord)
    (E : Set DependencyId) (w : Walk) : Prop where
  tracked : Tracked topology rule kind subject E w
  queued : Queued w

/-- the edges out of one mandatory resource -/
theorem Looped.edges (hw : WellFormed topology) {current : ResourceId} (es : List DependencyId) {E : Set DependencyId}
    (h : Looped topology rule kind subject E w) (hc : current ∈ w.mandatorySet)
    (hes : ∀ id ∈ es, id ∈ outgoingOf topology current) :
    Looped topology rule kind subject (E ∪ {id | id ∈ es}) (es.foldl (visitEdge topology rule current) w) ∧
      (es.foldl (visitEdge topology rule current) w).visited = w.visited := by
  induction es generalizing E w with
  | nil =>
    have hE : E ∪ {id | id ∈ ([] : List DependencyId)} = E := by simp
    rw [hE]; exact ⟨h, rfl⟩
  | cons id es ih =>
    have hv := (@visitEdge_cases _ rule hw.keyed current w id).visited h.tracked.coherent hc
      (hw.source (hes id List.mem_cons_self))
    have hE : E ∪ {i | i ∈ id :: es} = insert id E ∪ {i | i ∈ es} := by
      ext i
      simp only [List.mem_cons, Set.mem_union, Set.mem_ofPred_eq, Set.mem_insert_iff]
      tauto
    obtain ⟨h1, h2⟩ := ih (w := BlastRadius.visitEdge topology rule current w id) (E := insert id E)
      ⟨h.tracked.visitEdge hw (v := (current, id)) ⟨hc, hes id List.mem_cons_self⟩, h.queued.visitEdge hv⟩
      ((hv.mandatory current).mpr (.inl hc)) (fun i hi => hes i (List.mem_cons_of_mem id hi))
    rw [hE, List.foldl_cons]
    exact ⟨h1, h2.trans (visitEdge_visited current w id)⟩

/-- visited resources are registered, so there are no more of them than of registered ones -/
theorem Looped.visited_le {E : Set DependencyId} (h : Looped topology rule kind subject E w) :
    w.visited.length ≤ topology.resources.size := by
  rw [← OrderedMap.length_toList, ← List.length_map (f := Prod.fst)]
  refine (List.subperm_of_subset (h.queued.visitedSorted.imp fun h => h.ne) fun d hd => ?_).length_le
  have hm := (h.queued.members d).mpr (.inl hd)
  have hr := h.tracked.coherent.entries d ((h.tracked.coherent.included d).mpr hm).has
  obtain ⟨r, hr⟩ := (OrderedMap.has_iff _ _).mp hr
  exact List.mem_map.mpr ⟨(d, r), (OrderedMap.mem_toList _ _ _).mpr hr, rfl⟩

theorem length_idSetInsert {t : IdTag} {s : IdSet t} (i : Ids.Id t) (h : i ∉ s) :
    (idSetInsert s i).length = s.length + 1 := by
  induction s with
  | nil => rfl
  | cons e s ih =>
    unfold idSetInsert
    split_ifs with h1 h2
    · rw [List.length_cons, ih fun hi => h (List.mem_cons_of_mem e hi), List.length_cons]
    · exact absurd (h2 ▸ List.mem_cons_self) h
    · rfl

/-- **The loop ends.** Each round visits a resource not visited before; with fuel for as many rounds as there are registered
resources left, the frontier runs empty, and every edge out of a mandatory resource has been visited. -/
theorem Looped.walk (hw : WellFormed topology) (fuel : ℕ) {E : Set DependencyId}
    (h : Looped topology rule kind subject E w)
    (hE : ∀ s ∈ w.visited, ∀ id ∈ outgoingOf topology s, id ∈ E)
    (hfuel : topology.resources.size < fuel + w.visited.length) :
    (walk topology rule fuel w).frontier = [] ∧
      Traversed topology rule kind subject (walk topology rule fuel w) := by
  induction fuel generalizing E w with
  | zero => exact absurd h.visited_le (by omega)
  | succ fuel ih =>
    unfold BlastRadius.walk
    cases hfr : w.frontier with
    | nil =>
      refine ⟨hfr, h.tracked.traversed hw fun s hs => hE s ?_⟩
      exact ((h.queued.members s).mp hs).resolve_right (by simp [hfr])
    | cons current frontier =>
      dsimp only
      have hcur : current ∈ w.frontier := by rw [hfr]; exact List.mem_cons_self
      have hnew : current ∉ w.visited := h.queued.apart current hcur
      have hfs := List.pairwise_cons.mp (hfr ▸ h.queued.frontierSorted)
      rw [if_neg fun hv => hnew (mem_of_idSetContains hv), ← outgoingOf]
      -- the resource moves from the frontier to the visited ones
      have hq : Queued { w with frontier := frontier, visited := idSetInsert w.visited current } := by
        refine ⟨sorted_idSetInsert h.queued.visitedSorted current, hfs.2, fun d => ?_, fun d hd => ?_⟩
        · rw [mem_idSetInsert, h.queued.members, hfr, List.mem_cons]
          tauto
        · rw [mem_idSetInsert]
          rintro (rfl | hv)
          · exact absurd (hfs.1 d hd) (lt_irrefl d)
          · exact h.queued.apart d (hfr ▸ List.mem_cons_of_mem current hd) hv
      have ht : Tracked topology rule kind subject E
          { w with frontier := frontier, visited := idSetInsert w.visited current } :=
        ⟨⟨h.tracked.coherent.sorted, h.tracked.coherent.included, h.tracked.coherent.unexcluded,
          h.tracked.coherent.entries⟩, h.tracked.explored, h.tracked.softSound, h.tracked.softAll,
          h.tracked.doubtSound, h.tracked.doubtAll⟩
      obtain ⟨h1, h2⟩ := Looped.edges hw (outgoingOf topology current) ⟨ht, hq⟩
        ((h.queued.members current).mpr (.inr hcur)) fun _ hid => hid
      refine ih h1 (fun s hs id hid => ?_) ?_
      · rw [h2] at hs
        rcases (mem_idSetInsert _ _ _).mp hs with rfl | hs
        · exact .inr hid
        · exact .inl (hE s hs id hid)
      · rw [h2, length_idSetInsert current hnew]
        omega

/-- **The traversal of the source.** It ends, and it knows everything. -/
theorem traversed_propagate (hw : WellFormed topology) (hs : topology.resources.has subject.id = true) :
    (propagate topology rule (structuralInclusions topology rule kind subject)).frontier = [] ∧
      Traversed topology rule kind subject (propagate topology rule (structuralInclusions topology rule kind subject)) := by
  have ht : Tracked topology rule kind subject ∅
      { acc := structuralInclusions topology rule kind subject
        mandatorySet := includedIds (structuralInclusions topology rule kind subject)
        frontier := includedIds (structuralInclusions topology rule kind subject) } := .start hw.keyed hs rfl rfl rfl
  refine Looped.walk hw _ ⟨ht, ⟨by simp [SortedSet], sorted_includedIds _, fun d => by simp, fun d _ => by simp⟩⟩
    (fun s hs => by simp at hs) ?_
  show _ < 2 * topology.resources.size + 1 + 0
  omega

end Loop

end FaultContainment.Radius
