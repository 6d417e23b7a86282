/-
What a verification notices of a radius that has grown.

A verification computes the radius of the fault once more, on the topology in which the members are fenced, and compares sizes.
The fences stop the traversal, so what lies behind them is not counted: the recheck sees a growth only when more resources are
held around the fences than the containment has members. The ladder that concludes the verification does not look at the
recheck at all, and of the dependencies it looks only at those recorded at the commitment.

- `increased_iff`: what the recheck counts.
- `inside_iff`: when the radius without the fences stays inside the containment.
- `growth_seen_iff`: exactly when a verification notices.
- `growth_missed`: an edge added behind the fences goes unnoticed.
-/
import Mathlib.Data.Set.Card
import FaultContainment.Agreement
import FaultContainment.Radius.Partition
import FaultContainment.Radius.Running

namespace FaultContainment.Regrowth

open FaultContainment.Lib FaultContainment.Ids FaultContainment.Enums FaultContainment.Records
open FaultContainment.BlastRadius FaultContainment.Policy FaultContainment.Engine FaultContainment.Dispatching
open FaultContainment.Containments FaultContainment.Verdict FaultContainment.Agreement FaultContainment.Radius
open FaultContainment.Quarantine (DropsRegistered)

/-! ## Without the fences -/

/-- a resource as if nothing had contained it -/
def lowered (r : ResourceRecord) : ResourceRecord := { r with state := .active, quarantined := false }

/-- the topology with the members as if nothing had contained them -/
def unfenced (t : Topology) (members : IdSet .resourceId) : Topology :=
  { t with resources := t.resources.updateAll members lowered }

theorem find_unfenced (t : Topology) (members : IdSet .resourceId) (k : ResourceId) :
    (unfenced t members).resources.find k =
      if k ∈ members then (t.resources.find k).map lowered else t.resources.find k :=
  OrderedMap.find_updateAll t.resources members lowered (fun _ => rfl) k

theorem wellFormed_unfenced {t : Topology} (h : WellFormed t) (members : IdSet .resourceId) :
    WellFormed (unfenced t members) where
  keyed k r hr := by
    rw [find_unfenced] at hr
    split_ifs at hr
    · obtain ⟨r', hr', rfl⟩ := Option.map_eq_some_iff.mp hr
      exact h.keyed k r' hr'
    · exact h.keyed k r hr
  valid k hk := h.valid k ((OrderedMap.has_updateAll _ _ _ _).symm.trans hk)
  indexed := h.indexed

/-- what the radius of a containment's fault is computed from, on some topology -/
def inputOn (s : RuntimeSnapshot) (record : ContainmentRecord) (fault : FaultRecord) (t : Topology) : BlastRadiusInput where
  topology := t
  policy := s.policy
  fault := fault
  epoch := s.epoch
  generation := record.generation

/-- what a fault holds on some topology -/
def HeldOn (s : RuntimeSnapshot) (fault : FaultRecord) (t : Topology) (d : ResourceId) : Prop :=
  ∃ subject, t.resources.find fault.evidence.subject = some subject ∧
    Held t (s.policy.ruleFor fault.evidence.kind) fault.evidence.kind subject d

section Computed

variable {s : RuntimeSnapshot} {record : ContainmentRecord} {fault : FaultRecord} {t : Topology}

/-- the computation finds what is held -/
theorem mem_computed (hw : WellFormed t) {radius : Records.BlastRadius}
    (h : computeBlastRadius (inputOn s record fault t) = .ok radius) (d : ResourceId) :
    d ∈ radius.mandatory ↔ HeldOn s fault t d := by
  cases hs : t.resources.find fault.evidence.subject with
  | none =>
    unfold computeBlastRadius inputOn at h
    rw [hs] at h
    simp at h
  | some subject =>
    obtain ⟨hok, hspec, -⟩ := @computeBlastRadius_spec (inputOn s record fault t) hw subject hs
    obtain rfl := Except.ok.inj (h.symm.trans hok)
    rw [show d ∈ (radiusOf (inputOn s record fault t) subject).mandatory ↔ _ from hspec.mandatory d]
    constructor
    · exact fun hd => ⟨subject, hs, hd⟩
    · rintro ⟨subject', hs', hd⟩
      rwa [← Option.some.inj (hs.symm.trans hs')] at hd

/-- the computation ends when the subject is registered -/
theorem computed_of_registered (record : ContainmentRecord) (hw : WellFormed t) {subject : ResourceRecord}
    (hs : t.resources.find fault.evidence.subject = some subject) :
    ∃ radius, computeBlastRadius (inputOn s record fault t) = .ok radius :=
  ⟨_, (@computeBlastRadius_spec (inputOn s record fault t) hw subject hs).1⟩

/-- what is held is what is computed -/
theorem heldOn_iff (record : ContainmentRecord) (hw : WellFormed t) (d : ResourceId) : HeldOn s fault t d ↔
    (computeBlastRadius (inputOn s record fault t)).toOption.any (fun radius => decide (d ∈ radius.mandatory)) = true := by
  constructor
  · rintro ⟨subject, hs, hd⟩
    obtain ⟨radius, hradius⟩ := computed_of_registered record hw hs
    rw [hradius]
    exact decide_eq_true ((mem_computed hw hradius d).mpr ⟨subject, hs, hd⟩)
  · intro h
    obtain ⟨radius, hradius, hd⟩ := ok_of_toOption_any h
    exact (mem_computed hw hradius d).mp (of_decide_eq_true hd)

theorem length_eq_ncard {a : IdTag} {ids : IdSet a} (h : SortedSet ids) : ids.length = {d | d ∈ ids}.ncard := by
  have hnodup : ids.Nodup := h.imp fun hlt => ne_of_lt hlt
  have hset : {d | d ∈ ids} = (ids.toFinset : Set (Id a)) := by
    ext d
    simp
  rw [hset, Set.ncard_coe_finset, List.toFinset_card_of_nodup hnodup]

/-- the number of resources a fault holds -/
noncomputable def heldCount (s : RuntimeSnapshot) (fault : FaultRecord) (t : Topology) : ℕ := {d | HeldOn s fault t d}.ncard

/-- nothing is held without a registered subject -/
theorem heldCount_unregistered (hs : t.resources.find fault.evidence.subject = none) : heldCount s fault t = 0 := by
  have hempty : {d | HeldOn s fault t d} = ∅ := by
    ext d
    simp [HeldOn, hs]
  rw [heldCount, hempty, Set.ncard_empty]

/-- **What the recheck counts**: the resources the fault holds around the fences. -/
theorem increased_iff (hw : WellFormed s.topology) (hf : s.faults.find record.fault = some fault) :
    radiusIncreased s record = true ↔ record.mandatory.length < heldCount s fault s.topology := by
  unfold radiusIncreased
  rw [hf]
  dsimp only
  cases hs : s.topology.resources.find fault.evidence.subject with
  | none =>
    rw [heldCount_unregistered hs]
    unfold computeBlastRadius
    rw [hs]
    simp
  | some subject =>
    obtain ⟨radius, hok⟩ := computed_of_registered record hw hs
    have hmem := mem_computed hw hok
    have hcount : radius.mandatory.length = heldCount s fault s.topology := by
      rw [length_eq_ncard (mandatory_sorted hok), heldCount]
      congr 1
      ext d
      exact hmem d
    unfold inputOn at hok
    rw [hok, ← hcount]
    exact decide_eq_true_iff

end Computed

/-! ## Ways out -/

/-- nothing that the fault holds leads out of a set: no seed, no proven unconditional edge, no doubt, no exposure -/
structure Confined (t : Topology) (rule : FaultRule) (kind : FaultKind) (subject : ResourceRecord)
    (inside : ResourceId → Prop) : Prop where
  seeds : ∀ d, Seed t rule kind subject d → inside d
  edges : ∀ id s d, inside s → Reached t rule kind subject s → Hard t rule id s d → inside d
  doubt : ∀ d, Escalated t rule kind subject d → inside d
  exposure : ∀ d, Widened t rule kind subject d → inside d

theorem confined_iff {t : Topology} {rule : FaultRule} {kind : FaultKind} {subject : ResourceRecord}
    {inside : ResourceId → Prop} :
    Confined t rule kind subject inside ↔ ∀ d, Held t rule kind subject d → inside d := by
  constructor
  · intro h
    have hreached : ∀ d, Reached t rule kind subject d → inside d := by
      intro d hd
      induction hd with
      | seed hs => exact h.seeds _ hs
      | next hs hhard ih => exact h.edges _ _ _ ih hs hhard
    rintro d (hd | hd | hd)
    · exact hreached d hd
    · exact h.doubt d hd
    · exact h.exposure d hd
  · intro h
    exact ⟨fun d hd => h d (.inl (.seed hd)), fun id s d _ hs hhard => h d (.inl (.next hs hhard)),
      fun d hd => h d (.inr (.inl hd)), fun d hd => h d (.inr (.inr hd))⟩

/-- inside a containment: a member, or released from it -/
def Inside (record : ContainmentRecord) (d : ResourceId) : Prop := d ∈ record.mandatory ∨ d ∈ record.released

/-- nothing leads out of the containment once its fences are down -/
def Settled (s : RuntimeSnapshot) (record : ContainmentRecord) (fault : FaultRecord) : Prop :=
  ∀ subject, (unfenced s.topology record.mandatory).resources.find fault.evidence.subject = some subject →
    Confined (unfenced s.topology record.mandatory) (s.policy.ruleFor fault.evidence.kind) fault.evidence.kind subject
      (Inside record)

/-- the radius without the fences lies inside the containment, if there is one -/
theorem settled_iff {s : RuntimeSnapshot} (hw : WellFormed s.topology) (record : ContainmentRecord) (fault : FaultRecord) :
    Settled s record fault ↔ ∀ radius,
      computeBlastRadius (inputOn s record fault (unfenced s.topology record.mandatory)) = .ok radius →
      ∀ d ∈ radius.mandatory, Inside record d := by
  have hw' := wellFormed_unfenced hw record.mandatory
  constructor
  · intro h radius hok d hd
    obtain ⟨subject, hs, hheld⟩ := (mem_computed hw' hok d).mp hd
    exact confined_iff.mp (h subject hs) d hheld
  · intro h subject hs
    obtain ⟨radius, hok⟩ := computed_of_registered record hw' hs
    exact confined_iff.mpr fun d hd => h radius hok d ((mem_computed hw' hok d).mpr ⟨subject, hs, hd⟩)

/-- A new way out: an edge that an earlier state did not have is fresh, verified and unconditional, and leads from a member, or
from an uncontained resource that such edges reach from one, to an uncontained resource that is no member. -/
def Opened (before s : RuntimeSnapshot) (record : ContainmentRecord) : Prop :=
  ∃ id a d, before.topology.dependencies.edges.find id = none ∧
    Closure.Reach {k | k ∈ record.mandatory} (Hard s.topology (s.policy.ruleFor (kindOf s record))) a ∧
    Hard s.topology (s.policy.ruleFor (kindOf s record)) id a d ∧ d ∉ record.mandatory

/-! ## What a verification notices -/

/-- a verification that reports no increase has the radius without the fences inside the containment -/
def NoticesRadius (clk : Clock) (g : ContainmentGeneration) (i : Impl) : Prop :=
  ∀ v record fault radius, (verifyContainment clk g i).result = .ok v → v.blastRadiusIncreased = false →
    i.state.containments.find g = some record → i.state.faults.find record.fault = some fault →
    computeBlastRadius (inputOn i.state record fault (unfenced i.state.topology record.mandatory)) = .ok radius →
    ∀ d ∈ radius.mandatory, d ∈ record.mandatory ∨ d ∈ record.released

/-- a verification does not report CONTAINED once a way out was added after the commitment -/
def NoticesEdges (clk : Clock) (g : ContainmentGeneration) (before i : Impl) : Prop :=
  ∀ v record, (verifyContainment clk g i).result = .ok v → i.state.containments.find g = some record →
    before.state.containments.has g = true → Opened before.state i.state record → v.outcome ≠ .contained

/-- the condition of the recheck: the way out leads around the fences to more resources than there are members, or there is
no way out -/
def Exceeds (s : RuntimeSnapshot) (record : ContainmentRecord) : Prop :=
  ∀ fault, s.faults.find record.fault = some fault →
    record.mandatory.length < heldCount s fault s.topology ∨ Settled s record fault

theorem noticesRadius_iff (clk : Clock) (g : ContainmentGeneration) {i : Impl} (hw : WellFormed i.state.topology) :
    NoticesRadius clk g i ↔ ∀ record, i.state.containments.find g = some record →
      containmentIsLive record.status = true → Exceeds i.state record := by
  constructor
  · intro h record hfind hlive fault hf
    cases hincreased : radiusIncreased i.state record with
    | true => exact .inl ((increased_iff hw hf).mp hincreased)
    | false =>
      refine .inr ((settled_iff hw record fault).mpr fun radius hok => ?_)
      exact h _ record fault radius (verifyContainment_result.mpr ⟨record, hfind, hlive, rfl⟩) hincreased hfind hf hok
  · intro h v record fault radius hv hincreased hfind hf hok
    obtain ⟨record', hfind', hlive, rfl⟩ := verifyContainment_result.mp hv
    obtain rfl := Option.some.inj (hfind.symm.trans hfind')
    rcases h record hfind hlive fault hf with hmore | hsettled
    · exact absurd ((increased_iff hw hf).mpr hmore) (Bool.eq_false_iff.mp hincreased)
    · exact (settled_iff hw record fault).mp hsettled radius hok

theorem noticesEdges_iff (clk : Clock) (g : ContainmentGeneration) (before i : Impl) :
    NoticesEdges clk g before i ↔ ∀ record, i.state.containments.find g = some record →
      containmentIsLive record.status = true → before.state.containments.has g = true →
      Opened before.state i.state record → ¬ Whole i.state record (clk 0) := by
  constructor
  · intro h record hfind hlive hbefore hopened hwhole
    exact h _ record (verifyContainment_result.mpr ⟨record, hfind, hlive, rfl⟩) hfind hbefore hopened
      ((whole_iff i.state record g (clk 0)).mpr hwhole)
  · intro h v record hv hfind hbefore hopened hcontained
    obtain ⟨record', hfind', hlive, rfl⟩ := verifyContainment_result.mp hv
    obtain rfl := Option.some.inj (hfind.symm.trans hfind')
    exact h record hfind hlive hbefore hopened ((whole_iff i.state record g (clk 0)).mp hcontained)

/-- the condition of a verification: the recheck counts enough or has nothing to find, and a way out added since comes with
another reason to doubt the containment -/
def Noticeable (clk : Clock) (g : ContainmentGeneration) (before i : Impl) : Prop :=
  ∀ record, i.state.containments.find g = some record → containmentIsLive record.status = true →
    Exceeds i.state record ∧ (before.state.containments.has g = true → Opened before.state i.state record →
      ¬ Whole i.state record (clk 0))

/-- **A growth is noticed** in a state of a run that drops registered members only, exactly when the recheck counts enough or
has nothing to find, and a way out added since the commitment comes with another reason to doubt the containment. -/
theorem growth_seen_iff (clk : Clock) (config : Config) (calls later : List Call) (at_ : Clock) (g : ContainmentGeneration)
    (h : Runs.Along Call.after (fun c i => DropsRegistered c.op i) (calls ++ later) (construct clk config)) :
    let before := Runs.run Call.after calls (construct clk config)
    let i := Runs.run Call.after later before
    NoticesRadius at_ g i ∧ NoticesEdges at_ g before i ↔ Noticeable at_ g before i := by
  intro before i
  have hw : WellFormed i.state.topology := by
    have hrun := wellFormed_run clk config (calls ++ later) h
    rwa [Runs.run_append] at hrun
  rw [noticesRadius_iff at_ g hw, noticesEdges_iff at_ g before i]
  constructor
  · intro ⟨hradius, hedges⟩ record hfind hlive
    exact ⟨hradius record hfind hlive, hedges record hfind hlive⟩
  · intro hall
    exact ⟨fun record hfind hlive => (hall record hfind hlive).1, fun record hfind hlive => (hall record hfind hlive).2⟩

/-- the first of three resources fails, the second depends on it, and both are contained with the results of their actions -/
def pairContained : List Call := [
  ⟨ticks, .registerResource { id := ⟨1⟩ }⟩, ⟨ticks, .registerResource { id := ⟨2⟩ }⟩,
  ⟨ticks, .registerResource { id := ⟨3⟩ }⟩,
  ⟨ticks, .registerDependency
    { id := ⟨1⟩, source := ⟨1⟩, destination := ⟨2⟩, freshness := .fresh, integrity := .verified }⟩,
  ⟨ticks, .publishFault { subject := ⟨1⟩, kind := .processDeath }⟩,
  ⟨ticks, .authorizeContainment ⟨1⟩ {}⟩,
  ⟨ticks, .dispatchBegin ⟨1⟩ true⟩,
  ⟨ticks, .dispatchEnd [({ id := ⟨1⟩ }, .ok []), ({ id := ⟨2⟩ }, .ok [])] {}⟩,
  ⟨ticks, .recordActionResult { action := ⟨1⟩, actionGeneration := ⟨1⟩, epoch := ⟨1⟩, success := true }⟩,
  ⟨ticks, .recordActionResult { action := ⟨2⟩, actionGeneration := ⟨1⟩, epoch := ⟨1⟩, success := true }⟩]

/-- then the third comes to depend on the second -/
def thirdDepends : List Call := [⟨ticks, .registerDependency
  { id := ⟨2⟩, source := ⟨2⟩, destination := ⟨3⟩, freshness := .fresh, integrity := .verified }⟩]

theorem growth_seen_thirdDepends :
    let before := Runs.run Call.after pairContained (construct ticks {})
    let i := Runs.run Call.after thirdDepends before
    NoticesRadius ticks ⟨1⟩ i ∧ NoticesEdges ticks ⟨1⟩ before i ↔ Noticeable ticks ⟨1⟩ before i :=
  growth_seen_iff ticks {} pairContained thirdDepends ticks ⟨1⟩ (by decide +kernel)

/-- The recheck reports no increase, and the third resource is held as soon as the fences are down. -/
theorem radius_missed :
    ¬ NoticesRadius ticks ⟨1⟩ (Runs.run Call.after thirdDepends (Runs.run Call.after pairContained (construct ticks {}))) := by
  intro h
  generalize hi : Runs.run Call.after thirdDepends (Runs.run Call.after pairContained (construct ticks {})) = i at h
  have hreport : (verifyContainment ticks ⟨1⟩ i).result.toOption.any (fun v => v.blastRadiusIncreased = false) = true := by
    rw [← hi]
    decide +kernel
  have hheld : (i.state.containments.find ⟨1⟩).any (fun c => (i.state.faults.find c.fault).any fun f =>
      (computeBlastRadius (inputOn i.state c f (unfenced i.state.topology c.mandatory))).toOption.any fun radius =>
        decide (⟨3⟩ ∈ radius.mandatory ∧ ⟨3⟩ ∉ c.mandatory ∧ ⟨3⟩ ∉ c.released)) = true := by
    rw [← hi]
    decide +kernel
  obtain ⟨v, hv, hincreased⟩ := ok_of_toOption_any hreport
  obtain ⟨c, hfind, hheld⟩ := (Option.any_eq_true _ _).mp hheld
  obtain ⟨f, hf, hheld⟩ := (Option.any_eq_true _ _).mp hheld
  obtain ⟨radius, hok, hheld⟩ := ok_of_toOption_any hheld
  obtain ⟨hin, hmember, hreleased⟩ := of_decide_eq_true hheld
  rcases h v c f radius hv (of_decide_eq_true hincreased) hfind hf hok ⟨3⟩ hin with hd | hd
  · exact hmember hd
  · exact hreleased hd

/-- The edge was added after the commitment and leads to an uncontained resource, and the verdict is CONTAINED. -/
theorem edge_missed :
    ¬ NoticesEdges ticks ⟨1⟩ (Runs.run Call.after pairContained (construct ticks {}))
      (Runs.run Call.after thirdDepends (Runs.run Call.after pairContained (construct ticks {}))) := by
  intro h
  generalize hb : Runs.run Call.after pairContained (construct ticks {}) = before at h
  have hbefore : before.state.containments.has ⟨1⟩ = true ∧
      before.state.topology.dependencies.edges.has ⟨2⟩ = false := by
    rw [← hb]
    decide +kernel
  generalize hi : Runs.run Call.after thirdDepends before = i at h
  have hreport : (verifyContainment ticks ⟨1⟩ i).result.toOption.any (fun v => v.outcome = .contained) = true := by
    rw [← hi, ← hb]
    decide +kernel
  have hopened : (i.state.containments.find ⟨1⟩).any (fun c =>
      decide (⟨2⟩ ∈ c.mandatory ∧ ⟨3⟩ ∉ c.mandatory) &&
        (i.state.topology.dependencies.edges.find ⟨2⟩).any fun e =>
          decide (e.source = ⟨2⟩ ∧ e.destination = ⟨3⟩ ∧ e.freshness = .fresh ∧ e.integrity = .verified ∧
            e.conditional = false ∧ (i.state.policy.ruleFor (kindOf i.state c)).propagation ≠ .conditional ∧
            rulePropagatesOver (i.state.policy.ruleFor (kindOf i.state c)) e.kind = true)) = true := by
    rw [← hi, ← hb]
    decide +kernel
  have hopen : (i.state.topology.resources.find ⟨3⟩).any (fun r => !resourceIsContained r) = true := by
    rw [← hi, ← hb]
    decide +kernel
  obtain ⟨v, hv, hcontained⟩ := ok_of_toOption_any hreport
  obtain ⟨c, hfind, hopened⟩ := (Option.any_eq_true _ _).mp hopened
  obtain ⟨hmembers, hedge⟩ := Bool.and_eq_true_iff.mp hopened
  obtain ⟨hsource, houtside⟩ := of_decide_eq_true hmembers
  obtain ⟨e, he, hedge⟩ := (Option.any_eq_true _ _).mp hedge
  obtain ⟨hs, hd, hfresh, hverified, hconditional, hrule, hkind⟩ := of_decide_eq_true hedge
  obtain ⟨r, hr, huncontained⟩ := (Option.any_eq_true _ _).mp hopen
  have hhard : Hard i.state.topology (i.state.policy.ruleFor (kindOf i.state c)) ⟨2⟩ ⟨2⟩ ⟨3⟩ := by
    refine ⟨e, ⟨he, hs, hd, hkind, r, hr, by simpa using huncontained⟩, ⟨hfresh, hverified⟩, ?_⟩
    rintro (hc | hc)
    · exact absurd (hconditional.symm.trans hc) Bool.false_ne_true
    · exact hrule hc
  exact h v c hv hfind hbefore.1
    ⟨⟨2⟩, ⟨2⟩, ⟨3⟩, (OrderedMap.has_eq_false _ _).mp hbefore.2, .seed hsource, hhard, houtside⟩
    (of_decide_eq_true hcontained)

/-- Neither part holds of every run: the recheck misses the growth, and so does the verdict. -/
theorem growth_missed :
    (¬ ∀ (clk : Clock) (config : Config) (calls : List Call) (at_ : Clock) (g : ContainmentGeneration),
      NoticesRadius at_ g (Runs.run Call.after calls (construct clk config))) ∧
    ¬ ∀ (clk : Clock) (config : Config) (calls later : List Call) (at_ : Clock) (g : ContainmentGeneration),
      NoticesEdges at_ g (Runs.run Call.after calls (construct clk config))
        (Runs.run Call.after later (Runs.run Call.after calls (construct clk config))) := by
  constructor
  · intro h
    have hrun := h ticks {} (pairContained ++ thirdDepends) ticks ⟨1⟩
    rw [Runs.run_append] at hrun
    exact radius_missed hrun
  · intro h
    exact edge_missed (h ticks {} pairContained thirdDepends ticks ⟨1⟩)

end FaultContainment.Regrowth
