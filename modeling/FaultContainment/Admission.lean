/-
When a fault is contained on request.

`authorize_containment` asks whether the fault is current, actionable and not contained already, computes the radius, and
turns down one whose mandatory set exceeds the action budget of the rule. All of it can be read off the state before: the
radius is that of the fault's kind and subject, whatever else the record holds.

- `authorizeContainment_isOk_iff`: the request is accepted exactly when the fault is ready and its radius is within the budget.
-/
import FaultContainment.Observations

namespace FaultContainment.Admission

open FaultContainment.Lib FaultContainment.Ids FaultContainment.Enums FaultContainment.Records FaultContainment.BlastRadius
open FaultContainment.Engine

/-! ## Faults that can be contained -/

/-- what a fault of that kind on that subject would contain is within the budget of its rule -/
def WithinBudget (t : Topology) (policy : ContainmentPolicy) (kind : FaultKind) (subject : ResourceId) : Prop :=
  ∃ r ∈ t.resources.find subject,
    (escalate t (policy.ruleFor kind) kind r).2.mandatorySet.length ≤ (policy.ruleFor kind).actionBudget.toNat

instance (t : Topology) (policy : ContainmentPolicy) (kind : FaultKind) (subject : ResourceId) :
    Decidable (WithinBudget t policy kind subject) := inferInstanceAs (Decidable (∃ r ∈ _, _))

/-- the life of the fault is at a point from which it can be contained, and it is not contained already -/
@[mk_iff]
structure Ready (containments : OrderedMap ContainmentGeneration ContainmentRecord) (f : FaultRecord) : Prop where
  current : isFaultCurrent f.state = true
  legal : isLegalFaultTransition f.state .containmentInProgress = true
  actionable : f.actionable = true
  uncontained : f.containmentGeneration.valid = true →
    ∀ c ∈ containments.find f.containmentGeneration, containmentIsLive c.status = false

instance (containments : OrderedMap ContainmentGeneration ContainmentRecord) (f : FaultRecord) :
    Decidable (Ready containments f) := decidable_of_iff _ (ready_iff containments f).symm

/-- the named fault is stored, of the expected generation if one is given, ready, and within the budget on that topology -/
def Admitted (s : RuntimeSnapshot) (t : Topology) (id : FaultId) (expected : FaultGeneration) : Prop :=
  ∃ f ∈ s.faults.find id, (expected.valid = true → f.evidence.generation = expected) ∧ Ready s.containments f ∧
    WithinBudget t s.policy f.evidence.kind f.evidence.subject

instance (s : RuntimeSnapshot) (t : Topology) (id : FaultId) (expected : FaultGeneration) :
    Decidable (Admitted s t id expected) := inferInstanceAs (Decidable (∃ f ∈ _, _))

/-! ## The checks of the request -/

theorem admitRadius_isOk_iff (f : FaultRecord) (i : Impl) : (admitRadius f i).isOk = true ↔
    isLegalFaultTransition f.state .containmentInProgress = true ∧
      WithinBudget i.state.topology i.state.policy f.evidence.kind f.evidence.subject := by
  unfold admitRadius computeBlastRadius WithinBudget
  dsimp only
  cases i.state.topology.resources.find f.evidence.subject with
  | none =>
    refine iff_of_false Bool.false_ne_true ?_
    rintro ⟨-, r, hr, -⟩
    cases hr
  | some r =>
    dsimp only
    have hbudget : (radiusOf
        { topology := i.state.topology, policy := i.state.policy, fault := f, epoch := i.state.epoch
          generation := nextGeneration i.state.containmentGeneration } r).budgetExhausted = true ↔
        (i.state.policy.ruleFor f.evidence.kind).actionBudget.toNat <
          (escalate i.state.topology (i.state.policy.ruleFor f.evidence.kind) f.evidence.kind r).2.mandatorySet.length :=
      decide_eq_true_iff
    simp only [hbudget, Option.mem_def, Option.some.injEq, exists_eq_left', ← not_lt]
    split_ifs with hexceeded hlegal
    · exact iff_of_false Bool.false_ne_true fun h => h.2 hexceeded
    · exact iff_of_true rfl ⟨hlegal, hexceeded⟩
    · exact iff_of_false Bool.false_ne_true fun h => hlegal h.1

/-- the fault a request goes on with -/
theorem admitContainment_iff {id : FaultId} {expected : FaultGeneration} {f : FaultRecord} {i : Impl} :
    admitContainment id expected i = .ok f ↔ i.state.faults.find id = some f ∧
      (expected.valid = true → f.evidence.generation = expected) ∧ isFaultCurrent f.state = true ∧
      f.actionable = true ∧ (f.containmentGeneration.valid = true →
        ∀ c ∈ i.state.containments.find f.containmentGeneration, containmentIsLive c.status = false) := by
  unfold admitContainment
  cases hf : i.state.faults.find id with
  | none => simp
  | some f' =>
    have hlive : (f'.containmentGeneration.valid = true ∧ (i.state.containments.find f'.containmentGeneration).any
        (fun c => containmentIsLive c.status) = true) ↔ ¬ (f'.containmentGeneration.valid = true →
          ∀ c ∈ i.state.containments.find f'.containmentGeneration, containmentIsLive c.status = false) := by
      rw [Option.any_eq_true]
      simp [Option.mem_def]
    dsimp only
    split_ifs with hstale hcurrent hactionable hcontained
    · refine iff_of_false (by simp) fun h => ?_
      obtain ⟨rfl⟩ := h.1
      exact hstale.2 (h.2.1 hstale.1)
    · refine iff_of_false (by simp) fun h => ?_
      obtain ⟨rfl⟩ := h.1
      exact hlive.mp hcontained h.2.2.2.2
    · constructor
      · intro h
        obtain rfl := Except.ok.inj h
        exact ⟨rfl, fun hvalid => not_not.mp fun hne => hstale ⟨hvalid, hne⟩, hcurrent, hactionable,
          not_not.mp (mt hlive.mpr hcontained)⟩
      · intro h
        exact congrArg Except.ok (Option.some.inj h.1)
    · refine iff_of_false (by simp) fun h => ?_
      obtain ⟨rfl⟩ := h.1
      exact hactionable h.2.2.2.1
    · refine iff_of_false (by simp) fun h => ?_
      obtain ⟨rfl⟩ := h.1
      exact hcurrent h.2.2.1

/-- **When a fault is contained on request.** -/
theorem authorizeContainment_isOk_iff (clk : Clock) (id : FaultId) (expected : FaultGeneration) (i : Impl) :
    (authorizeContainment clk id expected i).result.isOk = true ↔ Admitted i.state i.state.topology id expected := by
  have hsplit : (authorizeContainment clk id expected i).result.isOk = true ↔
      ∃ f, admitContainment id expected i = .ok f ∧ (admitRadius f i).isOk = true := by
    unfold authorizeContainment
    cases admitContainment id expected i with
    | error e => simp [Step.refuse, Except.isOk, Except.toBool]
    | ok f =>
      dsimp only
      simp only [Except.ok.injEq, exists_eq_left']
      cases admitRadius f i with
      | error e => exact Iff.rfl
      | ok radius => exact Iff.rfl
  rw [hsplit]
  constructor
  · rintro ⟨f, hadmitted, hradius⟩
    obtain ⟨hf, hgeneration, hcurrent, hactionable, huncontained⟩ := admitContainment_iff.mp hadmitted
    obtain ⟨hlegal, hbudget⟩ := (admitRadius_isOk_iff f i).mp hradius
    exact ⟨f, hf, hgeneration, ⟨hcurrent, hlegal, hactionable, huncontained⟩, hbudget⟩
  · rintro ⟨f, hf, hgeneration, hready, hbudget⟩
    exact ⟨f, admitContainment_iff.mpr ⟨hf, hgeneration, hready.current, hready.actionable, hready.uncontained⟩,
      (admitRadius_isOk_iff f i).mpr ⟨hready.legal, hbudget⟩⟩

/-- the request by the generation a stored fault has -/
theorem admitted_iff {id : FaultId} {f : FaultRecord} {s : RuntimeSnapshot} {t : Topology} (hf : s.faults.find id = some f) :
    Admitted s t id f.evidence.generation ↔
      Ready s.containments f ∧ WithinBudget t s.policy f.evidence.kind f.evidence.subject := by
  constructor
  · rintro ⟨f', hf', -, h⟩
    obtain rfl := Option.some.inj (hf.symm.trans hf')
    exact h
  · intro h
    exact ⟨f, hf, fun _ => rfl, h⟩

/-- counting an observation leaves a fault as ready as it was -/
theorem ready_counted (containments : OrderedMap ContainmentGeneration ContainmentRecord) (f : FaultRecord)
    (count : UInt32) (time : UInt64) :
    Ready containments { f with duplicateCount := count, lastUpdatedMs := time } ↔ Ready containments f := by
  rw [ready_iff, ready_iff]

/-- a new fault is ready exactly when its kind requires containment -/
theorem ready_new (containments : OrderedMap ContainmentGeneration ContainmentRecord) (time : UInt64)
    (evidence : FaultEvidence) (policy : ContainmentPolicy) :
    Ready containments (newFault time evidence policy) ↔ (policy.ruleFor evidence.kind).mandatoryContainment = true := by
  cases hrequired : (policy.ruleFor evidence.kind).mandatoryContainment with
  | true =>
    have hstate : (newFault time evidence policy).state = .containmentRequired := if_pos hrequired
    refine iff_of_true ⟨?_, ?_, rfl, fun hvalid => absurd hvalid Bool.false_ne_true⟩ rfl
    · rw [hstate]
      rfl
    · rw [hstate]
      rfl
  | false =>
    have hstate : (newFault time evidence policy).state = .observed := if_neg (by rw [hrequired]; exact Bool.false_ne_true)
    refine iff_of_false (fun h => ?_) Bool.false_ne_true
    have hlegal := h.legal
    rw [hstate] at hlegal
    exact absurd hlegal (by decide)

/-- a publication leaves what a containment depends on alone -/
theorem publishFault_frame (clk : Clock) (evidence : FaultEvidence) (i : Impl) :
    (publishFault clk evidence i).impl.state.topology = i.state.topology ∧
      (publishFault clk evidence i).impl.state.policy = i.state.policy ∧
      (publishFault clk evidence i).impl.state.containments = i.state.containments := by
  have hframe := frame_run ⟨clk, .publishFault evidence⟩ i
  exact ⟨hframe.topology (by simp [Op.parts]), hframe.policy (by simp [Op.parts]), hframe.containments (by simp [Op.parts])⟩

end FaultContainment.Admission
