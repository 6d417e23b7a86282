/-
Granted releases, against the state they are granted in.

A release is assessed against the verification stored with the containment. Nothing looks at how old that verification is,
and a request that names a containment is not asked whether the containment is live or covers the resource. A grant rests
on current proof exactly when what the request resolves to is `Grounded`.

- `granted_iff`: everything the criteria ask.
- `evident_after`: the actions of a containment that was once verified as CONTAINED keep their evidence.
- `grantSound_iff`: when a grant rests on current proof.
- `granted_superseded`: a release granted on a superseded verification.
-/
import FaultContainment.Verdict

namespace FaultContainment.Grants

open FaultContainment.Lib FaultContainment.Ids FaultContainment.Enums FaultContainment.Records
open FaultContainment.DurableEvent FaultContainment.BlastRadius FaultContainment.Engine FaultContainment.Dispatching
open FaultContainment.Containments FaultContainment.Verdict

/-! ## The criteria -/

/-- everything `assess_release` asks of a resource and the containment the request resolves to -/
structure Qualifies (s : RuntimeSnapshot) (request : ReleaseRequest) (r : ResourceRecord) (c : ContainmentRecord) :
    Prop where
  current : request.expectedGeneration.valid = true → r.generation = request.expectedGeneration
  requester : requesterLive s request = true
  authority : request.authority ≠ []
  verified : c.verified = true
  fresh : r.freshness = .fresh
  sequence : request.evidenceSequence.valid = true → request.evidenceSequence ≤ r.evidenceSequence
  policy : (releaseRule s c).allowRelease = true
  elsewhere : heldElsewhere s c.generation request.resource = false
  effective : c.verification.outcome = .contained
  blocked : c.verification.propagationBlocked = true

/-- criteria grant a release exactly when all of them pass -/
theorem judgeCriteria_iff (cs : List Criterion) {a : ReleaseAssessment} (ha : a.granted = false) :
    (judgeCriteria cs a).granted = true ↔ ∀ c ∈ cs, c.finding.passed = true := by
  refine ⟨fun h => Quarantine.judgeCriteria_granted h ha, fun h => ?_⟩
  induction cs generalizing a with
  | nil => rfl
  | cons c cs ih =>
    obtain ⟨hc, hcs⟩ := List.forall_mem_cons.mp h
    unfold judgeCriteria
    dsimp only
    rw [if_pos hc]
    exact ih ha hcs

theorem releaseCriteria_iff (s : RuntimeSnapshot) (request : ReleaseRequest) (r : ResourceRecord)
    (c : ContainmentRecord) : (∀ criterion ∈ releaseCriteria s request r c, criterion.finding.passed = true) ↔
      Qualifies s request r c := by
  have hmap : (∀ criterion ∈ releaseCriteria s request r c, criterion.finding.passed = true) ↔
      ∀ b ∈ (releaseCriteria s request r c).map fun criterion => criterion.finding.passed, b = true :=
    (List.forall_mem_map (P := fun b => b = true)).symm
  have hlist : ((releaseCriteria s request r c).map fun criterion => criterion.finding.passed) =
      [!request.expectedGeneration.valid || decide (r.generation = request.expectedGeneration),
        requesterLive s request, decide (request.authority ≠ []), c.verified,
        decide (r.freshness = .fresh) && (!request.evidenceSequence.valid ||
          decide (request.evidenceSequence ≤ r.evidenceSequence)),
        (releaseRule s c).allowRelease, !heldElsewhere s c.generation request.resource,
        decide (c.verification.outcome = .contained), c.verification.propagationBlocked] := rfl
  rw [hmap, hlist]
  simp only [List.forall_mem_cons, List.not_mem_nil, false_implies, implies_true, and_true, Bool.or_eq_true,
    Bool.and_eq_true, Bool.not_eq_true', decide_eq_true_eq]
  constructor
  · rintro ⟨h1, h2, h3, h4, ⟨h5, h6⟩, h7, h8, h9, h10⟩
    exact ⟨fun hv => h1.resolve_left (by simp [hv]), h2, h3, h4, h5, fun hv => h6.resolve_left (by simp [hv]), h7, h8, h9,
      h10⟩
  · intro h
    refine ⟨?_, h.requester, h.authority, h.verified, ⟨h.fresh, ?_⟩, h.policy, h.elsewhere, h.effective, h.blocked⟩
    · cases hv : request.expectedGeneration.valid with
      | false => exact .inl rfl
      | true => exact .inr (h.current hv)
    · cases hv : request.evidenceSequence.valid with
      | false => exact .inl rfl
      | true => exact .inr (h.sequence hv)

/-- **What a grant found.** -/
theorem granted_iff (s : RuntimeSnapshot) (request : ReleaseRequest) : (assessRelease s request).granted = true ↔
    ∃ r c, s.topology.resources.find request.resource = some r ∧ containmentFor s request = some c ∧
      Qualifies s request r c := by
  unfold assessRelease
  cases hr : s.topology.resources.find request.resource with
  | none => simp
  | some r =>
    cases hc : containmentFor s request with
    | none => simp
    | some c =>
      dsimp only
      rw [judgeCriteria_iff _ rfl, releaseCriteria_iff]
      constructor
      · exact fun h => ⟨r, c, rfl, rfl, h⟩
      · rintro ⟨r', c', hr', hc', h⟩
        rwa [Option.some.inj hr', Option.some.inj hc']

/-! ## Evidence lasts -/

/-- evidence is never lost -/
theorem evident_reaches {st st' : ActionStatus} (h : Reaches st st') (he : evident st = true) : st' = st := by
  rcases Relation.ReflTransGen.cases_head h with rfl | ⟨mid, hmove, -⟩
  · rfl
  · cases hmove <;> simp [evident] at he

/-- all the actions have evidence -/
def AllEvident (i : Impl) (ids : List ActionId) : Prop :=
  ∀ id ∈ ids, ∃ a, i.state.actions.find id = some a ∧ evident a.status = true

theorem allEvident_after (c : Call) {i : Impl} {ids : List ActionId} (h : AllEvident i ids) :
    AllEvident (c.after i) ids := by
  intro id hid
  obtain ⟨a, ha, he⟩ := h id hid
  obtain ⟨a', ha', hreach⟩ := (reaches_after c i id).1 a ha
  exact ⟨a', ha', (evident_reaches hreach he).symm ▸ he⟩

/-- a containment whose last verification is CONTAINED has evidence for all its actions -/
def Evidenced (i : Impl) : Prop :=
  ∀ g c, i.state.containments.find g = some c → c.verified = true → c.verification.outcome = .contained →
    AllEvident i c.actions

/-- **Step.** Every operation keeps the evidence of what was verified as CONTAINED. -/
theorem evidenced_after (c : Call) {i : Impl} (h : Evidenced i) : Evidenced (c.after i) := by
  have hkept : ∀ g b, i.state.containments.find g = some b → b.verified = true → b.verification.outcome = .contained →
      AllEvident (c.after i) b.actions := fun g b hb hv ho => allEvident_after c (h g b hb hv ho)
  cases writes c i with
  | none hc => exact fun g b hb => hkept g b (hc ▸ hb)
  | verify g record _ _ _ hc =>
    refine each_insert hc (fun _ ho => allEvident_after c ?_) hkept
    exact ((contained_iff _ _ _ _).mp ho).evident
  | release g record request _ _ _ hfind hc => exact each_insert hc (hkept g record hfind) hkept
  | commit id expected fault radius _ _ _ hc =>
    exact each_emplace hc (fun hv => by simp [committed, newContainment] at hv) hkept

theorem evidenced_construct (clk : Clock) (config : Config) : Evidenced (construct clk config) := by
  intro g c hc
  have hnone : (construct clk config).state.containments.find g = none := OrderedMap.find_empty g
  exact absurd (hnone.symm.trans hc) (by simp)

/-! ## Grants on current proof -/

/-- what a verification looks at besides the evidence of the actions: the epoch and policy the containment was committed
under are current, no fault has appeared in it since, degraded operation leaves it out, no recorded path is open, and its
mandatory resources are fenced -/
structure Unspoiled (s : RuntimeSnapshot) (c : ContainmentRecord) (nowMs : UInt64) : Prop where
  envelope : c.epoch = s.epoch ∧ c.policyGeneration = s.policyGeneration
  secondary : secondaryFailure s c = false
  degraded : (runChecks s c nowMs).degradedValid = true
  severed : (runChecks s c nowMs).propagationContinued = false
  fenced : ∀ k ∈ c.mandatory, provenContained s k = true

/-- a request that meets the criteria resolves to an unspoiled containment that is live and lists the resource -/
def Grounded (s : RuntimeSnapshot) (request : ReleaseRequest) (nowMs : UInt64) : Prop :=
  ∀ r ∈ s.topology.resources.find request.resource, ∀ c ∈ containmentFor s request, Qualifies s request r c →
    (request.containmentGeneration.valid = true → containmentIsLive c.status = true ∧
      (request.resource ∈ c.mandatory ∨ request.resource ∈ c.precautionary)) ∧ Unspoiled s c nowMs

instance (s : RuntimeSnapshot) (request : ReleaseRequest) (r : ResourceRecord) (c : ContainmentRecord) :
    Decidable (Qualifies s request r c) := decidable_of_iff _ (releaseCriteria_iff s request r c)

/-- a grant is about a live containment that lists the resource, the resource is fresh and in no other live mandatory set,
and a verification executed now comes out CONTAINED with propagation blocked -/
def GrantSound (clk : Clock) (request : ReleaseRequest) (i : Impl) : Prop :=
  (assessRelease i.state request).granted = true →
    ∃ r c, i.state.topology.resources.find request.resource = some r ∧ containmentFor i.state request = some c ∧
      containmentIsLive c.status = true ∧ (request.resource ∈ c.mandatory ∨ request.resource ∈ c.precautionary) ∧
      r.freshness = .fresh ∧
      (∀ g other, i.state.containments.find g = some other → g ≠ c.generation → containmentIsLive other.status = true →
        request.resource ∉ other.mandatory) ∧
      ∃ v, (verifyContainment clk c.generation i).result = .ok v ∧ v.outcome = .contained ∧ v.propagationBlocked = true

theorem standing_iff {i : Impl} {c : ContainmentRecord} {nowMs : UInt64} (he : AllEvident i c.actions) :
    Standing i.state c nowMs ↔ Unspoiled i.state c nowMs := by
  have henvelope : (runChecks i.state c nowMs).envelopeCurrent = true ↔
      c.epoch = i.state.epoch ∧ c.policyGeneration = i.state.policyGeneration := by
    show (decide (c.epoch = i.state.epoch) && decide (c.policyGeneration = i.state.policyGeneration)) = true ↔ _
    rw [Bool.and_eq_true, decide_eq_true_eq, decide_eq_true_eq]
  have hevidenced : (runChecks i.state c nowMs).actionsEvidenced = true := by
    show (decide (c.actions = []) || decide (evidencedActions i.state c = c.actions.length)) = true
    rw [Bool.or_eq_true, decide_eq_true_eq, decide_eq_true_eq, evidencedActions, List.length_filter_eq_length_iff]
    refine .inr fun id hid => ?_
    obtain ⟨a, ha, hst⟩ := he id hid
    rw [ha, Option.any_some]
    cases hs : a.status <;> simp [hs, evident] at hst ⊢
  exact ⟨fun h => ⟨henvelope.mp h.envelope, h.secondary, h.degraded, h.severed, h.proven⟩,
    fun h => ⟨henvelope.mpr h.envelope, h.secondary, h.degraded, h.severed, hevidenced, h.fenced⟩⟩

/-- a containment that is not named is a live one that lists the resource -/
theorem lists_of_containmentFor {s : RuntimeSnapshot} {request : ReleaseRequest} {c : ContainmentRecord}
    (hc : containmentFor s request = some c) (hn : ¬ request.containmentGeneration.valid = true) :
    containmentIsLive c.status = true ∧ (request.resource ∈ c.mandatory ∨ request.resource ∈ c.precautionary) := by
  unfold containmentFor at hc
  rw [if_neg hn] at hc
  have hp := List.find?_some hc
  rw [Bool.and_eq_true, Bool.or_eq_true] at hp
  exact ⟨hp.1, hp.2.imp mem_of_idSetContains mem_of_idSetContains⟩

/-- the criterion about other containments looks at their mandatory sets -/
theorem heldElsewhere_iff {s : RuntimeSnapshot} (h : Listed s) (g : ContainmentGeneration) (d : ResourceId) :
    heldElsewhere s g d = false ↔ ∀ g' other, s.containments.find g' = some other → g' ≠ g →
      containmentIsLive other.status = true → d ∉ other.mandatory := by
  rw [heldElsewhere, List.any_eq_false]
  constructor
  · intro hnone g' other hfind hne hlive hmem
    have hout : idSetContains other.released d = false := by
      rw [Bool.eq_false_iff]
      exact fun hin => h.apart g' other hfind d hmem (mem_of_idSetContains hin)
    have hp := hnone (g', other) ((OrderedMap.mem_toList _ _ _).mpr hfind)
    simp [hne, hlive, (idSetContains_iff (h.sorted g' other hfind) d).mpr hmem, hout] at hp
  · rintro hnone ⟨g', other⟩ hmem
    have hfind := (OrderedMap.mem_toList _ _ _).mp hmem
    simp only [Bool.and_eq_true, decide_eq_true_eq, Bool.not_eq_true', not_and]
    rintro ⟨⟨hne, hlive⟩, hin⟩
    exact absurd (mem_of_idSetContains hin) (hnone g' other hfind hne hlive)

/-- **Exactly when a grant rests on current proof.** -/
theorem grantSound_iff {i : Impl} (hl : Listed i.state) (he : Evidenced i) (clk : Clock) (request : ReleaseRequest) :
    GrantSound clk request i ↔ Grounded i.state request (clk 0) := by
  constructor
  · intro h r hr c hc hq
    obtain ⟨r', c', -, hc', hlive, hlists, -, -, v, hv, houtcome, -⟩ :=
      h ((granted_iff i.state request).mpr ⟨r, c, hr, hc, hq⟩)
    obtain rfl := Option.some.inj (hc.symm.trans hc')
    refine ⟨fun _ => ⟨hlive, hlists⟩, ?_⟩
    have hfind := Quarantine.containmentFor_find hl.keyed hc
    obtain ⟨record, hrecord, -, rfl⟩ := verifyContainment_result.mp hv
    obtain rfl := Option.some.inj (hfind.symm.trans hrecord)
    exact (standing_iff (he _ c hfind hq.verified hq.effective)).mp ((contained_iff _ _ _ _).mp houtcome)
  · intro h hg
    obtain ⟨r, c, hr, hc, hq⟩ := (granted_iff i.state request).mp hg
    obtain ⟨hnamed, hunspoiled⟩ := h r hr c hc hq
    have hfind := Quarantine.containmentFor_find hl.keyed hc
    have hlists : containmentIsLive c.status = true ∧
        (request.resource ∈ c.mandatory ∨ request.resource ∈ c.precautionary) := by
      by_cases hv : request.containmentGeneration.valid = true
      · exact hnamed hv
      · exact lists_of_containmentFor hc hv
    have hstanding := (standing_iff (he _ c hfind hq.verified hq.effective)).mpr hunspoiled
    refine ⟨r, c, hr, hc, hlists.1, hlists.2, hq.fresh, (heldElsewhere_iff hl _ _).mp hq.elsewhere,
      verificationOf i.state c c.generation (clk 0), verifyContainment_result.mpr ⟨c, hfind, hlists.1, rfl⟩,
      (contained_iff _ _ _ _).mpr hstanding, ?_⟩
    show (!(runChecks i.state c (clk 0)).propagationContinued) = true
    rw [hstanding.severed]
    rfl

/-- a resource fails, is contained, and the containment is verified -/
def fencedOnce : List Call := [
  ⟨ticks, .registerResource { id := ⟨5⟩, state := .active, freshness := .fresh }⟩,
  ⟨ticks, .publishFault { subject := ⟨5⟩, kind := .processDeath }⟩,
  ⟨ticks, .authorizeContainment ⟨1⟩ {}⟩,
  ⟨ticks, .dispatchBegin ⟨1⟩ true⟩,
  ⟨ticks, .dispatchEnd [({ id := ⟨1⟩ }, .ok [])] {}⟩,
  ⟨ticks, .recordActionResult { action := ⟨1⟩, actionGeneration := ⟨1⟩, epoch := ⟨1⟩, success := true }⟩,
  ⟨ticks, .verifyContainment ⟨1⟩⟩]

def askRelease : ReleaseRequest := { resource := ⟨5⟩, authority := lit "operator" }

/-- A release is granted on a verification under a policy that has been replaced since. -/
theorem granted_superseded :
    ¬ ∀ (clk : Clock) (config : Config) (calls : List Call) (request : ReleaseRequest),
      GrantSound clk request (Runs.run Call.after calls (construct clk config)) := by
  intro h
  have hsound := h ticks {} (fencedOnce ++ [⟨ticks, .setPolicy Policy.makeDefaultPolicy⟩]) askRelease
  generalize hi : Runs.run Call.after (fencedOnce ++ [⟨ticks, .setPolicy Policy.makeDefaultPolicy⟩])
    (construct ticks {}) = i at hsound
  have hgranted : (assessRelease i.state askRelease).granted = true := by
    rw [← hi]
    decide +kernel
  have hunknown : (containmentFor i.state askRelease).all (fun c =>
      (verifyContainment ticks c.generation i).result.toOption.all fun v => v.outcome ≠ .contained) = true := by
    rw [← hi]
    decide +kernel
  obtain ⟨r, c, -, hc, -, -, -, -, v, hv, houtcome, -⟩ := hsound hgranted
  rw [hc, Option.all_some, hv] at hunknown
  simp [Except.toOption, houtcome] at hunknown

end FaultContainment.Grants
