/-
Release only on current proof, along the runs that spare what is verified.

A containment is in force while it is live and its last verification came out CONTAINED: releases are granted on it, and
nothing looks at the containment again. What that verification found can be undone by the operations that follow: a new epoch
or policy, a fault inside, a record that is stored uncontained or usable, an edge that reopens a recorded path, a commitment
that claims what is in use. `Spares` says of each operation, on its arguments and the state it starts from, that it undoes
nothing. Which containment a request names is a matter of its history: the `Log` keeps the commitments as they were made,
and the releases.

- `upheld_after`: an operation that spares what is in force leaves it as its verification found it.
- `grantSound_of_held`: what is upheld is verified as CONTAINED again.
- `grantSound_run`: along every run whose operations spare what is in force, a grant that is asked of a commitment with
  the resource rests on current proof.
-/
import FaultContainment.Releases
import FaultContainment.Engine.Lives
import FaultContainment.Upkeep.Edits

namespace FaultContainment.Upkeep

open FaultContainment.Lib FaultContainment.Ids FaultContainment.Enums FaultContainment.Records
open FaultContainment.DurableEvent FaultContainment.BlastRadius FaultContainment.Policy FaultContainment.Dependency
open FaultContainment.Engine FaultContainment.Dispatching
open FaultContainment.Containments FaultContainment.Verdict FaultContainment.Grants FaultContainment.Releases
open FaultContainment.Degraded FaultContainment.Observations FaultContainment.Membership
open FaultContainment.Engine.Grouping (Resources)
open FaultContainment.Quarantine (Fenced)

/-! ## What is in force -/

/-- a containment that releases are granted on: live, and last verified as CONTAINED -/
def InForce (c : ContainmentRecord) : Prop :=
  containmentIsLive c.status = true ∧ c.verified = true ∧ c.verification.outcome = .contained

/-- nothing is in force -/
def Idle (s : RuntimeSnapshot) : Prop := ∀ c ∈ s.containments.vals, ¬ InForce c

/-- what a verification found of the containment itself: its epoch and policy are current, no fault has appeared in it, its
recorded paths are closed, and its members are fenced -/
structure Stands (s : RuntimeSnapshot) (c : ContainmentRecord) : Prop where
  epoch : c.epoch = s.epoch
  policy : c.policyGeneration = s.policyGeneration
  secondary : secondaryFailure s c = false
  paths : ∀ hop ∈ c.propagation, hopContinues s (kindOf s c) hop = false
  fenced : ∀ k ∈ c.mandatory, ∃ r, s.topology.resources.find k = some r ∧ Fenced r

/-- whatever is usable is a record under its own identity -/
def UsableNamed (s : RuntimeSnapshot) : Prop :=
  ∀ k r, s.topology.resources.find k = some r → usable r = true → k.valid = true ∧ r.id = k

/-- and no live containment claims it -/
structure Apart (s : RuntimeSnapshot) : Prop where
  named : UsableNamed s
  unclaimed : ∀ k r, s.topology.resources.find k = some r → usable r = true → ¬ Claimed s k

/-- what is in force is as its verification found it -/
structure Upheld (s : RuntimeSnapshot) : Prop where
  stands : ∀ c ∈ s.containments.vals, InForce c → Stands s c
  apart : ¬ Idle s → Apart s

/-- a record is under its own identity, or was invented by a lookup and has none -/
def Labelled (m : Resources) : Prop := ∀ k r, m.find k = some r → r.id = k ∨ r.id = {}

/-! ## What an operation must spare -/

/-- a record that stays clear of what is in force: usable only under its own identity and unclaimed, uncontained only where
it reopens no recorded path, and fenced where a containment requires it -/
structure Fits (s : RuntimeSnapshot) (k : ResourceId) (r : ResourceRecord) : Prop where
  apart : usable r = true → k.valid = true ∧ r.id = k ∧ ¬ Claimed s k
  closed : resourceIsContained r = false → ∀ c ∈ s.containments.vals, InForce c → ¬ Reopens s k c
  fenced : ∀ c ∈ s.containments.vals, InForce c → k ∈ c.mandatory → Fenced r

/-- the edge would carry a recorded path of the containment to a destination that is not contained -/
def Reconnects (s : RuntimeSnapshot) (edge : DependencyEdge) (c : ContainmentRecord) : Prop :=
  edge.freshness = .fresh ∧ rulePropagatesOver (ruleOf s c) edge.kind = true ∧
    ∃ hop ∈ c.propagation, hop.dependency = edge.id ∧
      ¬ (hop.outcome = .propagationImpossible ∨ hop.outcome = .propagationBlocked) ∧
      ∃ r ∈ s.topology.resources.find hop.target, resourceIsContained r = false

/-- releasing the resource from `d` reopens no path of what stays in force, and puts nothing in dispute -/
def SparesOthers (s : RuntimeSnapshot) (R : ResourceId) (r : ResourceRecord) (d : ContainmentRecord) : Prop :=
  ∀ c ∈ s.containments.vals, InForce c → Remains d R c →
    R.valid = true ∧ r.id = R ∧ ¬ Reopens s R c ∧ ¬ Disputed s d R R

/-- **The condition.** The operation undoes nothing that a verification in force found. -/
def Spares (c : Call) (i : Impl) : Prop :=
  (¬ Idle i.state → ∀ e ∈ stores c i, Fits i.state e.1 e.2) ∧
  match c.op with
  | .registerDependency edge =>
    admitRegisterDependency edge i = .ok () → ∀ c ∈ i.state.containments.vals, InForce c → ¬ Reconnects i.state edge c
  | .setPolicy policy => validatePolicy policy = .ok () → ∀ d ∈ i.state.containments.vals, InForce d →
      nextGeneration i.state.policyGeneration = i.state.policyGeneration ∧
      ∀ hop ∈ d.propagation, hopContinues { i.state with policy := policy } (kindOf i.state d) hop = false
  | .beginEpoch _ _ => Idle i.state ∨ nextGeneration i.state.epoch = i.state.epoch
  | .publishFault evidence => Enters evidence i → ∀ d ∈ i.state.containments.vals, InForce d →
      idSetContains d.mandatory evidence.subject = true → c.clk 0 < d.committedAtMs
  | .authorizeContainment id expected => ¬ Idle i.state → ∀ fault ∈ (admitContainment id expected i).toOption,
      ∀ radius ∈ (admitRadius fault i).toOption, ∀ k ∈ radius.precautionary,
        ∀ r ∈ i.state.topology.resources.find k, usable r = false
  | .verifyContainment _ => UsableNamed i.state
  | .authorizeRelease request => ∀ d ∈ containmentFor i.state request,
      ∀ r ∈ i.state.topology.resources.find request.resource, Qualifies i.state request r d →
        SparesOthers i.state request.resource r d
  | _ => True

section Decidable

instance (c : ContainmentRecord) : Decidable (InForce c) := inferInstanceAs (Decidable (_ ∧ _ ∧ _))

instance (s : RuntimeSnapshot) : Decidable (Idle s) := inferInstanceAs (Decidable (∀ c ∈ s.containments.vals, _))

instance (s : RuntimeSnapshot) : Decidable (UsableNamed s) :=
  decidable_of_iff (∀ e ∈ s.topology.resources.toList, usable e.2 = true → e.1.valid = true ∧ e.2.id = e.1)
    ⟨fun h k r hr => h (k, r) ((OrderedMap.mem_toList _ _ _).mpr hr),
      fun h e he => h e.1 e.2 ((OrderedMap.mem_toList _ _ _).mp he)⟩

instance (s : RuntimeSnapshot) (k : ResourceId) : Decidable (Claimed s k) :=
  inferInstanceAs (Decidable (∃ c ∈ s.containments.vals, _))

instance (r : ResourceRecord) : Decidable (Fenced r) := inferInstanceAs (Decidable (_ ∧ _))

instance (s : RuntimeSnapshot) (k : ResourceId) (r : ResourceRecord) : Decidable (Fits s k r) :=
  decidable_of_iff ((usable r = true → k.valid = true ∧ r.id = k ∧ ¬ Claimed s k) ∧
      (resourceIsContained r = false → ∀ c ∈ s.containments.vals, InForce c → ¬ Reopens s k c) ∧
      ∀ c ∈ s.containments.vals, InForce c → k ∈ c.mandatory → Fenced r)
    ⟨fun ⟨ha, hc, hf⟩ => ⟨ha, hc, hf⟩, fun h => ⟨h.apart, h.closed, h.fenced⟩⟩

instance (s : RuntimeSnapshot) (edge : DependencyEdge) (c : ContainmentRecord) : Decidable (Reconnects s edge c) :=
  inferInstanceAs (Decidable (_ ∧ _ ∧ ∃ hop ∈ c.propagation, _))

instance (s : RuntimeSnapshot) (R : ResourceId) (r : ResourceRecord) (d : ContainmentRecord) :
    Decidable (SparesOthers s R r d) := inferInstanceAs (Decidable (∀ c ∈ s.containments.vals, _))

instance (e : Except Error Unit) : Decidable (∃ x, e = .error x) :=
  match e with
  | .error x => isTrue ⟨x, rfl⟩
  | .ok () => isFalse (by simp)

instance decidableSpares (c : Call) (i : Impl) : Decidable (Spares c i) := by
  obtain ⟨clk, op⟩ := c
  unfold Spares
  dsimp only
  refine @instDecidableAnd _ _ inferInstance ?_
  split <;> infer_instance

end Decidable

/-! ## What survives of it -/

/-- the containments are listed, for stored faults, and the records and observations are under their names -/
structure Kept (i : Impl) : Prop where
  arranged : Arranged i.state
  cataloged : Cataloged i
  charged : ∀ g c, i.state.containments.find g = some c → i.state.faults.has c.fault = true
  labelled : Labelled i.state.topology.resources

theorem kept_construct (clk : Clock) (config : Config) : Kept (construct clk config) := by
  refine ⟨arranged_construct clk config, cataloged_construct clk config, fun g c hc => ?_, fun k r hr => ?_⟩
  · have hnone : (construct clk config).state.containments.find g = none := OrderedMap.find_empty g
    exact absurd (hnone.symm.trans hc) (by simp)
  · have hnone : (construct clk config).state.topology.resources.find k = none := OrderedMap.find_empty k
    exact absurd (hnone.symm.trans hr) (by simp)

/-- no fault is dropped -/
theorem hasFault_after (c : Call) (i : Impl) {id : FaultId} (h : i.state.faults.has id = true) :
    (c.after i).state.faults.has id = true := by
  obtain ⟨f, hf⟩ := (OrderedMap.has_iff _ _).mp h
  have hinsert : ∀ k f', ((i.state.faults.insert k f').has id = true) := by
    intro k f'
    rw [OrderedMap.has_iff]
    by_cases hk : k = id
    · exact ⟨f', by rw [hk, OrderedMap.find_insert_self]⟩
    · exact ⟨f, by rw [OrderedMap.find_insert_ne _ _ hk, hf]⟩
  have hrevised : Revised i.state.faults (c.after i).state.faults → (c.after i).state.faults.has id = true := by
    rintro (hsame | ⟨k, -, f', -, -, hm⟩)
    · rwa [hsame]
    · rw [hm]
      exact hinsert k f'
  by_cases hpublish : ∃ evidence, c.op = .publishFault evidence
  · obtain ⟨clk, op⟩ := c
    obtain ⟨evidence, rfl⟩ := hpublish
    rcases written_publishFault clk evidence i with hr | ⟨k, f', -, hm⟩
    · exact hrevised hr
    · show (publishFault clk evidence i).impl.state.faults.has id = true
      rw [hm]
      exact hinsert k f'
  · exact hrevised (revised_after c i fun evidence he => hpublish ⟨evidence, he⟩)

/-- the records that an operation stores of its own are under their identities, or have none -/
theorem labelled_stores {c : Call} {i : Impl} (h : Labelled i.state.topology.resources) {k : ResourceId}
    {r : ResourceRecord} (hr : (k, r) ∈ stores c i) : r.id = k ∨ r.id = {} := by
  obtain ⟨clk, op⟩ := c
  cases op
  case registerResource record =>
    dsimp only [stores] at hr
    split_ifs at hr
    · obtain ⟨rfl, rfl⟩ := Prod.mk.inj (List.mem_singleton.mp hr)
      exact .inl rfl
    · cases hr
  case updateResource record expected =>
    dsimp only [stores] at hr
    split_ifs at hr
    · obtain ⟨rfl, rfl⟩ := Prod.mk.inj (List.mem_singleton.mp hr)
      exact .inl rfl
    · cases hr
  case publishResourceEvidence id expected freshness sequence mechanism source =>
    dsimp only [stores] at hr
    cases hadmitted : admitEvidence id expected sequence i with
    | error e =>
      rw [hadmitted] at hr
      cases hr
    | ok r₀ =>
      rw [hadmitted] at hr
      obtain ⟨rfl, rfl⟩ := Prod.mk.inj (List.mem_singleton.mp hr)
      exact h _ r₀ (Quarantine.admitEvidence_ok hadmitted)
  all_goals
    obtain ⟨a, -, he⟩ := List.mem_map.mp hr
    exact .inr (congrArg ResourceRecord.id (Prod.mk.inj he).2.symm)

/-- a release puts the record it finds back in service, under the identity it has -/
theorem labelled_after (c : Call) {i : Impl} (hk : OrderedMap.Keyed ContainmentRecord.generation i.state.containments)
    (h : Labelled i.state.topology.resources) : Labelled (c.after i).state.topology.resources := by
  by_cases hrelease : ∀ request, c.op = .authorizeRelease request → (assessRelease i.state request).granted = false
  · intro k r' hr'
    rcases stems_after c i hrelease k r' hr' with ⟨r, hr, htame⟩ | ⟨r, hstored, hmark⟩
    · rw [htame.id]
      exact h k r hr
    · rw [(mark_fields hmark).1]
      exact labelled_stores h hstored
  · obtain ⟨clk, op⟩ := c
    obtain ⟨request, hne⟩ := not_forall.mp hrelease
    obtain ⟨rfl, hgranted⟩ := Classical.not_imp.mp hne
    rw [Bool.not_eq_false] at hgranted
    obtain ⟨r, d, hr, hd, -⟩ := (granted_iff _ _).mp hgranted
    obtain ⟨r', hr', hid, -, -, -, hother⟩ := find_released (released_of_granted clk hk hr hd hgranted)
    intro k b hb
    by_cases hR : k = request.resource
    · subst hR
      obtain rfl := Option.some.inj (hr'.symm.trans hb)
      rw [hid]
      exact h _ r hr
    · exact h k b ((hother k hR).symm.trans hb)

/-- **Step.** Every operation keeps the bookkeeping. -/
theorem kept_after (c : Call) {i : Impl} (h : Kept i) : Kept (c.after i) := by
  obtain ⟨harranged, hcataloged, hcharged, hlabelled⟩ := h
  refine ⟨arranged_after c harranged, cataloged_after c hcataloged, ?_, labelled_after c harranged.listed.keyed hlabelled⟩
  have hold : ∀ g d, i.state.containments.find g = some d → (c.after i).state.faults.has d.fault = true :=
    fun g d hd => hasFault_after c i (hcharged g d hd)
  cases writes c i with
  | none hc => exact hc ▸ hold
  | verify g record _ hfind _ hc => exact each_insert hc (hold g record hfind) hold
  | release g record request _ _ _ hfind hc => exact each_insert hc (hold g record hfind) hold
  | commit id expected fault radius _ hfault _ hc =>
    refine each_emplace hc ?_ hold
    exact hasFault_after c i ((OrderedMap.has_iff _ _).mpr ⟨fault, (admitContainment_ok hfault).1⟩)

/-! ## What an operation leaves of a standing containment -/

/-- nothing but an epoch change moves the epoch -/
theorem epoch_after {c : Call} {i : Impl} (hspares : Spares c i) (hbusy : ¬ Idle i.state) :
    (c.after i).state.epoch = i.state.epoch := by
  have hframe := frame_run c i
  obtain ⟨clk, op⟩ := c
  cases op
  case beginEpoch nowMs reason => exact hspares.2.resolve_left hbusy
  all_goals exact hframe.epoch (by simp [Op.parts])

/-- nothing but a new policy changes the policy -/
theorem policy_after (c : Call) (i : Impl) (hpolicy : ∀ policy, c.op ≠ .setPolicy policy) :
    (c.after i).state.policy = i.state.policy ∧ (c.after i).state.policyGeneration = i.state.policyGeneration := by
  have hframe := frame_run c i
  obtain ⟨clk, op⟩ := c
  cases op
  case setPolicy policy => exact absurd rfl (hpolicy policy)
  all_goals exact ⟨hframe.policy (by simp [Op.parts]), hframe.policyGeneration (by simp [Op.parts])⟩

/-- the fault of a containment stays of its kind, and none appears in the containment -/
theorem faults_after {c : Call} {i : Impl} (hspares : Spares c i) (hk : Kept i) {g : ContainmentGeneration}
    {d : ContainmentRecord} (hd : i.state.containments.find g = some d) (hforce : InForce d) :
    kindOf (c.after i).state d = kindOf i.state d ∧
      (secondaryFailure i.state d = false → secondaryFailure (c.after i).state d = false) := by
  by_cases hpublish : ∃ evidence, c.op = .publishFault evidence
  · obtain ⟨clk, op⟩ := c
    obtain ⟨evidence, rfl⟩ := hpublish
    exact published_keeps clk evidence hk.cataloged (hk.charged g d hd) fun henters =>
      hspares.2 henters d ((OrderedMap.mem_vals _ _).mpr ⟨g, hd⟩) hforce
  · exact revised_keeps (revised_after c i fun evidence he => hpublish ⟨evidence, he⟩) d

/-- what a live containment requires is required -/
theorem heldBy_of_mandatory {s : RuntimeSnapshot} (h : Listed s) {g : ContainmentGeneration} {d : ContainmentRecord}
    (hd : s.containments.find g = some d) (hlive : containmentIsLive d.status = true) {k : ResourceId}
    (hk : k ∈ d.mandatory) : heldBy s.containments k = true := by
  refine List.any_eq_true.mpr ⟨d, (OrderedMap.mem_vals _ _).mpr ⟨g, hd⟩, ?_⟩
  rw [hlive, (idSetContains_iff (h.sorted g d hd) k).mpr hk]
  rfl

theorem fenced_of_mark {r r' : ResourceRecord} (h : mark r' = mark r) (hf : Fenced r) : Fenced r' := (Tame.of_mark h).fenced hf

/-- a hop that is not closed is open where its destination is uncontained and its edge carries the fault -/
theorem hopContinues_iff (s : RuntimeSnapshot) (kind : FaultKind) (hop : PropagationHop) :
    hopContinues s kind hop = true ↔ ¬ (hop.outcome = .propagationImpossible ∨ hop.outcome = .propagationBlocked) ∧
      (∃ r, s.topology.resources.find hop.target = some r ∧ resourceIsContained r = false) ∧
      ∃ e, s.topology.dependencies.edges.find hop.dependency = some e ∧ e.freshness = .fresh ∧
        rulePropagatesOver (s.policy.ruleFor kind) e.kind = true := by
  unfold hopContinues
  split_ifs with hclosed
  · simp [hclosed]
  · cases hr : s.topology.resources.find hop.target with
    | none => simp
    | some r =>
      dsimp only
      split_ifs with hcontained
      · simp [hcontained]
      · simp [hclosed, hcontained, Option.any_eq_true]

/-- the recorded paths stay closed, as far as the policy stays -/
theorem paths_after {c : Call} {i : Impl} (hspares : Spares c i)
    (hrelease : ∀ request, c.op = .authorizeRelease request → (assessRelease i.state request).granted = false)
    (hpolicy : (c.after i).state.policy = i.state.policy) {d : ContainmentRecord}
    (hmem : d ∈ i.state.containments.vals) (hforce : InForce d) (hkind : kindOf (c.after i).state d = kindOf i.state d)
    (hpaths : ∀ hop ∈ d.propagation, hopContinues i.state (kindOf i.state d) hop = false) :
    ∀ hop ∈ d.propagation, hopContinues (c.after i).state (kindOf (c.after i).state d) hop = false := by
  intro hop hhop
  have hbusy : ¬ Idle i.state := fun hidle => hidle d hmem hforce
  rw [← Bool.not_eq_true, hopContinues_iff, hkind, hpolicy]
  rintro ⟨hopen, ⟨r', hr', hcontained'⟩, e, he, hfresh, hcarries⟩
  -- where the destination's record comes from, it was uncontained
  have hbefore : (∃ r, i.state.topology.resources.find hop.target = some r ∧ resourceIsContained r = false) ∨
      ∃ r, (hop.target, r) ∈ stores c i ∧ resourceIsContained r = false := by
    rcases stems_after c i hrelease _ r' hr' with ⟨r, hr, htame⟩ | ⟨r, hstored, hmark⟩
    · refine .inl ⟨r, hr, ?_⟩
      rw [Bool.eq_false_iff]
      exact fun hc => Bool.false_ne_true (hcontained'.symm.trans (htame.contained hc))
    · refine .inr ⟨r, hstored, ?_⟩
      obtain ⟨-, hstate, hquarantined, -⟩ := mark_fields hmark
      rw [← hcontained', resourceIsContained, resourceIsContained, hstate, hquarantined]
  rcases edges_after c i he with hold | ⟨edge, hop', hadmitted, hid, hfreshness, hedge⟩
  · rcases hbefore with hr | ⟨r, hstored, hcontained⟩
    · refine Bool.false_ne_true ((hpaths hop hhop).symm.trans ?_)
      exact (hopContinues_iff _ _ _).mpr ⟨hopen, hr, e, hold, hfresh, hcarries⟩
    · refine ((hspares.1 hbusy _ hstored).closed hcontained d hmem hforce) ⟨hop, hhop, rfl, hopen, ?_⟩
      rw [hold, Option.any_some, hcarries]
      simp [hfresh]
  · obtain ⟨clk, op⟩ := c
    obtain rfl : op = .registerDependency edge := hop'
    rcases hbefore with ⟨r, hr, hcontained⟩ | ⟨r, hstored, -⟩
    · exact hspares.2 hadmitted d hmem hforce ⟨hfreshness ▸ hfresh, hedge ▸ hcarries, hop, hhop, hid, hopen, r, hr, hcontained⟩
    · cases hstored

/-- a policy that is admitted keeps its generation and the paths closed, or it undoes a verification -/
theorem policed_after {clk : Clock} {policy : ContainmentPolicy} {i : Impl} (hspares : Spares ⟨clk, .setPolicy policy⟩ i)
    {d : ContainmentRecord} (hmem : d ∈ i.state.containments.vals) (hforce : InForce d) (h : Stands i.state d) :
    d.policyGeneration = (setPolicy clk policy i).impl.state.policyGeneration ∧ ∀ hop ∈ d.propagation,
      hopContinues (setPolicy clk policy i).impl.state (kindOf (setPolicy clk policy i).impl.state d) hop = false := by
  unfold setPolicy
  cases hvalid : validatePolicy policy with
  | error e => exact ⟨h.policy, h.paths⟩
  | ok =>
    obtain ⟨hsaturated, hclosed⟩ := hspares.2 hvalid d hmem hforce
    exact ⟨h.policy.trans hsaturated.symm, hclosed⟩

/-- **Step.** A containment in force goes on standing where the operation spares it. -/
theorem stands_after {c : Call} {i : Impl} (hspares : Spares c i) (hk : Kept i)
    (hrelease : ∀ request, c.op = .authorizeRelease request → (assessRelease i.state request).granted = false)
    {g : ContainmentGeneration} {d : ContainmentRecord} (hd : i.state.containments.find g = some d) (hforce : InForce d)
    (h : Stands i.state d) : Stands (c.after i).state d := by
  have hmem : d ∈ i.state.containments.vals := (OrderedMap.mem_vals _ _).mpr ⟨g, hd⟩
  have hbusy : ¬ Idle i.state := fun hidle => hidle d hmem hforce
  obtain ⟨hkind, hsecondary⟩ := faults_after hspares hk hd hforce
  have hfenced : ∀ k ∈ d.mandatory, ∃ r, (c.after i).state.topology.resources.find k = some r ∧ Fenced r := by
    intro k hmandatory
    obtain ⟨r₀, hr₀, hf⟩ := h.fenced k hmandatory
    obtain ⟨r', hr'⟩ := (OrderedMap.has_iff _ _).mp (has_after c i ((OrderedMap.has_iff _ _).mpr ⟨r₀, hr₀⟩)
      (heldBy_of_mandatory hk.arranged.listed hd hforce.1 hmandatory))
    refine ⟨r', hr', ?_⟩
    rcases stems_after c i hrelease k r' hr' with ⟨r, hr, htame⟩ | ⟨r, hstored, hmark⟩
    · obtain rfl := Option.some.inj (hr₀.symm.trans hr)
      exact htame.fenced hf
    · exact fenced_of_mark hmark ((hspares.1 hbusy _ hstored).fenced d hmem hforce hmandatory)
  have hset : d.policyGeneration = (c.after i).state.policyGeneration ∧
      ∀ hop ∈ d.propagation, hopContinues (c.after i).state (kindOf (c.after i).state d) hop = false := by
    by_cases hpolicy : ∃ policy, c.op = .setPolicy policy
    · obtain ⟨clk, op⟩ := c
      obtain ⟨policy, rfl⟩ := hpolicy
      exact policed_after hspares hmem hforce h
    · obtain ⟨hsame, hgeneration⟩ := policy_after c i fun policy hop => hpolicy ⟨policy, hop⟩
      exact ⟨h.policy.trans hgeneration.symm, paths_after hspares hrelease hsame hmem hforce hkind h.paths⟩
  exact ⟨h.epoch.trans (epoch_after hspares hbusy).symm, hset.1, hsecondary h.secondary, hset.2, hfenced⟩

/-! ## What is usable, and what is in force -/

/-- what a live containment claims after an operation, it claimed before, or the operation committed it -/
theorem claimed_after {c : Call} {i : Impl} (ha : Arranged i.state) {k : ResourceId} (hk : Claimed (c.after i).state k) :
    Claimed i.state k ∨ ∃ id expected fault radius, c.op = .authorizeContainment id expected ∧
      admitContainment id expected i = .ok fault ∧ admitRadius fault i = .ok radius ∧
      (k ∈ radius.mandatory ∨ k ∈ radius.precautionary) := by
  have hl' := listed_after c ha.listed
  obtain ⟨g, d, hd, hlive, hmem⟩ := (claimed_iff hl' k).mp hk
  have hold : ∀ g d, i.state.containments.find g = some d → containmentIsLive d.status = true →
      (k ∈ d.mandatory ∨ k ∈ d.precautionary) → Claimed i.state k :=
    fun g d hd hlive hmem => (claimed_iff ha.listed k).mpr ⟨g, d, hd, hlive, hmem⟩
  cases writes c i with
  | none hc => exact .inl (hold g d (hc ▸ hd) hlive hmem)
  | verify g' record _ hfind hlive' hc =>
    rw [hc, OrderedMap.find_insert] at hd
    split_ifs at hd
    · obtain rfl := Option.some.inj hd
      exact .inl (hold g' record hfind hlive' hmem)
    · exact .inl (hold g d hd hlive hmem)
  | release g' record request _ _ _ hfind hc =>
    rw [hc, OrderedMap.find_insert] at hd
    split_ifs at hd
    · obtain rfl := Option.some.inj hd
      refine .inl (hold g' record hfind ?_ (hmem.imp mem_of_mem_idSetErase mem_of_mem_idSetErase))
      unfold takeOff at hlive
      dsimp only at hlive
      split_ifs at hlive
      · simp [containmentIsLive] at hlive
      · exact hlive
    · exact .inl (hold g d hd hlive hmem)
  | commit id expected fault radius hop hfault hradius hc =>
    rw [hc, OrderedMap.find_emplace] at hd
    split_ifs at hd
    · obtain rfl := Option.some.inj hd
      exact .inr ⟨id, expected, fault, radius, hop, hfault, hradius, hmem⟩
    · exact .inl (hold g d hd hlive hmem)

/-- what a commitment requires is fenced after it, and not usable -/
theorem unusable_of_committed (clk : Clock) {id : FaultId} {expected : FaultGeneration} {i : Impl} {fault : FaultRecord}
    {radius : Records.BlastRadius} (hfault : admitContainment id expected i = .ok fault)
    (hradius : admitRadius fault i = .ok radius) {k : ResourceId} (hk : k ∈ radius.mandatory) {r : ResourceRecord}
    (hr : (authorizeContainment clk id expected i).impl.state.topology.resources.find k = some r) : usable r = false := by
  have htopology : (authorizeContainment clk id expected i).impl = (commitContainment clk id fault radius i).impl := by
    unfold authorizeContainment
    rw [hfault]
    dsimp only
    rw [hradius]
  rw [htopology, commitContainment_topology] at hr
  dsimp only at hr
  have hhas := (OrderedMap.has_iff _ _).mpr ⟨r, hr⟩
  rw [has_editMap, has_editMap] at hhas
  obtain ⟨r₁, hr₁, hfenced⟩ := Quarantine.editMap_fences (f := fence (clk 0) i.state.workers radius.generation
    (outcomeQuarantines radius.recommended)) (fun r => ⟨rfl, Quarantine.fenced_fence _ _ _ _ r⟩) _ _ hk hhas
  obtain ⟨r₂, hr₂, htame⟩ := TameMap.editMap _ radius.precautionary (fun r r' h => @tame_drain (clk 0) r r' h) k r hr
  obtain rfl := Option.some.inj (hr₁.symm.trans hr₂)
  have hf := htame.fenced hfenced
  unfold usable resourceIsContained
  rw [hf.1]
  simp

/-- **Step.** What is usable stays named and unclaimed. -/
theorem apart_after {c : Call} {i : Impl} (hspares : Spares c i) (hk : Kept i)
    (hrelease : ∀ request, c.op = .authorizeRelease request → (assessRelease i.state request).granted = false)
    (hbusy : ¬ Idle i.state) (h : Apart i.state) : Apart (c.after i).state := by
  have horigin : ∀ k r', (c.after i).state.topology.resources.find k = some r' → usable r' = true →
      k.valid = true ∧ r'.id = k ∧ ¬ Claimed i.state k ∧
        ((∃ r, i.state.topology.resources.find k = some r ∧ usable r = true) ∨ ∃ e ∈ stores c i, e.1 = k) := by
    intro k r' hr' hu
    rcases stems_after c i hrelease k r' hr' with ⟨r, hr, htame⟩ | ⟨r, hstored, hmark⟩
    · have hr_usable := htame.usable hu
      obtain ⟨hvalid, hid⟩ := h.named k r hr hr_usable
      exact ⟨hvalid, htame.id.trans hid, h.unclaimed k r hr hr_usable, .inl ⟨r, hr, hr_usable⟩⟩
    · obtain ⟨hvalid, hid, hunclaimed⟩ := (hspares.1 hbusy _ hstored).apart ((Tame.of_mark hmark).usable hu)
      exact ⟨hvalid, (mark_fields hmark).1.trans hid, hunclaimed, .inr ⟨_, hstored, rfl⟩⟩
  refine ⟨fun k r' hr' hu => ⟨(horigin k r' hr' hu).1, (horigin k r' hr' hu).2.1⟩, fun k r' hr' hu hclaimed => ?_⟩
  obtain ⟨-, -, hunclaimed, hfrom⟩ := horigin k r' hr' hu
  rcases claimed_after hk.arranged hclaimed with hold | ⟨id, expected, fault, radius, hop, hfault, hradius, hmem⟩
  · exact hunclaimed hold
  · obtain ⟨clk, op⟩ := c
    obtain rfl : op = .authorizeContainment id expected := hop
    rcases hmem with hmandatory | hprecautionary
    · exact Bool.false_ne_true ((unusable_of_committed clk hfault hradius hmandatory hr').symm.trans hu)
    · rcases hfrom with ⟨r, hr, hr_usable⟩ | ⟨e, he, -⟩
      · have hspared := hspares.2 hbusy fault (by rw [hfault]; rfl) radius (by rw [hradius]; rfl) k hprecautionary r hr
        exact Bool.false_ne_true (hspared.symm.trans hr_usable)
      · cases he

/-- a containment that stands, where nothing usable is in dispute, has everything a verification asks of it -/
theorem standing_of_stands {i : Impl} (hk : Kept i) (he : Evidenced i) {g : ContainmentGeneration} {d : ContainmentRecord}
    (hd : i.state.containments.find g = some d) (hforce : InForce d) (hstands : Stands i.state d) (hapart : Apart i.state)
    (nowMs : UInt64) : Standing i.state d nowMs := by
  refine (standing_iff (he g d hd hforce.2.1 hforce.2.2)).mpr ⟨⟨hstands.epoch, hstands.policy⟩, hstands.secondary, ?_, ?_, ?_⟩
  · refine (degradedValid_iff hk.arranged.listed hd hforce.1 nowMs).mpr fun k r hr hu => ?_
    obtain ⟨hvalid, hid⟩ := hapart.named k r hr hu
    rw [hid]
    refine ⟨hapart.unclaimed k r hr hu, fun k' r' hr' hsame => ?_⟩
    have hkey : k' = k := by
      rcases hk.labelled k' r' hr' with hlabel | hnone
      · exact hlabel.symm.trans hsame
      · rw [← hsame, hnone] at hvalid
        exact absurd hvalid (by decide)
    subst hkey
    obtain rfl := Option.some.inj (hr.symm.trans hr')
    unfold usable at hu
    simp only [Bool.and_eq_true, decide_eq_true_eq, Bool.not_eq_true'] at hu
    exact ⟨hu.1.2, hu.1.1⟩
  · show d.propagation.any (hopContinues i.state (kindOf i.state d)) = false
    rw [List.any_eq_false]
    exact fun hop hhop => Bool.not_eq_true _ ▸ hstands.paths hop hhop
  · intro k hmem
    obtain ⟨r, hr, hf⟩ := hstands.fenced k hmem
    rw [provenContained, hr, Option.any_some, hf.1, hf.2]
    rfl

/-- and what a verification finds CONTAINED stands -/
theorem stands_of_standing {s : RuntimeSnapshot} {d : ContainmentRecord} {nowMs : UInt64} (h : Standing s d nowMs) :
    Stands s d := by
  have henvelope : (decide (d.epoch = s.epoch) && decide (d.policyGeneration = s.policyGeneration)) = true := h.envelope
  rw [Bool.and_eq_true, decide_eq_true_eq, decide_eq_true_eq] at henvelope
  have hsevered : d.propagation.any (hopContinues s (kindOf s d)) = false := h.severed
  rw [List.any_eq_false] at hsevered
  refine ⟨henvelope.1, henvelope.2, h.secondary, fun hop hhop => Bool.eq_false_iff.mpr (hsevered hop hhop), fun k hk => ?_⟩
  obtain ⟨r, hr, hf⟩ := (Option.any_eq_true _ _).mp (h.proven k hk)
  rw [Bool.and_eq_true] at hf
  exact ⟨r, hr, hf.2, hf.1⟩

/-- with no dispute about what is usable -/
theorem apart_of_standing {i : Impl} (hk : Kept i) (hn : UsableNamed i.state) {g : ContainmentGeneration}
    {d : ContainmentRecord} (hd : i.state.containments.find g = some d) (hlive : containmentIsLive d.status = true)
    {nowMs : UInt64} (h : Standing i.state d nowMs) : Apart i.state := by
  refine ⟨hn, fun k r hr hu => ?_⟩
  have hfree := (degradedValid_iff hk.arranged.listed hd hlive nowMs).mp h.degraded k r hr hu
  exact (hn k r hr hu).2 ▸ hfree.unclaimed

/-! ## Releases -/

section Release

variable {clk : Clock} {R : ResourceId} {r : ResourceRecord} {d : ContainmentRecord} {i j : Impl}

/-- **Step.** A release that spares the others leaves what stays in force standing. -/
theorem upheld_released (h : Released clk R r d i.state j.state) (hk : Kept i) (he : Evidenced i) (hl' : Listed j.state)
    (hd : i.state.containments.find d.generation = some d) (hfresh : r.freshness = .fresh)
    (helsewhere : heldElsewhere i.state d.generation R = false) (hspares : SparesOthers i.state R r d)
    (hup : Upheld i.state) : Upheld j.state := by
  -- what is in force after the release was in force before, and remains
  have hbefore : ∀ c', c' ∈ j.state.containments.vals → InForce c' → ∃ g c, i.state.containments.find g = some c ∧
      c' = kept d R clk c ∧ InForce c ∧ Remains d R c := by
    rintro c' hmem ⟨hlive, hverified, houtcome⟩
    obtain ⟨g, hg⟩ := (OrderedMap.mem_vals _ _).mp hmem
    rw [find_kept h hk.arranged.listed hd, Option.map_eq_some_iff] at hg
    obtain ⟨c, hc, rfl⟩ := hg
    have hremains := (live_kept_iff clk (hk.arranged.listed.sorted g c hc)).mp hlive
    refine ⟨g, c, hc, rfl, ⟨hremains.1, ?_, ?_⟩, hremains⟩
    · unfold kept at hverified
      split_ifs at hverified <;> exact hverified
    · unfold kept at houtcome
      split_ifs at houtcome <;> exact houtcome
  constructor
  · intro c' hmem hforce'
    obtain ⟨g, c, hc, rfl, hforce, hremains⟩ := hbefore c' hmem hforce'
    have hcmem : c ∈ i.state.containments.vals := (OrderedMap.mem_vals _ _).mpr ⟨g, hc⟩
    obtain ⟨-, hid, hclosed, hundisputed⟩ := hspares c hcmem hforce hremains
    have hapart := hup.apart fun hidle => hidle c hcmem hforce
    have hstanding := standing_of_stands hk he hc hforce (hup.stands c hcmem hforce) hapart 0
    have hreleased := standing_released_iff h hk.arranged hl' hd hfresh helsewhere hc hremains hstanding 0
    refine stands_of_standing (hreleased.mpr ⟨hclosed, ?_⟩)
    rwa [hid]
  · intro hbusy
    obtain ⟨c', hmem, hforce'⟩ : ∃ c' ∈ j.state.containments.vals, InForce c' := by
      by_contra hnone
      exact hbusy fun c' hmem hforce => hnone ⟨c', hmem, hforce⟩
    obtain ⟨g, c, hc, -, hforce, hremains⟩ := hbefore c' hmem hforce'
    have hcmem : c ∈ i.state.containments.vals := (OrderedMap.mem_vals _ _).mpr ⟨g, hc⟩
    obtain ⟨hvalid, hid, -, hundisputed⟩ := hspares c hcmem hforce hremains
    have hapart := hup.apart fun hidle => hidle c hcmem hforce
    obtain ⟨r', hr', hid', -, -, -, hother⟩ := find_released h
    have hclaimed := claimed_kept_iff h hk.arranged hl' hd
    refine ⟨fun k b hb hu => ?_, fun k b hb hu hc => ?_⟩
    · by_cases hR : k = R
      · subst hR
        obtain rfl := Option.some.inj (hr'.symm.trans hb)
        exact ⟨hvalid, hid'.trans hid⟩
      · exact hapart.named k b ((hother k hR).symm.trans hb) hu
    · by_cases hR : k = R
      · subst hR
        exact hundisputed (.inl ((hclaimed k).mp hc))
      · refine hapart.unclaimed k b ((hother k hR).symm.trans hb) hu ?_
        obtain ⟨e, hemem, heremains, hlisted, -⟩ := (hclaimed k).mp hc
        obtain ⟨a, ha⟩ := (OrderedMap.mem_vals _ _).mp hemem
        exact (claimed_iff hk.arranged.listed k).mpr ⟨a, e, ha, heremains.1, hlisted⟩

end Release

/-! ## Every operation -/

/-- a verification moves nothing that it looks at -/
theorem stands_verified (clk : Clock) (g : ContainmentGeneration) {i : Impl} {d : ContainmentRecord}
    (h : Stands i.state d) : Stands (verifyContainment clk g i).impl.state d := by
  have hframe := frame_run ⟨clk, .verifyContainment g⟩ i
  have htopology : (verifyContainment clk g i).impl.state.topology = i.state.topology := hframe.topology (by simp [Op.parts])
  have hpolicy : (verifyContainment clk g i).impl.state.policy = i.state.policy := hframe.policy (by simp [Op.parts])
  obtain ⟨hkind, hsecondary⟩ := revised_keeps (revised_verifyContainment clk g i) d
  refine ⟨h.epoch.trans (hframe.epoch (by simp [Op.parts])).symm,
    h.policy.trans (hframe.policyGeneration (by simp [Op.parts])).symm, hsecondary h.secondary, fun hop hhop => ?_, ?_⟩
  · rw [← h.paths hop hhop, hkind]
    unfold hopContinues
    rw [htopology, hpolicy]
  · rw [htopology]
    exact h.fenced

/-- **Step.** A verification puts in force what stands. -/
theorem upheld_verified {clk : Clock} {g : ContainmentGeneration} {i : Impl} (hn : UsableNamed i.state) (hk : Kept i)
    (hup : Upheld i.state) {record : ContainmentRecord} (hfind : i.state.containments.find g = some record)
    (hlive : containmentIsLive record.status = true)
    (hc : (verifyContainment clk g i).impl.state.containments = i.state.containments.insert g
      (withVerification (clk 0) (verificationOf i.state record g (clk 0)) record)) :
    Upheld (verifyContainment clk g i).impl.state := by
  have hverified : InForce (withVerification (clk 0) (verificationOf i.state record g (clk 0)) record) →
      Standing i.state record (clk 0) := fun h => (contained_iff _ _ _ _).mp h.2.2
  constructor
  · intro d hmem hforce
    obtain ⟨a, ha⟩ := (OrderedMap.mem_vals _ _).mp hmem
    rw [hc, OrderedMap.find_insert] at ha
    split_ifs at ha
    · obtain rfl := Option.some.inj ha
      obtain ⟨hepoch, hpolicy, hsecondary, hpaths, hfenced⟩ :=
        stands_verified clk g (stands_of_standing (hverified hforce))
      exact ⟨hepoch, hpolicy, hsecondary, hpaths, hfenced⟩
    · exact stands_verified clk g (hup.stands d ((OrderedMap.mem_vals _ _).mpr ⟨a, ha⟩) hforce)
  · intro hbusy
    have hapart : Apart i.state := by
      by_cases hidle : Idle i.state
      · by_contra hnot
        refine hbusy fun d hmem hforce => ?_
        obtain ⟨a, ha⟩ := (OrderedMap.mem_vals _ _).mp hmem
        rw [hc, OrderedMap.find_insert] at ha
        split_ifs at ha
        · obtain rfl := Option.some.inj ha
          exact hnot (apart_of_standing hk hn hfind hlive (hverified hforce))
        · exact hidle d ((OrderedMap.mem_vals _ _).mpr ⟨a, ha⟩) hforce
      · exact hup.apart hidle
    have htopology : (verifyContainment clk g i).impl.state.topology = i.state.topology :=
      (frame_run ⟨clk, .verifyContainment g⟩ i).topology (by simp [Op.parts])
    refine ⟨fun k r hr => hapart.named k r (htopology ▸ hr), fun k r hr hu hclaimed => ?_⟩
    rcases claimed_after (c := ⟨clk, .verifyContainment g⟩) hk.arranged hclaimed with hold | ⟨id, expected, -, -, hop, -⟩
    · exact hapart.unclaimed k r (htopology ▸ hr) hu hold
    · simp at hop

/-- **Step.** An operation that spares what is in force leaves it as its verification found it. -/
theorem upheld_after {c : Call} {i : Impl} (hspares : Spares c i) (hk : Kept i) (he : Evidenced i)
    (hup : Upheld i.state) : Upheld (c.after i).state := by
  -- what was in force before stands, and something in force keeps what is usable apart
  have hkeep : (∀ request, c.op = .authorizeRelease request → (assessRelease i.state request).granted = false) →
      (∀ d ∈ (c.after i).state.containments.vals, InForce d → ∃ g, i.state.containments.find g = some d) →
        Upheld (c.after i).state := by
    intro hrelease hold
    constructor
    · intro d hmem hforce
      obtain ⟨g, hd⟩ := hold d hmem hforce
      exact stands_after hspares hk hrelease hd hforce (hup.stands d ((OrderedMap.mem_vals _ _).mpr ⟨g, hd⟩) hforce)
    · intro hbusy
      have hbefore : ¬ Idle i.state := by
        refine fun hidle => hbusy fun d hmem hforce => ?_
        obtain ⟨g, hd⟩ := hold d hmem hforce
        exact hidle d ((OrderedMap.mem_vals _ _).mpr ⟨g, hd⟩) hforce
      exact apart_after hspares hk hrelease hbefore (hup.apart hbefore)
  by_cases hrelease : ∀ request, c.op = .authorizeRelease request → (assessRelease i.state request).granted = false
  · cases writes c i with
    | none hc => exact hkeep hrelease fun d hmem _ => (OrderedMap.mem_vals _ _).mp (hc ▸ hmem)
    | verify g record hop hfind hlive hc =>
      obtain ⟨clk, op⟩ := c
      obtain rfl : op = .verifyContainment g := hop
      exact upheld_verified hspares.2 hk hup hfind hlive hc
    | release g record request hop hgranted _ _ _ =>
      exact absurd (hgranted.symm.trans (hrelease request hop)) (by simp)
    | commit id expected fault radius _ _ _ hc =>
      refine hkeep hrelease fun d hmem hforce => ?_
      obtain ⟨g, hd⟩ := (OrderedMap.mem_vals _ _).mp hmem
      rw [hc, OrderedMap.find_emplace] at hd
      split_ifs at hd
      · obtain rfl := Option.some.inj hd
        exact absurd hforce.2.1 (by simp [committed, newContainment])
      · exact ⟨g, hd⟩
  · obtain ⟨clk, op⟩ := c
    obtain ⟨request, hne⟩ := not_forall.mp hrelease
    obtain ⟨rfl, hgranted⟩ := Classical.not_imp.mp hne
    rw [Bool.not_eq_false] at hgranted
    obtain ⟨r, d, hr, hd, hq⟩ := (granted_iff _ _).mp hgranted
    exact upheld_released (released_of_granted clk hk.arranged.listed.keyed hr hd hgranted) hk he
      (listed_after ⟨clk, .authorizeRelease request⟩ hk.arranged.listed)
      (Quarantine.containmentFor_find hk.arranged.listed.keyed hd) hq.fresh hq.elsewhere (hspares.2 d hd r hr hq) hup

/-! ## The history of the containments -/

/-- an engine, the containments as they were committed, and the releases that were granted -/
structure Log where
  impl : Impl
  committed : List ContainmentRecord := []
  released : List (ContainmentGeneration × ResourceId) := []

/-- the containment a call commits -/
def commitmentOf (c : Call) (i : Impl) : Option ContainmentRecord :=
  match c.op with
  | .authorizeContainment id expected => (authorizeContainment c.clk id expected i).result.toOption
  | _ => none

/-- the release a call is granted -/
def releaseOf (c : Call) (i : Impl) : Option (ContainmentGeneration × ResourceId) :=
  match c.op with
  | .authorizeRelease request =>
    if (assessRelease i.state request).granted then
      some ((assessRelease i.state request).containmentGeneration, request.resource)
    else none
  | _ => none

/-- a commitment and what became of it: a member is gone only if it was released, and it is live while it requires one -/
structure Follows (released : List (ContainmentGeneration × ResourceId)) (record d : ContainmentRecord) : Prop where
  mandatory : ∀ k ∈ record.mandatory, (record.generation, k) ∉ released → k ∈ d.mandatory
  precautionary : ∀ k ∈ record.precautionary, (record.generation, k) ∉ released → k ∈ d.precautionary
  live : d.mandatory ≠ [] → containmentIsLive d.status = true

/-- the first commitment under a generation -/
def Log.commitment (l : Log) (g : ContainmentGeneration) : Option ContainmentRecord :=
  l.committed.find? fun record => record.generation = g

/-- the stored containments are the commitments, and follow them -/
structure Tracked (l : Log) : Prop where
  stored : ∀ g, (l.commitment g).isSome = l.impl.state.containments.has g
  follows : ∀ g record, l.commitment g = some record → ∃ d, l.impl.state.containments.find g = some d ∧
    Follows l.released record d

theorem live_statusAfter (outcome : VerificationOutcome) : containmentIsLive (statusAfter outcome) = true := by
  cases outcome <;> rfl

/-- what becomes of a stored containment in one call -/
theorem follows_after (c : Call) {i : Impl} (hl : Listed i.state)
    (hp : ∀ g d, i.state.containments.find g = some d → SortedSet d.precautionary)
    {released : List (ContainmentGeneration × ResourceId)} {record d : ContainmentRecord}
    (hd : i.state.containments.find record.generation = some d) (h : Follows released record d) :
    ∃ d', (c.after i).state.containments.find record.generation = some d' ∧
      Follows ((releaseOf c i).toList ++ released) record d' := by
  have hkept : Follows ((releaseOf c i).toList ++ released) record d :=
    ⟨fun k hk hn => h.mandatory k hk fun hin => hn (List.mem_append_right _ hin),
      fun k hk hn => h.precautionary k hk fun hin => hn (List.mem_append_right _ hin), h.live⟩
  cases writes c i with
  | none hc => exact ⟨d, hc ▸ hd, hkept⟩
  | verify g stored _ hfind _ hc =>
    rw [hc, OrderedMap.find_insert]
    split_ifs with hg
    · obtain rfl : d = stored := Option.some.inj (hd.symm.trans (hg ▸ hfind))
      exact ⟨_, rfl, hkept.mandatory, hkept.precautionary, fun _ => live_statusAfter _⟩
    · exact ⟨d, hd, hkept⟩
  | release g stored request hop hgranted hgeneration hfind hc =>
    rw [hc, OrderedMap.find_insert]
    split_ifs with hg
    · obtain rfl : d = stored := Option.some.inj (hd.symm.trans (hg ▸ hfind))
      have hreleased : releaseOf c i = some (record.generation, request.resource) := by
        unfold releaseOf
        rw [hop]
        dsimp only
        rw [if_pos hgranted, hgeneration, hg]
      have hother : ∀ k, (record.generation, k) ∉ (releaseOf c i).toList ++ released → k ≠ request.resource := by
        rintro k hn rfl
        exact hn (List.mem_append_left _ (by rw [hreleased]; exact List.mem_singleton_self _))
      refine ⟨_, rfl, fun k hk hn => ?_, fun k hk hn => ?_, fun hne => ?_⟩
      · exact (mem_idSetErase (hl.sorted g d hfind) _ _).mpr ⟨hkept.mandatory k hk hn, hother k hn⟩
      · exact (mem_idSetErase (hp g d hfind) _ _).mpr ⟨hkept.precautionary k hk hn, hother k hn⟩
      · unfold takeOff at hne ⊢
        dsimp only at hne ⊢
        rw [if_neg hne]
        refine h.live fun hnil => hne ?_
        rw [hnil]
        rfl
    · exact ⟨d, hd, hkept⟩
  | commit id expected fault radius _ _ _ hc =>
    have hother : ¬ (radius.generation = record.generation ∧ i.state.containments.find radius.generation = none) := by
      rintro ⟨hg, hnone⟩
      rw [hg, hd] at hnone
      cases hnone
    rw [hc, OrderedMap.find_emplace, if_neg hother]
    exact ⟨d, hd, hkept⟩

/-- a call that commits nothing stores nothing more -/
theorem has_of_uncommitted (c : Call) (i : Impl) (h : commitmentOf c i = none) (g : ContainmentGeneration) :
    (c.after i).state.containments.has g = i.state.containments.has g := by
  have hinsert : ∀ g' d d', i.state.containments.find g' = some d →
      (i.state.containments.insert g' d').has g = i.state.containments.has g := by
    intro g' d d' hd
    unfold OrderedMap.has
    rw [OrderedMap.find_insert]
    split_ifs with hg
    · rw [← hg, hd]
      rfl
    · rfl
  cases writes c i with
  | none hc => rw [hc]
  | verify g' d _ hd _ hc => rw [hc, hinsert g' d _ hd]
  | release g' d request _ _ _ hd hc => rw [hc, hinsert g' d _ hd]
  | commit id expected fault radius hop hfault hradius hc =>
    unfold commitmentOf at h
    rw [hop] at h
    dsimp only at h
    unfold authorizeContainment at h
    rw [hfault] at h
    dsimp only at h
    rw [hradius] at h
    cases h

/-- a call that commits a containment stores it, unless its generation is taken -/
theorem stored_of_committed {c : Call} {i : Impl} {record : ContainmentRecord} (h : commitmentOf c i = some record) :
    ∃ d, (c.after i).state.containments = i.state.containments.emplace record.generation d ∧ Follows [] record d := by
  obtain ⟨clk, op⟩ := c
  cases op
  case authorizeContainment id expected =>
    change (authorizeContainment clk id expected i).result.toOption = some record at h
    cases hfault : admitContainment id expected i with
    | error e =>
      unfold authorizeContainment at h
      rw [hfault] at h
      cases h
    | ok fault =>
      cases hradius : admitRadius fault i with
      | error e =>
        unfold authorizeContainment at h
        rw [hfault] at h
        dsimp only at h
        rw [hradius] at h
        cases h
      | ok radius =>
        refine ⟨committed clk id fault radius i, ?_⟩
        rw [show (Call.mk clk (.authorizeContainment id expected)).after i = (authorizeContainment clk id expected i).impl
          from rfl, (authorizeContainment_stored clk hfault hradius).1]
        unfold authorizeContainment at h
        rw [hfault] at h
        dsimp only at h
        rw [hradius] at h
        obtain rfl := Option.some.inj h
        exact ⟨rfl, fun k hk _ => hk, fun k hk _ => hk, fun _ => rfl⟩
  all_goals cases h

/-- **Step.** The log keeps track. -/
theorem tracked_call (c : Call) {l : Log} (ha : Arranged l.impl.state) (h : Tracked l) :
    Tracked ⟨c.after l.impl, l.committed ++ (commitmentOf c l.impl).toList, (releaseOf c l.impl).toList ++ l.released⟩ := by
  have hold : ∀ g record, l.commitment g = some record → ∃ d, (c.after l.impl).state.containments.find g = some d ∧
      Follows ((releaseOf c l.impl).toList ++ l.released) record d := by
    intro g record hrecord
    have hg := List.find?_some hrecord
    rw [decide_eq_true_eq] at hg
    obtain ⟨d, hd, hfollows⟩ := h.follows g record hrecord
    exact hg ▸ follows_after c ha.listed ha.precautionary (hg ▸ hd) hfollows
  cases hcommitted : commitmentOf c l.impl with
  | none =>
    rw [Option.toList_none, List.append_nil]
    exact ⟨fun g => (h.stored g).trans (has_of_uncommitted c l.impl hcommitted g).symm, hold⟩
  | some record =>
    obtain ⟨d, hemplaced, hfollows⟩ := stored_of_committed hcommitted
    have hfirst : ∀ g, (l.committed ++ [record]).find? (fun r => decide (r.generation = g)) =
        (l.commitment g).or (if record.generation = g then some record else none) := by
      intro g
      rw [List.find?_append, List.find?_singleton]
      simp only [Log.commitment, decide_eq_true_eq]
    have hnew : ∀ g, l.commitment g = none → l.impl.state.containments.find g = none := by
      intro g hnone
      have hstored := h.stored g
      rw [hnone] at hstored
      exact (OrderedMap.has_eq_false _ _).mp hstored.symm
    constructor
    · intro g
      show ((l.committed ++ [record]).find? fun r => decide (r.generation = g)).isSome = _
      rw [hfirst, hemplaced, OrderedMap.has, OrderedMap.find_emplace]
      cases hcommitment : l.commitment g with
      | some first =>
        obtain ⟨d₀, hd₀, -⟩ := h.follows g first hcommitment
        have hother : ¬ (record.generation = g ∧ l.impl.state.containments.find record.generation = none) := by
          rintro ⟨rfl, hnone⟩
          exact absurd (hd₀.symm.trans hnone) (by simp)
        rw [if_neg hother, hd₀]
        rfl
      | none =>
        by_cases hg : record.generation = g
        · rw [if_pos hg, if_pos ⟨hg, hg ▸ hnew g hcommitment⟩]
          rfl
        · rw [if_neg hg, if_neg fun hand => hg hand.1, hnew g hcommitment]
          rfl
    · intro g first hfound
      change (l.committed ++ [record]).find? (fun r => decide (r.generation = g)) = some first at hfound
      rw [hfirst] at hfound
      cases hcommitment : l.commitment g with
      | some earlier =>
        rw [hcommitment] at hfound
        obtain rfl := Option.some.inj hfound
        exact hold g earlier hcommitment
      | none =>
        rw [hcommitment, Option.none_or] at hfound
        split_ifs at hfound with hg
        obtain rfl := Option.some.inj hfound
        refine ⟨d, ?_, fun k hk _ => hfollows.mandatory k hk (by simp), fun k hk _ => hfollows.precautionary k hk (by simp),
          hfollows.live⟩
        rw [hemplaced, OrderedMap.find_emplace, if_pos ⟨hg, hg ▸ hnew g hcommitment⟩]

/-! ## Lives -/

/-- a call is noted; after a recovery the history begins with what it brought back -/
def Log.after : Move → Log → Log
  | .call c, l =>
    { impl := c.after l.impl
      committed := l.committed ++ (commitmentOf c l.impl).toList
      released := (releaseOf c l.impl).toList ++ l.released }
  | .snapshot, l => l
  | .recover clk io nowMs s, _ =>
    let i := (recoverFromStore clk io nowMs s).1.impl
    { impl := i, committed := i.state.containments.vals }

/-- what a recovery may bring back: the bookkeeping and the evidence in order, what is required in live containments, and
nothing in force -/
structure Orderly (i : Impl) : Prop where
  kept : Kept i
  evidenced : Evidenced i
  live : ∀ g d, i.state.containments.find g = some d → d.mandatory ≠ [] → containmentIsLive d.status = true
  idle : Idle i.state

/-- **The condition.** Operations undo nothing that a verification in force found, and recoveries bring back an orderly engine
with nothing in force. -/
def SparesInForce : Move → Log → Prop
  | .call c, l => Spares c l.impl
  | .snapshot, _ => True
  | .recover clk io nowMs s, _ => Orderly (recoverFromStore clk io nowMs s).1.impl

/-- a request that names a containment names a commitment with the resource, from which the resource has not been released,
nor everything that it requires -/
def Addressed (l : Log) (request : ReleaseRequest) : Prop :=
  request.containmentGeneration.valid = true → ∃ record ∈ l.commitment request.containmentGeneration,
    (request.resource ∈ record.mandatory ∨ request.resource ∈ record.precautionary) ∧
    (record.generation, request.resource) ∉ l.released ∧ ∃ k ∈ record.mandatory, (record.generation, k) ∉ l.released

instance (l : Log) (request : ReleaseRequest) : Decidable (Addressed l request) :=
  inferInstanceAs (Decidable (_ → ∃ record ∈ l.commitment request.containmentGeneration, _))

/-- the engine's bookkeeping, what is in force, and the history -/
structure Held (l : Log) : Prop where
  kept : Kept l.impl
  evidenced : Evidenced l.impl
  upheld : Upheld l.impl.state
  tracked : Tracked l

theorem held_start (clk : Clock) (config : Config) : Held { impl := construct clk config } := by
  have hnone : ∀ g, (construct clk config).state.containments.find g = none := fun g => OrderedMap.find_empty g
  have hidle : Idle (construct clk config).state := by
    intro d hmem
    obtain ⟨g, hd⟩ := (OrderedMap.mem_vals _ _).mp hmem
    exact absurd ((hnone g).symm.trans hd) (by simp)
  refine ⟨kept_construct clk config, evidenced_construct clk config, ⟨fun d hmem hforce => absurd hforce (hidle d hmem),
    fun hbusy => absurd hidle hbusy⟩, ⟨fun g => ?_, fun g record hrecord => by cases hrecord⟩⟩
  exact ((OrderedMap.has_eq_false _ _).mpr (hnone g)).symm

/-- an orderly engine is where a history may begin -/
theorem held_of_orderly {i : Impl} (h : Orderly i) : Held { impl := i, committed := i.state.containments.vals } := by
  have hkeyed := h.kept.arranged.listed.keyed
  refine ⟨h.kept, h.evidenced, ⟨fun d hmem hforce => absurd hforce (h.idle d hmem), fun hbusy => absurd h.idle hbusy⟩,
    ⟨fun g => ?_, fun g record hrecord => ?_⟩⟩
  · rw [Bool.eq_iff_iff, Log.commitment, List.find?_isSome, OrderedMap.has_iff]
    constructor
    · rintro ⟨d, hmem, hg⟩
      obtain ⟨g', hd⟩ := (OrderedMap.mem_vals _ _).mp hmem
      exact ⟨d, by rw [← of_decide_eq_true hg, hkeyed g' d hd, hd]⟩
    · rintro ⟨d, hd⟩
      exact ⟨d, (OrderedMap.mem_vals _ _).mpr ⟨g, hd⟩, decide_eq_true (hkeyed g d hd)⟩
  · have hg := List.find?_some hrecord
    obtain ⟨g', hd⟩ := (OrderedMap.mem_vals _ _).mp (List.mem_of_find?_eq_some hrecord)
    have hfind : i.state.containments.find g = some record := by
      rw [← of_decide_eq_true hg, hkeyed g' record hd]
      exact hd
    exact ⟨record, hfind, fun k hk _ => hk, fun k hk _ => hk, h.live g record hfind⟩

/-- **Step.** -/
theorem held_after (m : Move) (l : Log) (hm : SparesInForce m l) (h : Held l) : Held (l.after m) := by
  cases m with
  | call c =>
    exact ⟨kept_after c h.kept, evidenced_after c h.evidenced, upheld_after hm h.kept h.evidenced h.upheld,
      tracked_call c h.kept.arranged h.tracked⟩
  | snapshot => exact h
  | recover clk io nowMs s => exact held_of_orderly hm

/-- **Grants.** On what is held, a grant that is asked of such a commitment rests on current proof. -/
theorem grantSound_of_held {l : Log} (h : Held l) (clk : Clock) {request : ReleaseRequest} (haddressed : Addressed l request) :
    GrantSound clk request l.impl := by
  refine (grantSound_iff h.kept.arranged.listed h.evidenced clk request).mpr fun r hr d hd hq => ?_
  have hfind := Quarantine.containmentFor_find h.kept.arranged.listed.keyed hd
  have hlists : containmentIsLive d.status = true ∧
      (request.resource ∈ d.mandatory ∨ request.resource ∈ d.precautionary) := by
    by_cases hnamed : request.containmentGeneration.valid = true
    · obtain ⟨record, hrecord, hmember, hunreleased, k, hk, hrequired⟩ := haddressed hnamed
      obtain ⟨d', hd', hfollows⟩ := h.tracked.follows _ record hrecord
      unfold containmentFor at hd
      rw [if_pos hnamed] at hd
      obtain rfl := Option.some.inj (hd'.symm.trans hd)
      exact ⟨hfollows.live (List.ne_nil_of_mem (hfollows.mandatory k hk hrequired)),
        hmember.imp (fun hm => hfollows.mandatory _ hm hunreleased) fun hp => hfollows.precautionary _ hp hunreleased⟩
    · exact lists_of_containmentFor hd hnamed
  have hforce : InForce d := ⟨hlists.1, hq.verified, hq.effective⟩
  have hmem : d ∈ l.impl.state.containments.vals := (OrderedMap.mem_vals _ _).mpr ⟨_, hfind⟩
  refine ⟨fun _ => hlists, (standing_iff (h.evidenced _ d hfind hq.verified hq.effective)).mp ?_⟩
  exact standing_of_stands h.kept h.evidenced hfind hforce (h.upheld.stands d hmem hforce)
    (h.upheld.apart fun hidle => hidle d hmem hforce) (clk 0)

/-- **Runs.** Along every life of an engine whose operations spare what is in force, a grant that is asked of such a commitment
rests on current proof: its containment is live and lists the resource, and a verification now comes out CONTAINED. -/
theorem grantSound_run (clk : Clock) (config : Config) (ms : List Move)
    (h : Runs.Along Log.after SparesInForce ms { impl := construct clk config }) (clk' : Clock) (request : ReleaseRequest)
    (haddressed : Addressed (Runs.run Log.after ms { impl := construct clk config }) request) :
    GrantSound clk' request (Runs.run Log.after ms { impl := construct clk config }).impl :=
  grantSound_of_held (Runs.run_inv held_after h (held_start clk config)) clk' haddressed

/-- a failed resource and its dependent are contained and verified, and life goes on elsewhere -/
def elsewhere : List Call := fencedPair ++ [
  ⟨ticks, .registerResource { id := ⟨7⟩, state := .active, freshness := .fresh }⟩,
  ⟨ticks, .registerDependency
    { id := ⟨2⟩, source := ⟨6⟩, destination := ⟨7⟩, freshness := .fresh, integrity := .verified }⟩,
  ⟨ticks, .publishFault { subject := ⟨7⟩, kind := .processDeath }⟩,
  ⟨ticks, .publishResourceEvidence ⟨5⟩ {} .fresh {} .none []⟩]

/-- The failed resource is released from the containment by name, and the grant rests on current proof. -/
theorem grantSound_run_elsewhere :
    (assessRelease (Runs.run Log.after (elsewhere.map Move.call) { impl := construct ticks {} }).impl.state
        { askRelease with containmentGeneration := ⟨1⟩ }).granted = true ∧
      GrantSound ticks { askRelease with containmentGeneration := ⟨1⟩ }
        (Runs.run Log.after (elsewhere.map Move.call) { impl := construct ticks {} }).impl := by
  refine ⟨by decide +kernel, grantSound_run ticks {} _ ((Runs.along_map _ _ _).mpr ?_) ticks _ (by decide +kernel)⟩
  show Runs.Along (fun c l => Log.after (.call c) l) (fun c (l : Log) => Spares c l.impl) elsewhere _
  decide +kernel

end FaultContainment.Upkeep
