/-
What a granted release leaves of the containments that stay.

A release is granted on the last verification of the containment it is taken from. That verification found the recorded paths
severed because their destination was contained, and returning the resource to service undoes just that. Nothing asks which
paths lead back into it, or which other containments list it without requiring it.

- `released_of_granted`: everything that a granted release changes.
- `degradedValid_iff`: when degraded operation leaves a containment out.
- `standing_released_iff`: which standing containments stand after a release.
- `keepsGuarantees_run_iff`: a release keeps the other guarantees exactly when it is severed, after every run.
- `reexposed`: a release granted into the reach of a resource that stays contained.
-/
import FaultContainment.Grants
import FaultContainment.Degraded
import FaultContainment.Radius.Spec

namespace FaultContainment.Releases

open FaultContainment.Lib FaultContainment.Ids FaultContainment.Enums FaultContainment.Records
open FaultContainment.DurableEvent FaultContainment.BlastRadius FaultContainment.Policy FaultContainment.Engine
open FaultContainment.Dispatching FaultContainment.Containments FaultContainment.Verdict FaultContainment.Grants
open FaultContainment.Degraded

/-! ## A granted release -/

/-- `R` is back in service and off the containment `d`, whose fault may have been cleared -/
structure Released (clk : Clock) (R : ResourceId) (r : ResourceRecord) (d : ContainmentRecord) (s s' : RuntimeSnapshot) :
    Prop where
  resources : ∃ generation, s'.topology.resources =
    s.topology.resources.insert R (returnToService (clk 1) generation r)
  dependencies : s'.topology.dependencies = s.topology.dependencies
  containments : s'.containments = s.containments.insert d.generation (takeOff (clk 2) R d)
  faults : ∀ id, s'.faults.find id = s.faults.find id ∨
    ∃ f, s.faults.find id = some f ∧ s'.faults.find id = some { f with state := .cleared, lastUpdatedMs := clk 3 }
  policy : s'.policy = s.policy
  policyGeneration : s'.policyGeneration = s.policyGeneration
  epoch : s'.epoch = s.epoch
  actions : s'.actions = s.actions

theorem stageFault_dependencies (id : FaultId) (f : Option FaultRecord) (i : Impl) :
    (stageFault id f i).1.state.topology.dependencies = i.state.topology.dependencies := by cases f <;> rfl

/-- a fault is cleared, or left as it is -/
theorem find_stageCleared (time : UInt64) (k id : FaultId) (i : Impl) :
    (stageFault k ((i.state.faults.find k).bind (clearFault time)) i).1.state.faults.find id = i.state.faults.find id ∨
      ∃ f, i.state.faults.find id = some f ∧
        (stageFault k ((i.state.faults.find k).bind (clearFault time)) i).1.state.faults.find id =
          some { f with state := .cleared, lastUpdatedMs := time } := by
  cases hf : i.state.faults.find k with
  | none => exact .inl rfl
  | some f =>
    rw [Option.bind_some, clearFault]
    split_ifs with hlegal
    · have hstored : (stageFault k (some { f with state := .cleared, lastUpdatedMs := time }) i).1.state.faults =
          i.state.faults.insert k { f with state := .cleared, lastUpdatedMs := time } := rfl
      rw [hstored, OrderedMap.find_insert]
      split_ifs with hk
      · exact .inr ⟨f, hk ▸ hf, rfl⟩
      · exact .inl rfl
    · exact .inl rfl

/-- taking a resource off a known containment stores that containment, and may clear its fault -/
theorem takeOffContainment_rest (clk : Clock) {g : ContainmentGeneration} {c : ContainmentRecord} (R : ResourceId)
    (i : Impl) (hc : i.state.containments.find g = some c) :
    (takeOffContainment clk g R i).1.state.topology.dependencies = i.state.topology.dependencies ∧
      ∀ id, (takeOffContainment clk g R i).1.state.faults.find id = i.state.faults.find id ∨
        ∃ f, i.state.faults.find id = some f ∧ (takeOffContainment clk g R i).1.state.faults.find id =
          some { f with state := .cleared, lastUpdatedMs := clk 3 } := by
  unfold takeOffContainment
  rw [hc]
  dsimp only
  split_ifs
  · exact ⟨stageFault_dependencies _ _ _, fun id => find_stageCleared (clk 3) c.fault id
      (i.withContainments (i.state.containments.insert g (takeOff (clk 2) R c)))⟩
  · exact ⟨rfl, fun id => .inl rfl⟩

theorem assessRelease_generation {s : RuntimeSnapshot} {request : ReleaseRequest} {r : ResourceRecord}
    {d : ContainmentRecord} (hr : s.topology.resources.find request.resource = some r)
    (hd : containmentFor s request = some d) : (assessRelease s request).containmentGeneration = d.generation := by
  unfold assessRelease
  rw [hr, hd]
  exact Quarantine.judgeCriteria_generation _ _

/-- **Everything that a granted release changes.** -/
theorem released_of_granted (clk : Clock) {request : ReleaseRequest} {i : Impl} {r : ResourceRecord}
    {d : ContainmentRecord} (hk : OrderedMap.Keyed ContainmentRecord.generation i.state.containments)
    (hr : i.state.topology.resources.find request.resource = some r) (hd : containmentFor i.state request = some d)
    (hg : (assessRelease i.state request).granted = true) :
    Released clk request.resource r d i.state (authorizeRelease clk request i).impl.state := by
  have hframe := frame_authorizeRelease clk request i
  have hfind := Quarantine.containmentFor_find hk hd
  have hrest := hframe.policy (by decide)
  have hwrites : (∃ generation, (authorizeRelease clk request i).impl.state.topology.resources =
        i.state.topology.resources.insert request.resource (returnToService (clk 1) generation r)) ∧
      (authorizeRelease clk request i).impl.state.topology.dependencies = i.state.topology.dependencies ∧
      (authorizeRelease clk request i).impl.state.containments =
        i.state.containments.insert d.generation (takeOff (clk 2) request.resource d) ∧
      ∀ id, (authorizeRelease clk request i).impl.state.faults.find id = i.state.faults.find id ∨
        ∃ f, i.state.faults.find id = some f ∧ (authorizeRelease clk request i).impl.state.faults.find id =
          some { f with state := .cleared, lastUpdatedMs := clk 3 } := by
    unfold authorizeRelease
    dsimp only
    rw [if_neg (by simp [hg]), hr]
    dsimp only [grantRelease, commit_containments, commit_topology]
    rw [assessRelease_generation hr hd]
    generalize hj : Impl.mk _ _ _ _ _ _ _ _ _ _ _ = j
    have hcj : j.state.containments.find d.generation = some d := by
      rw [← hj]
      exact hfind
    obtain ⟨hresources, hcontainments⟩ := Quarantine.takeOffContainment_state clk request.resource j hcj
    obtain ⟨hdependencies, hfaults⟩ := takeOffContainment_rest clk request.resource j hcj
    rw [hresources, hcontainments, hdependencies]
    have hfaultsJ : j.state.faults = i.state.faults := by rw [← hj]; rfl
    rw [hfaultsJ] at hfaults
    refine ⟨⟨nextGeneration i.state.releaseGeneration, ?_⟩, ?_, ?_, hfaults⟩
    · rw [← hj]; rfl
    · rw [← hj]; rfl
    · rw [← hj]; rfl
  exact ⟨hwrites.1, hwrites.2.1, hwrites.2.2.1, hwrites.2.2.2, hrest, hframe.policyGeneration (by decide),
    hframe.epoch (by decide), hframe.actions (by decide)⟩

/-! ## Degraded operation -/

/-- nothing speaks against the identity: no live containment claims it, and no record under it is contained or stale -/
structure Undisputed (s : RuntimeSnapshot) (x : ResourceId) : Prop where
  unclaimed : ¬ Claimed s x
  agreed : ∀ k r, s.topology.resources.find k = some r → r.id = x →
    resourceIsContained r = false ∧ r.freshness = .fresh

/-- what an assessment without a contract permits, and when its sets are disjoint -/
theorem assessed_none (s : RuntimeSnapshot) (nowMs : UInt64) :
    SortedSet (assessDegradedMode s none {} nowMs).permitted ∧
      (∀ x, x ∈ (assessDegradedMode s none {} nowMs).permitted ↔
        ∃ k r, s.topology.resources.find k = some r ∧ r.id = x ∧ usable r = true) ∧
      (degradedSetsAreDisjoint (assessDegradedMode s none {} nowMs) = true ↔
        ∀ k r, s.topology.resources.find k = some r → usable r = true → Undisputed s r.id) := by
  have h := filled s none {} nowMs
  generalize assessDegradedMode s none {} nowMs = a at h ⊢
  have hperm : ∀ x, x ∈ a.permitted ↔ ∃ k r, s.topology.resources.find k = some r ∧ r.id = x ∧ usable r = true := by
    intro x
    rw [h.permitted]
    simp only [OrderedMap.mem_vals]
    exact ⟨fun ⟨r, ⟨k, hk⟩, h⟩ => ⟨k, r, hk, h⟩, fun ⟨k, r, hk, h⟩ => ⟨r, ⟨k, hk⟩, h⟩⟩
  have hproh : ∀ x, x ∈ a.prohibited ↔ Claimed s x ∨
      ∃ r ∈ s.topology.resources.vals, r.id = x ∧ resourceIsContained r = true := by
    intro x
    rw [h.prohibited]
    simp
  refine ⟨h.sorted, hperm, ?_⟩
  rw [degradedSetsAreDisjoint_iff]
  constructor
  · intro hd k r hr hu
    obtain ⟨hp, hv⟩ := hd r.id ((hperm _).mpr ⟨k, r, hr, rfl, hu⟩)
    rw [hproh, not_or] at hp
    refine ⟨hp.1, fun k' r' hr' hid => ⟨?_, ?_⟩⟩
    · rw [← Bool.not_eq_true]
      exact fun hc => hp.2 ⟨r', (OrderedMap.mem_vals _ _).mpr ⟨k', hr'⟩, hid, hc⟩
    · by_contra hf
      exact hv ((h.revalidation _).mpr ⟨r', (OrderedMap.mem_vals _ _).mpr ⟨k', hr'⟩, hid, hf⟩)
  · intro hfree x hx
    obtain ⟨k, r, hr, rfl, hu⟩ := (hperm x).mp hx
    have hagreed := hfree k r hr hu
    rw [hproh, h.revalidation]
    constructor
    · rintro (hc | ⟨r', hr', hid, hc⟩)
      · exact hagreed.unclaimed hc
      · obtain ⟨k', hk'⟩ := (OrderedMap.mem_vals _ _).mp hr'
        simp [(hagreed.agreed k' r' hk' hid).1] at hc
    · rintro ⟨r', hr', hid, hf⟩
      obtain ⟨k', hk'⟩ := (OrderedMap.mem_vals _ _).mp hr'
      exact hf (hagreed.agreed k' r' hk' hid).2

/-- a released resource is off the mandatory set: what a live containment requires, it claims -/
theorem claimed_iff {s : RuntimeSnapshot} (h : Listed s) (x : ResourceId) : Claimed s x ↔
    ∃ g c, s.containments.find g = some c ∧ containmentIsLive c.status = true ∧ (x ∈ c.mandatory ∨ x ∈ c.precautionary) := by
  constructor
  · rintro ⟨c, hc, hlive, hx⟩
    obtain ⟨g, hg⟩ := (OrderedMap.mem_vals _ _).mp hc
    exact ⟨g, c, hg, hlive, hx.imp_left And.left⟩
  · rintro ⟨g, c, hg, hlive, hx⟩
    refine ⟨c, (OrderedMap.mem_vals _ _).mpr ⟨g, hg⟩, hlive, hx.imp_left fun hm => ⟨hm, ?_⟩⟩
    rw [← Bool.not_eq_true]
    exact fun hin => h.apart g c hg x hm (mem_of_idSetContains hin)

/-- **When degraded operation leaves a live containment out.** Everything usable is undisputed. -/
theorem degradedValid_iff {s : RuntimeSnapshot} (h : Listed s) {g : ContainmentGeneration} {c : ContainmentRecord}
    (hc : s.containments.find g = some c) (hlive : containmentIsLive c.status = true) (nowMs : UInt64) :
    (runChecks s c nowMs).degradedValid = true ↔
      ∀ k r, s.topology.resources.find k = some r → usable r = true → Undisputed s r.id := by
  obtain ⟨hsorted, hpermitted, hdisjoint⟩ := assessed_none s nowMs
  show (degradedSetsAreDisjoint (assessDegradedMode s none {} nowMs) &&
    c.mandatory.all fun k => !idSetContains (assessDegradedMode s none {} nowMs).permitted k) = true ↔ _
  rw [Bool.and_eq_true, hdisjoint, and_iff_left_iff_imp]
  intro hall
  rw [List.all_eq_true]
  intro k hk
  rw [Bool.not_eq_true', ← Bool.not_eq_true, idSetContains_iff hsorted, hpermitted]
  rintro ⟨k', r, hr, rfl, hu⟩
  exact (hall k' r hr hu).unclaimed ((claimed_iff h _).mpr ⟨g, c, hc, hlive, .inl hk⟩)

/-! ## The containments that stay -/

section Kept

variable (d : ContainmentRecord) (R : ResourceId)

/-- live, and still live once `R` is taken off `d` -/
def Remains (c : ContainmentRecord) : Prop :=
  containmentIsLive c.status = true ∧ (c.generation = d.generation → ∃ k ∈ c.mandatory, k ≠ R)

/-- the containment after the release -/
def kept (clk : Clock) (c : ContainmentRecord) : ContainmentRecord :=
  if c.generation = d.generation then takeOff (clk 2) R c else c

variable {d R} (clk : Clock) (c : ContainmentRecord)

theorem kept_fields : (kept d R clk c).fault = c.fault ∧ (kept d R clk c).propagation = c.propagation ∧
    (kept d R clk c).epoch = c.epoch ∧ (kept d R clk c).policyGeneration = c.policyGeneration ∧
    (kept d R clk c).actions = c.actions ∧ (kept d R clk c).committedAtMs = c.committedAtMs := by
  unfold kept
  split_ifs <;> exact ⟨rfl, rfl, rfl, rfl, rfl, rfl⟩

variable {c}

theorem mem_mandatory_kept (hs : SortedSet c.mandatory) (x : ResourceId) : x ∈ (kept d R clk c).mandatory ↔
    x ∈ c.mandatory ∧ (c.generation = d.generation → x ≠ R) := by
  unfold kept
  split_ifs with hd
  · rw [takeOff, mem_idSetErase hs]
    simp [hd]
  · simp [hd]

theorem mem_precautionary_kept (hs : SortedSet c.precautionary) (x : ResourceId) : x ∈ (kept d R clk c).precautionary ↔
    x ∈ c.precautionary ∧ (c.generation = d.generation → x ≠ R) := by
  unfold kept
  split_ifs with hd
  · rw [takeOff, mem_idSetErase hs]
    simp [hd]
  · simp [hd]

theorem live_kept_iff (hs : SortedSet c.mandatory) :
    containmentIsLive (kept d R clk c).status = true ↔ Remains d R c := by
  unfold kept Remains
  split_ifs with hd
  · have hleft : idSetErase c.mandatory R = [] ↔ ¬ ∃ k ∈ c.mandatory, k ≠ R := by
      simp only [List.eq_nil_iff_forall_not_mem, mem_idSetErase hs, not_exists]
    rw [takeOff]
    dsimp only
    by_cases hnil : idSetErase c.mandatory R = []
    · rw [if_pos hnil]
      simp only [containmentIsLive, Bool.false_eq_true, false_iff, not_and]
      exact fun _ h => hleft.mp hnil (h hd)
    · rw [if_neg hnil]
      rw [hleft, not_not] at hnil
      exact ⟨fun h => ⟨h, fun _ => hnil⟩, fun h => h.1⟩
  · exact ⟨fun h => ⟨h, fun he => absurd he hd⟩, fun h => h.1⟩

end Kept

/-- the containments are listed, and their precautionary sets are sorted too -/
structure Arranged (s : RuntimeSnapshot) : Prop where
  listed : Listed s
  precautionary : ∀ g c, s.containments.find g = some c → SortedSet c.precautionary

/-- **Step.** Every operation keeps the containments arranged. -/
theorem arranged_after (c : Call) {i : Impl} (h : Arranged i.state) : Arranged (c.after i).state := by
  refine ⟨listed_after c h.listed, ?_⟩
  cases writes c i with
  | none hc => exact hc ▸ h.precautionary
  | verify g record _ hfind _ hc => exact each_insert hc (h.precautionary g record hfind) h.precautionary
  | release g record request _ _ _ hfind hc =>
    exact each_insert hc (sorted_idSetErase (h.precautionary g record hfind) request.resource) h.precautionary
  | commit id expected fault radius _ _ hradius hc =>
    exact each_emplace hc (precautionary_sorted (admitRadius_ok hradius)) h.precautionary

theorem arranged_construct (clk : Clock) (config : Config) : Arranged (construct clk config).state := by
  refine ⟨listed_construct clk config, fun g c hc => ?_⟩
  have hnone : (construct clk config).state.containments.find g = none := OrderedMap.find_empty g
  exact absurd (hnone.symm.trans hc) (by simp)

section After

variable {clk : Clock} {R : ResourceId} {r : ResourceRecord} {d : ContainmentRecord} {s s' : RuntimeSnapshot}

theorem find_kept (h : Released clk R r d s s') (hl : Listed s) (hd : s.containments.find d.generation = some d)
    (g : ContainmentGeneration) : s'.containments.find g = (s.containments.find g).map (kept d R clk) := by
  rw [h.containments, OrderedMap.find_insert]
  split_ifs with hg
  · rw [← hg, hd, Option.map_some, kept, if_pos rfl]
  · cases hc : s.containments.find g with
    | none => rfl
    | some c => rw [Option.map_some, kept, if_neg fun he => hg (he.symm.trans (hl.keyed g c hc))]

theorem kindOf_kept (h : Released clk R r d s s') (c : ContainmentRecord) : kindOf s' (kept d R clk c) = kindOf s c := by
  rw [kindOf, kindOf, (kept_fields clk c).1]
  rcases h.faults c.fault with hsame | ⟨f, hf, hcleared⟩
  · rw [hsame]
  · rw [hf, hcleared]

/-- the record of the released resource, and the others -/
theorem find_released (h : Released clk R r d s s') : ∃ r', s'.topology.resources.find R = some r' ∧ r'.id = r.id ∧
    resourceIsContained r' = false ∧ r'.freshness = r.freshness ∧ isOperable r'.state = true ∧
    ∀ k, k ≠ R → s'.topology.resources.find k = s.topology.resources.find k := by
  obtain ⟨generation, hresources⟩ := h.resources
  refine ⟨returnToService (clk 1) generation r, ?_, rfl, rfl, rfl, rfl, fun k hk => ?_⟩
  · rw [hresources, OrderedMap.find_insert_self]
  · rw [hresources, OrderedMap.find_insert_ne _ _ (Ne.symm hk)]

/-- a containment that stays lists the identity, or another record under it is contained or stale -/
def Disputed (s : RuntimeSnapshot) (d : ContainmentRecord) (R x : ResourceId) : Prop :=
  (∃ c ∈ s.containments.vals, Remains d R c ∧ (x ∈ c.mandatory ∨ x ∈ c.precautionary) ∧
    (c.generation = d.generation → x ≠ R)) ∨
  ∃ e ∈ s.topology.resources.toList, e.1 ≠ R ∧ e.2.id = x ∧ (resourceIsContained e.2 = true ∨ e.2.freshness ≠ .fresh)

/-- what is claimed after a release -/
theorem claimed_kept_iff (h : Released clk R r d s s') (ha : Arranged s) (hl' : Listed s')
    (hd : s.containments.find d.generation = some d) (x : ResourceId) : Claimed s' x ↔
      ∃ c ∈ s.containments.vals, Remains d R c ∧ (x ∈ c.mandatory ∨ x ∈ c.precautionary) ∧
        (c.generation = d.generation → x ≠ R) := by
  rw [claimed_iff hl']
  have hlisted : ∀ g c, s.containments.find g = some c → (x ∈ (kept d R clk c).mandatory ∨
      x ∈ (kept d R clk c).precautionary ↔
        (x ∈ c.mandatory ∨ x ∈ c.precautionary) ∧ (c.generation = d.generation → x ≠ R)) := by
    intro g c hc
    rw [mem_mandatory_kept clk (ha.listed.sorted g c hc), mem_precautionary_kept clk (ha.precautionary g c hc), or_and_right]
  constructor
  · rintro ⟨g, c', hg, hlive, hx⟩
    rw [find_kept h ha.listed hd, Option.map_eq_some_iff] at hg
    obtain ⟨c, hc, rfl⟩ := hg
    exact ⟨c, (OrderedMap.mem_vals _ _).mpr ⟨g, hc⟩, (live_kept_iff clk (ha.listed.sorted g c hc)).mp hlive,
      (hlisted g c hc).mp hx⟩
  · rintro ⟨c, hmem, hremains, hx⟩
    obtain ⟨g, hc⟩ := (OrderedMap.mem_vals _ _).mp hmem
    exact ⟨g, kept d R clk c, by rw [find_kept h ha.listed hd, hc]; rfl,
      (live_kept_iff clk (ha.listed.sorted g c hc)).mpr hremains, (hlisted g c hc).mpr hx⟩

/-- The one thing a release may put into dispute is what it releases. -/
theorem undisputed_released_iff (h : Released clk R r d s s') (ha : Arranged s) (hl' : Listed s')
    (hd : s.containments.find d.generation = some d) (hfresh : r.freshness = .fresh)
    (hbefore : ∀ k r, s.topology.resources.find k = some r → usable r = true → Undisputed s r.id) :
    (∀ k r, s'.topology.resources.find k = some r → usable r = true → Undisputed s' r.id) ↔ ¬ Disputed s d R r.id := by
  obtain ⟨r', hr', hid, hcontained, hfresh', hoperable, hother⟩ := find_released h
  have hclaimed := claimed_kept_iff h ha hl' hd
  have hsplit : ∀ x, (∀ k r, s'.topology.resources.find k = some r → r.id = x →
      resourceIsContained r = false ∧ r.freshness = .fresh) ↔
      ∀ k r, k ≠ R → s.topology.resources.find k = some r → r.id = x →
        resourceIsContained r = false ∧ r.freshness = .fresh := by
    intro x
    constructor
    · intro hall k b hk hb
      exact hall k b (by rw [hother k hk, hb])
    · intro hall k b hb
      by_cases hk : k = R
      · subst hk
        obtain rfl := Option.some.inj (hr'.symm.trans hb)
        exact fun _ => ⟨hcontained, hfresh'.trans hfresh⟩
      · exact hall k b hk (by rw [← hother k hk, hb])
  constructor
  · intro hall hdisputed
    have hfree := hall R r' hr' (by simp [usable, hfresh', hfresh, hcontained, hoperable])
    rw [hid] at hfree
    rcases hdisputed with hc | ⟨⟨k, b⟩, hmem, hk, hb, hbad⟩
    · exact hfree.unclaimed ((hclaimed _).mpr hc)
    · obtain ⟨hgood, hgood'⟩ := (hsplit _).mp hfree.agreed k b hk ((OrderedMap.mem_toList _ _ _).mp hmem) hb
      exact hbad.elim (by simp [hgood]) fun hf => hf hgood'
  · intro hn k b hb hu
    by_cases hk : k = R
    · subst hk
      obtain rfl := Option.some.inj (hr'.symm.trans hb)
      rw [hid]
      refine ⟨fun hc => hn (.inl ((hclaimed _).mp hc)), (hsplit _).mpr fun k' b' hk' hb' hid' => ?_⟩
      by_contra hbad
      refine hn (.inr ⟨⟨k', b'⟩, (OrderedMap.mem_toList _ _ _).mpr hb', hk', hid', ?_⟩)
      by_contra hgood
      rw [not_or, Bool.not_eq_true, not_not] at hgood
      exact hbad hgood
    · have hfree := hbefore k b (by rw [← hother k hk, hb]) hu
      refine ⟨fun hc => hfree.unclaimed ?_, (hsplit _).mpr fun k' b' _ => hfree.agreed k' b'⟩
      obtain ⟨c, hmem, hremains, hx, -⟩ := (hclaimed _).mp hc
      obtain ⟨g, hg⟩ := (OrderedMap.mem_vals _ _).mp hmem
      exact (claimed_iff ha.listed _).mpr ⟨g, c, hg, hremains.1, hx⟩

/-- a recorded path into `R` that only its containment blocked: the hop is open, and its edge is stored, fresh and carries
propagation -/
def Reopens (s : RuntimeSnapshot) (R : ResourceId) (c : ContainmentRecord) : Prop :=
  ∃ hop ∈ c.propagation, hop.target = R ∧ ¬ (hop.outcome = .propagationImpossible ∨ hop.outcome = .propagationBlocked) ∧
    ((s.topology.dependencies.edges.find hop.dependency).any fun e =>
      e.freshness = .fresh && rulePropagatesOver (s.policy.ruleFor (kindOf s c)) e.kind) = true

/-- after a release the open paths are those that were, and the reopened ones -/
theorem severed_kept_iff (h : Released clk R r d s s') {c : ContainmentRecord}
    (hbefore : c.propagation.any (hopContinues s (kindOf s c)) = false) :
    (kept d R clk c).propagation.any (hopContinues s' (kindOf s' (kept d R clk c))) = false ↔ ¬ Reopens s R c := by
  obtain ⟨r', hr', -, hcontained, -, -, hother⟩ := find_released h
  rw [(kept_fields clk c).2.1, kindOf_kept h]
  rw [List.any_eq_false] at hbefore ⊢
  have hhop : ∀ hop : PropagationHop, hop.target = R → (hopContinues s' (kindOf s c) hop = true ↔
      ¬ (hop.outcome = .propagationImpossible ∨ hop.outcome = .propagationBlocked) ∧
        ((s.topology.dependencies.edges.find hop.dependency).any fun e =>
          e.freshness = .fresh && rulePropagatesOver (s.policy.ruleFor (kindOf s c)) e.kind) = true) := by
    intro hop ht
    unfold hopContinues
    split_ifs with hclosed
    · simp [hclosed]
    · rw [ht, hr', h.dependencies, h.policy]
      dsimp only
      rw [if_neg (by simp [hcontained]), and_iff_right hclosed]
  constructor
  · rintro hall ⟨hop, hmem, ht, hopen⟩
    exact hall hop hmem ((hhop hop ht).mpr hopen)
  · intro hn hop hmem hcontinues
    by_cases ht : hop.target = R
    · exact hn ⟨hop, hmem, ht, (hhop hop ht).mp hcontinues⟩
    · refine hbefore hop hmem ?_
      unfold hopContinues at hcontinues ⊢
      rwa [hother _ ht, h.dependencies, h.policy] at hcontinues

/-- a cleared fault is not current: a release creates no secondary failure -/
theorem secondaryFailure_kept (h : Released clk R r d s s') {c : ContainmentRecord} (hs : SortedSet c.mandatory)
    (hbefore : secondaryFailure s c = false) : secondaryFailure s' (kept d R clk c) = false := by
  obtain ⟨hfault, -, -, -, -, htime⟩ := kept_fields (d := d) (R := R) clk c
  rw [secondaryFailure, List.any_eq_false] at hbefore ⊢
  rintro ⟨id, f'⟩ hmem hsecond
  rw [hfault, htime] at hsecond
  simp only [Bool.and_eq_true, decide_eq_true_eq] at hsecond
  obtain ⟨⟨⟨hne, hcurrent⟩, hsubject⟩, hlater⟩ := hsecond
  rcases h.faults id with hsame | ⟨f, -, hcleared⟩
  · have hf := (OrderedMap.mem_toList _ _ _).mp hmem
    rw [hsame] at hf
    have hin := ((mem_mandatory_kept clk hs _).mp (mem_of_idSetContains hsubject)).1
    refine hbefore ⟨id, f'⟩ ((OrderedMap.mem_toList _ _ _).mpr hf) ?_
    simp [hne, hcurrent, (idSetContains_iff hs _).mpr hin, hlater]
  · obtain rfl := Option.some.inj (((OrderedMap.mem_toList _ _ _).mp hmem).symm.trans hcleared)
    simp [isFaultCurrent] at hcurrent

/-- **Which standing containments stand after a release.** -/
theorem standing_released_iff (h : Released clk R r d s s') (ha : Arranged s) (hl' : Listed s')
    (hd : s.containments.find d.generation = some d) (hfresh : r.freshness = .fresh)
    (helsewhere : heldElsewhere s d.generation R = false) {g : ContainmentGeneration} {c : ContainmentRecord}
    (hc : s.containments.find g = some c) (hremains : Remains d R c) {nowMs : UInt64} (hstanding : Standing s c nowMs)
    (nowMs' : UInt64) :
    Standing s' (kept d R clk c) nowMs' ↔ ¬ Reopens s R c ∧ ¬ Disputed s d R r.id := by
  have hs := ha.listed.sorted g c hc
  have hc' : s'.containments.find g = some (kept d R clk c) := by rw [find_kept h ha.listed hd, hc, Option.map_some]
  obtain ⟨hfault, hpropagation, hepoch, hpolicy, hactions, -⟩ := kept_fields (d := d) (R := R) clk c
  have hsevered := severed_kept_iff h hstanding.severed
  have hvalid := (degradedValid_iff hl' hc' ((live_kept_iff clk hs).mpr hremains) nowMs').trans
    (undisputed_released_iff h ha hl' hd hfresh ((degradedValid_iff ha.listed hc hremains.1 nowMs).mp hstanding.degraded))
  refine ⟨fun hstands => ⟨hsevered.mp hstands.severed, hvalid.mp hstands.degraded⟩, fun ⟨hclosed, hundisputed⟩ =>
    ⟨?_, secondaryFailure_kept h hs hstanding.secondary, hvalid.mpr hundisputed, hsevered.mpr hclosed, ?_, fun k hk => ?_⟩⟩
  · have henvelope : (decide (c.epoch = s.epoch) && decide (c.policyGeneration = s.policyGeneration)) = true :=
      hstanding.envelope
    show (decide ((kept d R clk c).epoch = s'.epoch) &&
      decide ((kept d R clk c).policyGeneration = s'.policyGeneration)) = true
    rwa [hepoch, hpolicy, h.epoch, h.policyGeneration]
  · have hevidenced : (decide (c.actions = []) || decide (evidencedActions s c = c.actions.length)) = true :=
      hstanding.evidenced
    show (decide ((kept d R clk c).actions = []) ||
      decide (evidencedActions s' (kept d R clk c) = (kept d R clk c).actions.length)) = true
    rw [evidencedActions, hactions, h.actions]
    exact hevidenced
  · obtain ⟨hm, hoff⟩ := (mem_mandatory_kept clk hs k).mp hk
    -- no containment that stays requires the released resource
    have hne : k ≠ R := by
      by_cases hg : c.generation = d.generation
      · exact hoff hg
      · rintro rfl
        exact (heldElsewhere_iff ha.listed _ _).mp helsewhere g c hc (ha.listed.keyed g c hc ▸ hg) hremains.1 hm
    obtain ⟨-, -, -, -, -, -, hother⟩ := find_released h
    rw [provenContained, hother k hne]
    exact hstanding.proven k hm

end After

/-! ## What a release keeps -/

/-- no hard edge leads to the resource from what a live containment still requires -/
def Unexposed (s : RuntimeSnapshot) (R : ResourceId) : Prop :=
  ∀ g c, s.containments.find g = some c → containmentIsLive c.status = true → ∀ id, ∀ k ∈ c.mandatory,
    ¬ Radius.Hard s.topology (ruleOf s c) id k R

/-- a hard edge from what the containment goes on requiring into `R` -/
def Feeds (s : RuntimeSnapshot) (R : ResourceId) (c : ContainmentRecord) : Prop :=
  ∃ e ∈ s.topology.dependencies.edges.vals, e.destination = R ∧ e.source ∈ c.mandatory ∧ e.source ≠ R ∧
    rulePropagatesOver (ruleOf s c) e.kind = true ∧ Radius.Proven e ∧ ¬ Radius.Conditional (ruleOf s c) e

/-- the release leaves the containment `g` its closed paths and undisputed, and is out of reach of what stays contained -/
def Severed (s : RuntimeSnapshot) (request : ReleaseRequest) (g : ContainmentGeneration) : Prop :=
  ∀ d ∈ containmentFor s request, ∀ r ∈ s.topology.resources.find request.resource,
    (∀ c ∈ s.containments.find g, Remains d request.resource c →
      ¬ Reopens s request.resource c ∧ ¬ Disputed s d request.resource r.id) ∧
    ∀ c ∈ s.containments.vals, Remains d request.resource c → ¬ Feeds s request.resource c

/-- after the release the containment `g`, if it is live, is still verified as CONTAINED with propagation blocked, and the
released resource is not exposed -/
def KeepsGuarantees (clk clk' : Clock) (request : ReleaseRequest) (g : ContainmentGeneration) (i : Impl) : Prop :=
  ((∃ c, (authorizeRelease clk request i).impl.state.containments.find g = some c ∧
      containmentIsLive c.status = true) →
    ∃ v, (verifyContainment clk' g (authorizeRelease clk request i).impl).result = .ok v ∧ v.outcome = .contained ∧
      v.propagationBlocked = true) ∧
  Unexposed (authorizeRelease clk request i).impl.state request.resource

theorem unexposed_released_iff {clk : Clock} {R : ResourceId} {r : ResourceRecord} {d : ContainmentRecord}
    {s s' : RuntimeSnapshot} (h : Released clk R r d s s') (ha : Arranged s)
    (hd : s.containments.find d.generation = some d) (helsewhere : heldElsewhere s d.generation R = false) :
    Unexposed s' R ↔ ∀ c ∈ s.containments.vals, Remains d R c → ¬ Feeds s R c := by
  obtain ⟨r', hr', -, hcontained, -, -, -⟩ := find_released h
  have hrule : ∀ c, ruleOf s' (kept d R clk c) = ruleOf s c := fun c => by rw [ruleOf, ruleOf, kindOf_kept h, h.policy]
  constructor
  · rintro hall c hmem hremains ⟨e, he, hdestination, hsource, hne, hkind, hproven, hcond⟩
    obtain ⟨g, hc⟩ := (OrderedMap.mem_vals _ _).mp hmem
    obtain ⟨id, hid⟩ := (OrderedMap.mem_vals _ _).mp he
    have hs := ha.listed.sorted g c hc
    refine hall g _ (by rw [find_kept h ha.listed hd, hc, Option.map_some]) ((live_kept_iff clk hs).mpr hremains) id e.source
      ((mem_mandatory_kept clk hs _).mpr ⟨hsource, fun _ => hne⟩) ?_
    rw [hrule]
    exact ⟨e, ⟨by rw [h.dependencies, hid], rfl, hdestination, hkind, r', hr', hcontained⟩, hproven, hcond⟩
  · rintro hall g c' hc' hlive id k hk ⟨e, he, hproven, hcond⟩
    rw [find_kept h ha.listed hd, Option.map_eq_some_iff] at hc'
    obtain ⟨c, hc, rfl⟩ := hc'
    have hs := ha.listed.sorted g c hc
    obtain ⟨hm, hoff⟩ := (mem_mandatory_kept clk hs k).mp hk
    have hremains := (live_kept_iff clk hs).mp hlive
    have hne : k ≠ R := by
      by_cases hg : c.generation = d.generation
      · exact hoff hg
      · rintro rfl
        exact (heldElsewhere_iff ha.listed _ _).mp helsewhere g c hc (ha.listed.keyed g c hc ▸ hg) hremains.1 hm
    rw [hrule] at he hcond
    have hstored := he.stored
    rw [h.dependencies] at hstored
    exact hall c ((OrderedMap.mem_vals _ _).mpr ⟨g, hc⟩) hremains ⟨e, (OrderedMap.mem_vals _ _).mpr ⟨id, hstored⟩,
      he.destination, he.source ▸ hm, he.source ▸ hne, he.kind, hproven, hcond⟩

/-- **Exactly when a release keeps the other guarantees.** -/
theorem keepsGuarantees_iff {i : Impl} (ha : Arranged i.state) (clk clk' clk'' : Clock) {request : ReleaseRequest}
    {g : ContainmentGeneration} (hcontained : ∃ v, (verifyContainment clk'' g i).result = .ok v ∧ v.outcome = .contained)
    (hg : (assessRelease i.state request).granted = true) :
    KeepsGuarantees clk clk' request g i ↔ Severed i.state request g := by
  obtain ⟨r, d, hr, hdfor, hq⟩ := (granted_iff _ _).mp hg
  have hd := Quarantine.containmentFor_find ha.listed.keyed hdfor
  have h := released_of_granted clk ha.listed.keyed hr hdfor hg
  have hl' : Listed (authorizeRelease clk request i).impl.state := listed_after ⟨clk, .authorizeRelease request⟩ ha.listed
  obtain ⟨v, hv, houtcome⟩ := hcontained
  obtain ⟨c, hc, -, rfl⟩ := verifyContainment_result.mp hv
  have hstanding := (contained_iff _ _ _ _).mp houtcome
  have hsevered : Severed i.state request g ↔
      (Remains d request.resource c → ¬ Reopens i.state request.resource c ∧
        ¬ Disputed i.state d request.resource r.id) ∧
      ∀ c ∈ i.state.containments.vals, Remains d request.resource c → ¬ Feeds i.state request.resource c := by
    simp only [Severed, hdfor, hr, hc, Option.mem_def, Option.some.injEq, forall_eq']
  rw [KeepsGuarantees, hsevered, ← unexposed_released_iff h ha hd hq.elsewhere]
  refine and_congr_left fun _ => ?_
  have hc' := find_kept h ha.listed hd g
  rw [hc, Option.map_some] at hc'
  have hlive := live_kept_iff (d := d) (R := request.resource) clk (ha.listed.sorted g c hc)
  constructor
  · intro hkeeps hremains
    obtain ⟨v, hv, houtcome, -⟩ := hkeeps ⟨_, hc', hlive.mpr hremains⟩
    obtain ⟨c', hfind, -, rfl⟩ := verifyContainment_result.mp hv
    obtain rfl := Option.some.inj (hc'.symm.trans hfind)
    exact (standing_released_iff h ha hl' hd hq.fresh hq.elsewhere hc hremains hstanding _).mp
      ((contained_iff _ _ _ _).mp houtcome)
  · rintro hclosed ⟨c', hfind, hlive'⟩
    obtain rfl := Option.some.inj (hc'.symm.trans hfind)
    have hstands := (standing_released_iff h ha hl' hd hq.fresh hq.elsewhere hc (hlive.mp hlive') hstanding (clk' 0)).mpr
      (hclosed (hlive.mp hlive'))
    refine ⟨_, verifyContainment_result.mpr ⟨_, hc', hlive', rfl⟩, (contained_iff _ _ _ _).mpr hstands, ?_⟩
    show (!(runChecks _ (kept d request.resource clk c) (clk' 0)).propagationContinued) = true
    rw [hstands.severed]
    rfl

/-- the same after every run of the engine -/
theorem keepsGuarantees_run_iff (calls : List Call) {i : Impl} (ha : Arranged i.state) (clk clk' clk'' : Clock)
    {request : ReleaseRequest} {g : ContainmentGeneration}
    (hcontained : ∃ v, (verifyContainment clk'' g (Runs.run Call.after calls i)).result = .ok v ∧ v.outcome = .contained)
    (hg : (assessRelease (Runs.run Call.after calls i).state request).granted = true) :
    KeepsGuarantees clk clk' request g (Runs.run Call.after calls i) ↔
      Severed (Runs.run Call.after calls i).state request g := by
  have hrun := @Runs.run_keeps _ _ _ (fun i => Arranged i.state) (fun c _ h => arranged_after c h) calls i ha
  exact keepsGuarantees_iff hrun clk clk' clk'' hcontained hg

section Decidable

instance (d : ContainmentRecord) (R : ResourceId) (c : ContainmentRecord) : Decidable (Remains d R c) :=
  inferInstanceAs (Decidable (_ ∧ _))

instance (s : RuntimeSnapshot) (d : ContainmentRecord) (R x : ResourceId) : Decidable (Disputed s d R x) :=
  inferInstanceAs (Decidable (_ ∨ _))

instance (s : RuntimeSnapshot) (R : ResourceId) (c : ContainmentRecord) : Decidable (Reopens s R c) :=
  inferInstanceAs (Decidable (∃ hop ∈ c.propagation, _))

instance (e : DependencyEdge) : Decidable (Radius.Proven e) := inferInstanceAs (Decidable (_ ∧ _))

instance (rule : FaultRule) (e : DependencyEdge) : Decidable (Radius.Conditional rule e) :=
  inferInstanceAs (Decidable (_ ∨ _))

instance (s : RuntimeSnapshot) (R : ResourceId) (c : ContainmentRecord) : Decidable (Feeds s R c) :=
  inferInstanceAs (Decidable (∃ e ∈ s.topology.dependencies.edges.vals, _))

instance (s : RuntimeSnapshot) (request : ReleaseRequest) (g : ContainmentGeneration) : Decidable (Severed s request g) :=
  inferInstanceAs (Decidable (∀ d ∈ containmentFor s request, _))

end Decidable

/-- a resource fails, is contained together with the one that depends on it, and the containment is verified -/
def fencedPair : List Call := [
  ⟨ticks, .registerResource { id := ⟨5⟩, state := .active, freshness := .fresh }⟩,
  ⟨ticks, .registerResource { id := ⟨6⟩, state := .active, freshness := .fresh }⟩,
  ⟨ticks, .registerDependency
    { id := ⟨1⟩, source := ⟨5⟩, destination := ⟨6⟩, freshness := .fresh, integrity := .verified }⟩,
  ⟨ticks, .publishFault { subject := ⟨5⟩, kind := .processDeath }⟩,
  ⟨ticks, .authorizeContainment ⟨1⟩ {}⟩,
  ⟨ticks, .dispatchBegin ⟨1⟩ true⟩,
  ⟨ticks, .dispatchEnd [({ id := ⟨1⟩ }, .ok []), ({ id := ⟨2⟩ }, .ok [])] {}⟩,
  ⟨ticks, .recordActionResult { action := ⟨1⟩, actionGeneration := ⟨1⟩, epoch := ⟨1⟩, success := true }⟩,
  ⟨ticks, .recordActionResult { action := ⟨2⟩, actionGeneration := ⟨1⟩, epoch := ⟨1⟩, success := true }⟩,
  ⟨ticks, .verifyContainment ⟨1⟩⟩]

theorem contained_fencedPair :
    ∃ v, (verifyContainment ticks ⟨1⟩ (Runs.run Call.after fencedPair (construct ticks {}))).result = .ok v ∧
      v.outcome = .contained := by
  obtain ⟨v, hv, houtcome⟩ := @ok_of_toOption_any _ _
    (verifyContainment ticks ⟨1⟩ (Runs.run Call.after fencedPair (construct ticks {}))).result
    (fun v => decide (v.outcome = .contained)) (by decide +kernel)
  exact ⟨v, hv, of_decide_eq_true houtcome⟩

/-- The failed resource may be released first: nothing leads back into it. -/
theorem keepsGuarantees_run_iff_fencedPair :
    KeepsGuarantees ticks ticks askRelease ⟨1⟩ (Runs.run Call.after fencedPair (construct ticks {})) :=
  (keepsGuarantees_run_iff fencedPair (arranged_construct ticks {}) ticks ticks ticks contained_fencedPair
    (by decide +kernel)).mpr (by decide +kernel)

/-- The dependent resource is released while the failed one is still contained. The release is granted, and the containment
is breached. -/
theorem reexposed :
    ¬ ∀ (clk clk' clk'' : Clock) (config : Config) (calls : List Call) (request : ReleaseRequest)
      (g : ContainmentGeneration),
      (∃ v, (verifyContainment clk'' g (Runs.run Call.after calls (construct clk config))).result = .ok v ∧
        v.outcome = .contained) →
      (assessRelease (Runs.run Call.after calls (construct clk config)).state request).granted = true →
      KeepsGuarantees clk clk' request g (Runs.run Call.after calls (construct clk config)) := by
  intro h
  have hkeeps := h ticks ticks ticks {} fencedPair { askRelease with resource := ⟨6⟩ } ⟨1⟩ contained_fencedPair
    (by decide +kernel)
  generalize hi : Runs.run Call.after fencedPair (construct ticks {}) = i at hkeeps
  have hbreached : (verifyContainment ticks ⟨1⟩
      (authorizeRelease ticks { askRelease with resource := ⟨6⟩ } i).impl).result.toOption.any
        (fun v => v.outcome = .containmentBreached) = true := by
    rw [← hi]
    decide +kernel
  obtain ⟨v, hv, houtcome⟩ := ok_of_toOption_any hbreached
  obtain ⟨c, hc, hlive, -⟩ := verifyContainment_result.mp hv
  obtain ⟨v', hv', hcontained, -⟩ := hkeeps.1 ⟨c, hc, hlive⟩
  obtain rfl := Except.ok.inj (hv.symm.trans hv')
  rw [hcontained] at houtcome
  simp at houtcome

end FaultContainment.Releases
