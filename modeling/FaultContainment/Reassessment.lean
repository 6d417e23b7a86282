/-
Re-assessing a degraded mode: `authorize_degraded_mode` followed at once by `revalidate_degraded_mode`.

Both apply the contract's lists in loops of their own. The loop of the authorization also takes a prohibited resource off the
ones that wait for revalidation; the loop of the revalidation does not. Everything else agrees, so the two assessments are the
same exactly when no prohibited resource waits for revalidation.

- `listed_eq`: the two loops differ in the resources to revalidate only.
- `reassesses_iff`: the exact condition for an assessment to survive its revalidation.
-/
import FaultContainment.Degraded

namespace FaultContainment.Reassessment

open FaultContainment.Lib FaultContainment.Ids FaultContainment.Enums FaultContainment.Records
open FaultContainment.BlastRadius FaultContainment.Engine FaultContainment.Degraded

/-! ## The two loops -/

/-- one step of the loop over the prohibited list of a revalidated contract -/
def forbid (a : DegradedModeAssessment) (r : ResourceId) : DegradedModeAssessment :=
  { a with permitted := idSetErase a.permitted r, prohibited := idSetInsert a.prohibited r }

/-- the loop of a revalidation neither reads nor changes the resources to revalidate -/
theorem foldl_forbid (ids : List ResourceId) (a : DegradedModeAssessment) (s : IdSet .resourceId) :
    ids.foldl forbid { a with revalidationRequired := s } = { ids.foldl forbid a with revalidationRequired := s } := by
  induction ids generalizing a with
  | nil => rfl
  | cons i ids ih => exact ih (forbid a i)

/-- **The two loops over the prohibited list** differ in the resources to revalidate only. -/
theorem listed_eq (contract : DegradedModeContract) (a : DegradedModeAssessment) :
    prohibitListed contract a = { prohibitAgain contract a with
      revalidationRequired := contract.prohibitedResources.foldl idSetErase a.revalidationRequired } := by
  show _ = ({ contract.prohibitedResources.foldl forbid a with revalidationRequired := _ } : DegradedModeAssessment)
  unfold prohibitListed
  generalize contract.prohibitedResources = ids
  induction ids generalizing a with
  | nil => rfl
  | cons i ids ih =>
    rw [List.foldl_cons, ih]
    exact congrArg (fun b : DegradedModeAssessment => { b with
      revalidationRequired := ids.foldl idSetErase (idSetErase a.revalidationRequired i) })
      (foldl_forbid ids (forbid a i) (idSetErase a.revalidationRequired i))

theorem prohibitAgain_revalidation (contract : DegradedModeContract) (a : DegradedModeAssessment) :
    (prohibitAgain contract a).revalidationRequired = a.revalidationRequired := by
  have h := congrArg DegradedModeAssessment.revalidationRequired
    (foldl_forbid contract.prohibitedResources a a.revalidationRequired)
  exact h

/-! ## The two assessments -/

/-- the assessment cut down to the allow-list and the workload classes -/
def allowed (s : RuntimeSnapshot) (contract : DegradedModeContract) (id : DegradedModeId) (now : UInt64) :
    DegradedModeAssessment :=
  restrict contract s.topology (assessDegradedMode s (some contract) id now)

/-- what `authorize_degraded_mode` stores and returns -/
def granted (s : RuntimeSnapshot) (contract : DegradedModeContract) (now : UInt64) : DegradedModeAssessment :=
  judgeContract contract
    (capAt contract s.topology.resources.size (prohibitListed contract (allowed s contract contract.id now)))

/-- what `revalidate_degraded_mode` cuts the assessment down to, before the last word -/
def cut (s : RuntimeSnapshot) (contract : DegradedModeContract) (id : DegradedModeId) (now : UInt64) :
    DegradedModeAssessment :=
  capAt contract s.topology.resources.size (prohibitAgain contract (allowed s contract id now))

/-- what `revalidate_degraded_mode` stores and returns -/
def revalidated (s : RuntimeSnapshot) (contract : DegradedModeContract) (id : DegradedModeId) (now : UInt64) :
    DegradedModeAssessment :=
  { (if degradedSetsAreDisjoint (cut s contract id now) then cut s contract id now
    else { cut s contract id now with status := .degradedUnsafe, authorized := false }) with
    topologyGeneration := s.topologyGeneration, epoch := s.epoch }

/-- the assessments agree on everything the caller acts on -/
structure Same (a b : DegradedModeAssessment) : Prop where
  permitted : b.permitted = a.permitted
  prohibited : b.prohibited = a.prohibited
  revalidation : b.revalidationRequired = a.revalidationRequired
  capacity : b.availableCapacityPercent = a.availableCapacityPercent
  required : b.requiredRedundancy = a.requiredRedundancy
  available : b.availableRedundancy = a.availableRedundancy
  status : b.status = a.status
  authorized : b.authorized = a.authorized

section Same

variable (s : RuntimeSnapshot) (contract : DegradedModeContract) (id : DegradedModeId) (now : UInt64)

/-- the sets a new contract is judged by -/
theorem cut_listed : capAt contract s.topology.resources.size (prohibitListed contract (allowed s contract id now)) =
    { cut s contract id now with
      revalidationRequired :=
        contract.prohibitedResources.foldl idSetErase (allowed s contract id now).revalidationRequired } := by
  rw [listed_eq]
  rfl

theorem cut_revalidation :
    (cut s contract id now).revalidationRequired = (allowed s contract id now).revalidationRequired :=
  prohibitAgain_revalidation contract _

/-- a permitted resource is not on the prohibited list, so taking that list off the others keeps the sets disjoint or not -/
theorem disjoint_listed :
    degradedSetsAreDisjoint { cut s contract id now with
      revalidationRequired :=
        contract.prohibitedResources.foldl idSetErase (allowed s contract id now).revalidationRequired } =
      degradedSetsAreDisjoint (cut s contract id now) := by
  have hfilled := filled s (some contract) id now
  have hnarrowed := (forbids_prohibitAgain.narrowed contract s.topology hfilled.sorted).capped s.topology.resources.size
  rw [Bool.eq_iff_iff, degradedSetsAreDisjoint_iff, degradedSetsAreDisjoint_iff]
  refine forall₂_congr fun d hd => and_congr_right fun _ => not_congr ?_
  have hunlisted : d ∉ contract.prohibitedResources := ((hnarrowed.permitted d).mp hd).2.2
  have hsorted : SortedSet (allowed s contract id now).revalidationRequired := hfilled.revalidationSorted
  rw [cut_revalidation]
  show d ∈ contract.prohibitedResources.foldl idSetErase (allowed s contract id now).revalidationRequired ↔ _
  rw [mem_foldl_erase _ hsorted]
  exact and_iff_left hunlisted

/-- the second redundancy check of a new contract repeats the first -/
theorem enough_cut (h : (cut s contract id now).status = .degradedAuthorized) :
    ¬ (cut s contract id now).availableRedundancy < contract.requiredRedundancy := by
  have hfilled := filled s (some contract) id now
  have hnarrowed := (forbids_prohibitAgain.narrowed contract s.topology hfilled.sorted).capped s.topology.resources.size
  have hle := hfilled.enough (hnarrowed.status.symm.trans h)
  rw [hfilled.required, ← hnarrowed.redundancy] at hle
  exact UInt32.not_lt.mpr hle

/-- no prohibited resource waits for revalidation -/
def Unawaited : Prop := ∀ r ∈ s.topology.resources.vals, r.freshness ≠ .fresh → r.id ∉ contract.prohibitedResources

theorem unawaited_iff : Unawaited s contract ↔
    ∀ d ∈ contract.prohibitedResources, d ∉ (allowed s contract id now).revalidationRequired := by
  have hmem := (filled s (some contract) id now).revalidation
  constructor
  · intro h d hd hd'
    obtain ⟨r, hr, rfl, hf⟩ := (hmem d).mp hd'
    exact h r hr hf hd
  · intro h r hr hf hd
    exact h r.id hd ((hmem r.id).mpr ⟨r, hr, rfl, hf⟩)

/-- both judge the same sets, but for the prohibited resources that wait for revalidation -/
theorem same_iff (hid : id = contract.id) :
    Same (granted s contract now) (revalidated s contract id now) ↔ Unawaited s contract := by
  subst hid
  have hsorted := (filled s (some contract) contract.id now).revalidationSorted
  have hrevalidation : Unawaited s contract ↔ (cut s contract contract.id now).revalidationRequired =
      contract.prohibitedResources.foldl idSetErase (allowed s contract contract.id now).revalidationRequired := by
    rw [unawaited_iff s contract contract.id now, cut_revalidation, eq_comm]
    exact (foldl_erase_eq_iff contract.prohibitedResources hsorted).symm
  have hdisjoint := disjoint_listed s contract contract.id now
  have henough := enough_cut s contract contract.id now
  rw [hrevalidation, granted, cut_listed, revalidated, judgeContract, hdisjoint]
  cases degradedSetsAreDisjoint (cut s contract contract.id now) with
  | true =>
    rw [if_neg (by simp), if_neg fun h => henough h.1 h.2, if_pos rfl]
    exact ⟨fun h => h.revalidation, fun h => ⟨rfl, rfl, h, rfl, rfl, rfl, rfl, rfl⟩⟩
  | false =>
    rw [if_pos (by simp), if_neg (by simp)]
    exact ⟨fun h => h.revalidation, fun h => ⟨rfl, rfl, h, rfl, rfl, rfl, rfl, rfl⟩⟩

end Same

/-! ## The two operations -/

/-- the contract under the identity and the generations it is stored with -/
def stamp (contract : DegradedModeContract) (i : Impl) : DegradedModeContract :=
  { contract with
    id := if contract.id.valid then contract.id else ⟨i.nextDegraded⟩
    topologyGeneration := i.state.topologyGeneration
    containmentGeneration := i.state.containmentGeneration }

/-- what an assessment reads of a state -/
structure Unchanged (s s' : RuntimeSnapshot) : Prop where
  topology : s'.topology = s.topology
  containments : s'.containments = s.containments
  epoch : s'.epoch = s.epoch
  generation : s'.topologyGeneration = s.topologyGeneration

/-- an unchanged state is assessed the same -/
theorem Unchanged.revalidated {s s' : RuntimeSnapshot} (h : Unchanged s s') (contract : DegradedModeContract)
    (id : DegradedModeId) (now : UInt64) : revalidated s' contract id now = Reassessment.revalidated s contract id now := by
  have hassess : assessDegradedMode s' (some contract) id now = assessDegradedMode s (some contract) id now := by
    unfold assessDegradedMode
    rw [h.topology, h.containments, h.epoch, h.generation]
  have hcut : cut s' contract id now = cut s contract id now := by
    rw [cut, cut, allowed, allowed, hassess, h.topology]
  rw [Reassessment.revalidated, Reassessment.revalidated, hcut, h.epoch, h.generation]

theorem granted_contract (s : RuntimeSnapshot) (contract : DegradedModeContract) (now : UInt64) :
    (granted s contract now).contract = contract.id := by
  have hfilled := filled s (some contract) contract.id now
  have hnarrowed := (forbids_prohibitListed.narrowed contract s.topology hfilled.sorted).capped s.topology.resources.size
  have hjudged : ∀ a, (judgeContract contract a).contract = a.contract := by
    intro a
    unfold judgeContract
    split_ifs <;> rfl
  rw [granted, hjudged]
  exact hnarrowed.named.trans hfilled.named

/-- an admitted contract is granted, and stored with its assessment -/
theorem authorize_admitted (clk : Clock) {contract : DegradedModeContract} {i : Impl}
    (h : admitContract contract i = .ok ()) :
    (authorizeDegradedMode clk contract i).result = .ok (granted i.state (stamp contract i) (clk 0)) ∧
      Unchanged i.state (authorizeDegradedMode clk contract i).impl.state ∧
      (authorizeDegradedMode clk contract i).impl.state.degradedContracts.find (stamp contract i).id =
        some (stamp contract i) := by
  unfold authorizeDegradedMode
  rw [h]
  dsimp only
  have hstate : (if contract.id.valid then i else { i with nextDegraded := i.nextDegraded + 1 }).state = i.state := by
    split <;> rfl
  rw [hstate]
  refine ⟨rfl, ?_, OrderedMap.find_insert_self _ _ _⟩
  split <;> exact ⟨rfl, rfl, rfl, rfl⟩

/-- a stored contract is revalidated, and stays stored with its assessment -/
theorem revalidate_stored (clk : Clock) {id : DegradedModeId} {contract : DegradedModeContract} {i : Impl}
    (h : i.state.degradedContracts.find id = some contract) :
    (revalidateDegradedMode clk id i).result = .ok (revalidated i.state contract id (clk 0)) ∧
      Unchanged i.state (revalidateDegradedMode clk id i).impl.state ∧
      (revalidateDegradedMode clk id i).impl.state.degradedContracts.find id = some contract := by
  unfold revalidateDegradedMode
  rw [h]
  exact ⟨rfl, ⟨rfl, rfl, rfl, rfl⟩, OrderedMap.find_insert_self _ _ _⟩

/-! ## Re-assessing an unchanged system -/

/-- what an accepted contract's authorization returned is what its revalidation returns -/
def Reassesses (clk : Clock) (contract : DegradedModeContract) (i : Impl) : Prop :=
  ∀ a, (authorizeDegradedMode clk contract i).result = .ok a → ∀ clk' : Clock, clk' 0 = clk 0 →
    ∃ b, (revalidateDegradedMode clk' a.contract (authorizeDegradedMode clk contract i).impl).result = .ok b ∧ Same a b

/-- a second revalidation returns what the first one returned -/
def Settles (i : Impl) : Prop :=
  ∀ (clk clk' : Clock) (id : DegradedModeId) (a : DegradedModeAssessment), clk' 0 = clk 0 →
    (revalidateDegradedMode clk id i).result = .ok a →
      (revalidateDegradedMode clk' id (revalidateDegradedMode clk id i).impl).result = .ok a

theorem settles (i : Impl) : Settles i := by
  intro clk clk' id a hclk ha
  cases hfind : i.state.degradedContracts.find id with
  | none =>
    unfold revalidateDegradedMode at ha
    rw [hfind] at ha
    simp [Step.refuse] at ha
  | some contract =>
    obtain ⟨hresult, hunchanged, hstored⟩ := revalidate_stored clk hfind
    rw [(revalidate_stored clk' hstored).1, hunchanged.revalidated, hclk, ← hresult, ha]

/-- the contract, if it is accepted, prohibits nothing that waits for revalidation -/
def ProhibitsProven (contract : DegradedModeContract) (i : Impl) : Prop :=
  admitContract contract i = .ok () → Unawaited i.state contract

/-- **An assessment survives its revalidation** exactly when no prohibited resource waits for revalidation; a second
revalidation never changes anything. -/
theorem reassesses_iff (clk : Clock) (contract : DegradedModeContract) (i : Impl) :
    Reassesses clk contract i ∧ Settles i ↔ ProhibitsProven contract i := by
  rw [and_iff_left (settles i)]
  cases hadmitted : admitContract contract i with
  | error e =>
    refine iff_of_true (fun a ha => ?_) fun h => ?_
    · unfold authorizeDegradedMode at ha
      rw [hadmitted] at ha
      simp [Step.refuse] at ha
    · rw [hadmitted] at h
      simp at h
  | ok u =>
    obtain ⟨hresult, hunchanged, hstored⟩ := authorize_admitted clk hadmitted
    have hsame := same_iff i.state (stamp contract i) (stamp contract i).id (clk 0) rfl
    have hreval : ∀ clk' : Clock, clk' 0 = clk 0 → (revalidateDegradedMode clk' (stamp contract i).id
        (authorizeDegradedMode clk contract i).impl).result =
          .ok (revalidated i.state (stamp contract i) (stamp contract i).id (clk 0)) := by
      intro clk' hclk
      rw [(revalidate_stored clk' hstored).1, hunchanged.revalidated, hclk]
    constructor
    · intro h _
      obtain ⟨b, hb, hs⟩ := h _ hresult clk rfl
      rw [granted_contract, hreval clk rfl] at hb
      exact hsame.mp (Except.ok.inj hb ▸ hs)
    · intro h a ha clk' hclk
      obtain rfl := Except.ok.inj (hresult.symm.trans ha)
      rw [granted_contract]
      exact ⟨_, hreval clk' hclk, hsame.mpr (h hadmitted)⟩

/-- a runtime with one resource, whose evidence is stale -/
def outdated : List Call :=
  [⟨ticks, .registerResource { id := ⟨1⟩, state := .active, freshness := .stale }⟩]

/-- Prohibiting a resource with stale evidence: only the revalidation says that it waits for revalidation. -/
theorem reassesses_outdated : ¬ ∀ (clk : Clock) (config : Config) (calls : List Call) (contract : DegradedModeContract),
    Reassesses clk contract (Runs.run Call.after calls (construct clk config)) ∧
      Settles (Runs.run Call.after calls (construct clk config)) := by
  intro h
  have hadmitted : admitContract { prohibitedResources := [⟨1⟩] } (Runs.run Call.after outdated (construct ticks {})) =
      .ok () := by decide +kernel
  obtain ⟨hresult, hunchanged, hstored⟩ := authorize_admitted ticks hadmitted
  obtain ⟨b, hb, hs⟩ := (h ticks {} outdated { prohibitedResources := [⟨1⟩] }).1 _ hresult ticks rfl
  rw [granted_contract, (revalidate_stored ticks hstored).1, hunchanged.revalidated] at hb
  have hrevalidation := hs.revalidation
  rw [← Except.ok.inj hb] at hrevalidation
  exact absurd hrevalidation (by decide +kernel)

end FaultContainment.Reassessment
