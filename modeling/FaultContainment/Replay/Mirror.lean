/-
A replica that applies what an engine stages mirrors the engine.

`Mirrors` puts the views together. It is kept by every operation of an engine that is fit, that is whose records stand under
their own identities and whose counters are ahead of what they count, as long as a containment generation is left and an
action identity for each resource.

- `fit_after`, `mirrors_after`: one operation.
- `fit_construct`: a new engine is fit.
- `mirrors_run`: a whole run, replayed from its journal.
-/
import FaultContainment.Replay.Topology
import FaultContainment.Replay.Workers

namespace FaultContainment.Replay

open FaultContainment.Lib FaultContainment.Ids FaultContainment.Enums FaultContainment.Records
open FaultContainment.DurableEvent FaultContainment.Engine FaultContainment.References FaultContainment.Containments
open FaultContainment.Dispatching (Numbered ActionsKeyed plannedBy committed fenced fenced_policy frame_fenced frame_plannedBy
  commitContainment_stored numbered_after actionsKeyed_after)
open FaultContainment.Observations (Cataloged cataloged_after)
open FaultContainment.Incarnations (Genuine Settled turn_after)

/-! ## The invariant -/

/-- what a replica shares with the engine it follows -/
structure Mirrors (i j : Impl) : Prop where
  resources : resourceView.see j = resourceView.see i
  domains : domainView.see j = domainView.see i
  edges : edgeView.see j = edgeView.see i
  workers : workerView.see j = workerView.see i
  policy : policyView.see j = policyView.see i
  faults : faultView.see j = faultView.see i
  containments : containmentView.see j = containmentView.see i
  actions : actionView.see j = actionView.see i
  degraded : degradedView.see j = degradedView.see i
  stamps : stampView.see j = stampView.see i

theorem Mirrors.refl (i : Impl) : Mirrors i i := ⟨rfl, rfl, rfl, rfl, rfl, rfl, rfl, rfl, rfl, rfl⟩

theorem Mirrors.trans {i j k : Impl} (h : Mirrors i j) (h' : Mirrors j k) : Mirrors i k :=
  ⟨h'.resources.trans h.resources, h'.domains.trans h.domains, h'.edges.trans h.edges, h'.workers.trans h.workers,
    h'.policy.trans h.policy, h'.faults.trans h.faults, h'.containments.trans h.containments,
    h'.actions.trans h.actions, h'.degraded.trans h.degraded, h'.stamps.trans h.stamps⟩

/-- no containment was verified later than the last verification -/
def Verified (i : Impl) : Prop :=
  ∀ g c, i.state.containments.find g = some c → c.verificationGeneration ≤ i.state.verificationGeneration

/-- records under their own identities, and counters ahead of what they count -/
structure Fit (i : Impl) : Prop where
  named : Named i.state.topology.resources
  cataloged : Cataloged i
  numbered : Numbered i
  verified : Verified i
  actions : ActionsKeyed i
  allocated : Allocated i
  contracts : ContractsKeyed i
  genuine : Genuine i.state.workers
  settled : Settled i.state.workers
  epoch : i.state.epoch.valid = true

theorem verified_after (c : Call) {i : Impl} (h : Verified i) : Verified (c.after i) := by
  have hle := (frame_run c i).verification_le
  have hold : ∀ g b, i.state.containments.find g = some b → b.verificationGeneration ≤ (c.after i).state.verificationGeneration :=
    fun g b hb => (h g b hb).trans hle
  cases writes c i with
  | none hsame => exact fun g b hb => hold g b (hsame ▸ hb)
  | verify g record hop hfind hlive hstored =>
    refine each_insert hstored ?_ hold
    obtain ⟨clk, op⟩ := c
    obtain rfl : op = .verifyContainment g := hop
    have hadmitted : admitVerify g i = .ok record := by
      unfold admitVerify
      rw [hfind]
      exact if_neg (not_not.mpr hlive)
    have hfault : ∀ f (k : Impl),
        (stageFault record.fault f k).1.state.verificationGeneration = k.state.verificationGeneration := by
      intro f k
      cases f <;> rfl
    refine le_of_eq ?_
    show _ = (verifyContainment clk g i).impl.state.verificationGeneration
    unfold verifyContainment
    rw [hadmitted]
    show _ = (stageFault record.fault _ _).1.state.verificationGeneration
    rw [hfault]
    rfl
  | release g record request _ _ _ hfind hstored => exact each_insert hstored (hold g record hfind) hold
  | commit id expected fault radius _ _ _ hstored => exact each_emplace hstored ((Id.le_iff _ _).mpr (Nat.zero_le _)) hold

theorem contractsKeyed_after (c : Call) {i : Impl} (h : ContractsKeyed i) : ContractsKeyed (c.after i) := by
  have hframe := frame_run c i
  obtain ⟨clk, op⟩ := c
  cases op
  case authorizeDegradedMode contract =>
    show OrderedMap.Keyed DegradedModeContract.id (authorizeDegradedMode clk contract i).impl.state.degradedContracts
    unfold authorizeDegradedMode
    split
    · exact h
    · by_cases hv : contract.id.valid = true
      · simp only [if_pos hv]
        exact OrderedMap.Keyed.insert h rfl
      · simp only [if_neg hv]
        exact OrderedMap.Keyed.insert h rfl
  case revalidateDegradedMode id =>
    show OrderedMap.Keyed DegradedModeContract.id (revalidateDegradedMode clk id i).impl.state.degradedContracts
    unfold revalidateDegradedMode
    split
    · exact h
    · next contract hfind => exact OrderedMap.Keyed.insert h (h id contract hfind)
  all_goals
    show OrderedMap.Keyed DegradedModeContract.id (Call.after _ i).state.degradedContracts
    rw [(hframe.degraded (by simp [Op.parts])).1]
    exact h

theorem allocated_after (c : Call) {i : Impl} (h : Allocated i) (hroom : Room c i) : Allocated (c.after i) := by
  by_cases hop : ∃ id expected, c.op = .authorizeContainment id expected
  · obtain ⟨id, expected, hop⟩ := hop
    obtain ⟨clk, op⟩ := c
    subst hop
    rcases authorizeContainment_cases clk id expected i with hrefused | ⟨fault, radius, hfault, hradius⟩
    · show Allocated (authorizeContainment clk id expected i).impl
      rw [hrefused]
      exact h
    · show Allocated (authorizeContainment clk id expected i).impl
      rw [authorizeContainment_admitted clk hfault hradius]
      obtain ⟨_, _, hstored⟩ := commitContainment_stored clk id fault radius i
      obtain ⟨halloc, hleft⟩ := fenced_room clk h (hroom id expected rfl).2 hradius
      rw [hstored]
      exact (planActions_allocated _ _ _ _ _ halloc hleft).1
  · have hretained := retained_after c i fun id expected heq => hop ⟨id, expected, heq⟩
    intro id a' ha'
    have htargets := hretained.targets id
    rw [ha', Option.map_some] at htargets
    obtain ⟨a, ha, -⟩ := Option.map_eq_some_iff.mp htargets.symm
    rw [hretained.next]
    exact h id a ha

/-- **Step.** Every operation that has room keeps the engine fit. -/
theorem fit_after (c : Call) {i : Impl} (h : Fit i) (hroom : Room c i) : Fit (c.after i) where
  named := (kept_after c h.named).named
  cataloged := cataloged_after c h.cataloged
  numbered := numbered_after c h.numbered
  verified := verified_after c h.verified
  actions := actionsKeyed_after c h.actions
  allocated := allocated_after c h.allocated hroom
  contracts := contractsKeyed_after c h.contracts
  genuine := (turn_after c h.genuine).genuine h.genuine h.epoch
  settled := (turn_after c h.genuine).settled h.genuine h.settled
  epoch := valid_of_le h.epoch (frame_run c i).epoch_le

/-- **Step.** What an operation stages takes a replica where the operation takes the engine. -/
theorem mirrors_after (c : Call) {i j : Impl} (h : Fit i) (hroom : Room c i) (hm : Mirrors i j) :
    Mirrors (c.after i) (applyAll (events c i) j) where
  resources := (kept_after c h.named).follows j hm.resources
  domains := follows_domains c i j hm.domains
  edges := follows_edges c i j hm.edges
  workers := follows_workers c h.genuine j hm.workers
  policy := follows_policy c i j hm.policy
  faults := follows_faults c h.cataloged j hm.faults
  containments := follows_containments c h.numbered hroom j hm.containments
  actions := follows_actions c h.actions h.allocated hroom j hm.actions
  degraded := follows_degraded c i h.contracts j hm.degraded
  stamps := follows_stamps c i j hm.stamps

/-- a new engine is fit -/
theorem fit_construct (clk : Clock) (config : Config) : Fit (construct clk config) where
  named := fun k r h => by simp [construct, Impl.addHistory, Impl.pushHistory, Config.emptyState] at h
  cataloged := Observations.cataloged_start (.fresh clk config) trivial
  numbered := fun g c h => by simp [construct, Impl.addHistory, Impl.pushHistory, Config.emptyState] at h
  verified := fun g c h => by simp [construct, Impl.addHistory, Impl.pushHistory, Config.emptyState] at h
  actions := fun k a h => by simp [construct, Impl.addHistory, Impl.pushHistory, Config.emptyState] at h
  allocated := fun k a h => by simp [construct, Impl.addHistory, Impl.pushHistory, Config.emptyState] at h
  contracts := fun k d h => by simp [construct, Impl.addHistory, Impl.pushHistory, Config.emptyState] at h
  genuine := Incarnations.genuine_empty
  settled := Incarnations.settled_empty
  epoch := (Incarnations.tracked_start clk config).epoch

/-- everything a run stages, in order -/
def journal : List Call → Impl → List Event
  | [], _ => []
  | c :: cs, i => events c i ++ journal cs (c.after i)

/-- **Run.** What a run stages takes a replica where the run takes the engine. -/
theorem mirrors_run (cs : List Call) {i j : Impl} (h : Fit i) (hroom : Runs.Along Call.after Room cs i)
    (hm : Mirrors i j) : Mirrors (Runs.run Call.after cs i) (applyAll (journal cs i) j) := by
  induction cs generalizing i j with
  | nil => exact hm
  | cons c cs ih =>
    obtain ⟨hhere, hthere⟩ := hroom
    rw [Runs.run_cons, journal, applyAll_append]
    exact ih (fit_after c h hhere) hthere (mirrors_after c h hhere hm)

/-- a worker and a resource of it, a fault of the resource, and its containment -/
def containing : List Call := [
  ⟨ticks, .registerWorker ⟨1⟩ ⟨1⟩ [] {}⟩,
  ⟨ticks, .registerResource { id := ⟨5⟩, ownerWorker := ⟨1⟩, ownerBoot := ⟨1⟩ }⟩,
  ⟨ticks, .publishFault { subject := ⟨5⟩ }⟩,
  ⟨ticks, .authorizeContainment ⟨1⟩ ⟨1⟩⟩]

theorem mirrors_run_containing : Mirrors (Runs.run Call.after containing (construct ticks {}))
    (applyAll (journal containing (construct ticks {})) (construct ticks {})) := by
  refine mirrors_run containing (fit_construct ticks {}) ⟨?_, ?_, ?_, ?_, trivial⟩ (.refl _)
  · exact fun id expected h => by simp at h
  · exact fun id expected h => by simp at h
  · exact fun id expected h => by simp at h
  · exact fun id expected _ => by decide +kernel

end FaultContainment.Replay
