/-
What each operation of the engine leaves alone.

The state is cut into parts, and an operation has a footprint: the parts it may write. `Frame` says that everything outside
a footprint is as it was, and that no stamp (topology, policy, epoch, containment, verification, release, history) goes
back. One lemma for each way of editing the state, then one for each operation.

- `frame_run`: an operation writes inside its footprint.
-/
import FaultContainment.Engine.Ops

namespace FaultContainment.Engine

open FaultContainment.Lib FaultContainment.Ids FaultContainment.Enums FaultContainment.Records
open FaultContainment.DurableEvent

/-- a part of the engine's state -/
inductive Part where
  | topology | topologyGeneration | workers | faults | faultIndex | losses | containments | actions | policy | degraded
  | epoch | verification | release
  deriving DecidableEq

/-- outside the parts `S` nothing changed, and no stamp went back -/
structure Frame (S : List Part) (i j : Impl) : Prop where
  config : j.config = i.config
  topology : .topology ∉ S → j.state.topology = i.state.topology
  topologyGeneration : .topologyGeneration ∉ S → j.state.topologyGeneration = i.state.topologyGeneration
  workers : .workers ∉ S → j.state.workers = i.state.workers
  faults : .faults ∉ S → j.state.faults = i.state.faults
  faultByDigest : .faultIndex ∉ S → j.faultByDigest = i.faultByDigest
  nextFault : .faultIndex ∉ S → j.nextFault = i.nextFault
  losses : .losses ∉ S → j.authorityLossFaults = i.authorityLossFaults
  containments : .containments ∉ S → j.state.containments = i.state.containments
  containmentGeneration : .containments ∉ S → j.state.containmentGeneration = i.state.containmentGeneration
  actions : .actions ∉ S → j.state.actions = i.state.actions
  nextAction : .actions ∉ S → j.nextAction = i.nextAction
  policy : .policy ∉ S → j.state.policy = i.state.policy
  policyGeneration : .policy ∉ S → j.state.policyGeneration = i.state.policyGeneration
  degraded : .degraded ∉ S → j.state.degradedContracts = i.state.degradedContracts ∧
    j.state.degradedModes = i.state.degradedModes
  epoch : .epoch ∉ S → j.state.epoch = i.state.epoch
  verification : .verification ∉ S → j.state.verificationGeneration = i.state.verificationGeneration
  release : .release ∉ S → j.state.releaseGeneration = i.state.releaseGeneration
  topologyGeneration_le : i.state.topologyGeneration ≤ j.state.topologyGeneration
  containmentGeneration_le : i.state.containmentGeneration ≤ j.state.containmentGeneration
  policyGeneration_le : i.state.policyGeneration ≤ j.state.policyGeneration
  epoch_le : i.state.epoch ≤ j.state.epoch
  verification_le : i.state.verificationGeneration ≤ j.state.verificationGeneration
  release_le : i.state.releaseGeneration ≤ j.state.releaseGeneration
  history_le : i.state.historySequence ≤ j.state.historySequence

namespace Frame

variable {S : List Part} {i j : Impl}

theorem refl (S : List Part) (i : Impl) : Frame S i i := by constructor <;> intros <;> first | rfl | exact ⟨rfl, rfl⟩

theorem trans {k : Impl} (h : Frame S i j) (h' : Frame S j k) : Frame S i k where
  config := h'.config.trans h.config
  topology hn := (h'.topology hn).trans (h.topology hn)
  topologyGeneration hn := (h'.topologyGeneration hn).trans (h.topologyGeneration hn)
  workers hn := (h'.workers hn).trans (h.workers hn)
  faults hn := (h'.faults hn).trans (h.faults hn)
  faultByDigest hn := (h'.faultByDigest hn).trans (h.faultByDigest hn)
  nextFault hn := (h'.nextFault hn).trans (h.nextFault hn)
  losses hn := (h'.losses hn).trans (h.losses hn)
  containments hn := (h'.containments hn).trans (h.containments hn)
  containmentGeneration hn := (h'.containmentGeneration hn).trans (h.containmentGeneration hn)
  actions hn := (h'.actions hn).trans (h.actions hn)
  nextAction hn := (h'.nextAction hn).trans (h.nextAction hn)
  policy hn := (h'.policy hn).trans (h.policy hn)
  policyGeneration hn := (h'.policyGeneration hn).trans (h.policyGeneration hn)
  degraded hn := ⟨(h'.degraded hn).1.trans (h.degraded hn).1, (h'.degraded hn).2.trans (h.degraded hn).2⟩
  epoch hn := (h'.epoch hn).trans (h.epoch hn)
  verification hn := (h'.verification hn).trans (h.verification hn)
  release hn := (h'.release hn).trans (h.release hn)
  topologyGeneration_le := h.topologyGeneration_le.trans h'.topologyGeneration_le
  containmentGeneration_le := h.containmentGeneration_le.trans h'.containmentGeneration_le
  policyGeneration_le := h.policyGeneration_le.trans h'.policyGeneration_le
  epoch_le := h.epoch_le.trans h'.epoch_le
  verification_le := h.verification_le.trans h'.verification_le
  release_le := h.release_le.trans h'.release_le
  history_le := h.history_le.trans h'.history_le

/-- a larger footprint -/
theorem mono {S' : List Part} (h : Frame S i j) (hS : S ⊆ S') : Frame S' i j where
  config := h.config
  topology hn := h.topology fun hm => hn (hS hm)
  topologyGeneration hn := h.topologyGeneration fun hm => hn (hS hm)
  workers hn := h.workers fun hm => hn (hS hm)
  faults hn := h.faults fun hm => hn (hS hm)
  faultByDigest hn := h.faultByDigest fun hm => hn (hS hm)
  nextFault hn := h.nextFault fun hm => hn (hS hm)
  losses hn := h.losses fun hm => hn (hS hm)
  containments hn := h.containments fun hm => hn (hS hm)
  containmentGeneration hn := h.containmentGeneration fun hm => hn (hS hm)
  actions hn := h.actions fun hm => hn (hS hm)
  nextAction hn := h.nextAction fun hm => hn (hS hm)
  policy hn := h.policy fun hm => hn (hS hm)
  policyGeneration hn := h.policyGeneration fun hm => hn (hS hm)
  degraded hn := h.degraded fun hm => hn (hS hm)
  epoch hn := h.epoch fun hm => hn (hS hm)
  verification hn := h.verification fun hm => hn (hS hm)
  release hn := h.release fun hm => hn (hS hm)
  topologyGeneration_le := h.topologyGeneration_le
  containmentGeneration_le := h.containmentGeneration_le
  policyGeneration_le := h.policyGeneration_le
  epoch_le := h.epoch_le
  verification_le := h.verification_le
  release_le := h.release_le
  history_le := h.history_le

/-! ## Edits -/

theorem addHistory (h : Frame S i j) (time : UInt64) (entry : HistoryEvent) : Frame S i (j.addHistory time entry) :=
  { h with history_le := h.history_le.trans (nextGeneration_le _) }

theorem commit (h : Frame S i j) {α : Type} (time : UInt64) (entry : HistoryEvent) (before : List Event)
    (event : Option HistoryEvent → Event) (after : List Event) (a : α) :
    Frame S i (Engine.commit j time entry before event after a).impl := h.addHistory time entry

theorem withTopology (h : Frame S i j) (hS : .topology ∈ S) (t : Topology) : Frame S i (j.withTopology t) :=
  { h with topology := fun hn => absurd hS hn }

theorem withResources (h : Frame S i j) (hS : .topology ∈ S) (m : OrderedMap ResourceId ResourceRecord) :
    Frame S i (j.withResources m) := h.withTopology hS _

theorem edit {t : IdTag} {D : Type} (h : Frame S i j) (hS : .topology ∈ S) (g : Grouping t D)
    (f : OrderedMap (Id t) D → OrderedMap (Id t) D) : Frame S i (g.edit j f) := h.withTopology hS _

theorem advanceTopology (h : Frame S i j) (hS : .topologyGeneration ∈ S) : Frame S i j.advanceTopology :=
  { h with
    topologyGeneration := fun hn => absurd hS hn
    topologyGeneration_le := h.topologyGeneration_le.trans (nextGeneration_le _) }

theorem withWorkers (h : Frame S i j) (hS : .workers ∈ S) (w : WorkerRegistry) :
    Frame S i { j with state := { j.state with workers := w } } := { h with workers := fun hn => absurd hS hn }

theorem withIncarnations (h : Frame S i j) (hS : .workers ∈ S) (m : OrderedMap WorkerKey WorkerRecord) :
    Frame S i (j.withIncarnations m) := h.withWorkers hS _

theorem withFaults (h : Frame S i j) (hS : .faults ∈ S) (m : OrderedMap FaultId FaultRecord) :
    Frame S i (j.withFaults m) := { h with faults := fun hn => absurd hS hn }

theorem withContainments (h : Frame S i j) (hS : .containments ∈ S)
    (m : OrderedMap ContainmentGeneration ContainmentRecord) : Frame S i (j.withContainments m) :=
  { h with containments := fun hn => absurd hS hn }

theorem withActions (h : Frame S i j) (hS : .actions ∈ S) (m : OrderedMap ActionId ContainmentAction) :
    Frame S i (j.withActions m) := { h with actions := fun hn => absurd hS hn }

theorem withNextAction (h : Frame S i j) (hS : .actions ∈ S) (n : UInt64) : Frame S i { j with nextAction := n } :=
  { h with nextAction := fun hn => absurd hS hn }

theorem withFaultIndex (h : Frame S i j) (hS : .faultIndex ∈ S) (digests : OrderedMap Digest FaultId) (n : UInt64) :
    Frame S i { j with faultByDigest := digests, nextFault := n } :=
  { h with faultByDigest := fun hn => absurd hS hn, nextFault := fun hn => absurd hS hn }

theorem withLosses (h : Frame S i j) (hS : .losses ∈ S) (losses : OrderedMap WorkerKey FaultId) :
    Frame S i { j with authorityLossFaults := losses } := { h with losses := fun hn => absurd hS hn }

/-- the parts of the engine that are not in the state, apart from the allocators and indexes of faults and actions -/
theorem volatile (h : Frame S i j) (healthy shuttingDown : Bool) (releases : OrderedMap ResourceId ReleaseAssessment)
    (nextDegraded : UInt64) :
    Frame S i { j with
      durabilityHealthy := healthy, shuttingDown := shuttingDown, releases := releases, nextDegraded := nextDegraded } :=
  { h with }

/-! ## Loops -/

theorem editEach (hS : .topology ∈ S) (hS' : .topologyGeneration ∈ S) (f : ResourceRecord → Option ResourceRecord)
    (ks : List ResourceId) (h : Frame S i j) : Frame S i (Engine.editEach f ks j).1 := by
  induction ks generalizing j with
  | nil => exact h
  | cons k ks ih =>
    unfold Engine.editEach
    split
    · exact ih h
    · exact ih ((h.withResources hS _).advanceTopology hS')

theorem planActions (hS : .actions ∈ S) (time : UInt64) (budget : ℕ) (record : ContainmentRecord)
    (ks : List ResourceId) (planned : List ActionId) (h : Frame S i j) :
    Frame S i (Engine.planActions time budget record ks planned j).1 := by
  induction ks generalizing planned j with
  | nil => exact h
  | cons k ks ih =>
    unfold Engine.planActions
    split
    · exact h
    · split
      · exact ih planned h
      · exact ih _ ((h.withNextAction hS _).withActions hS _)

theorem stage (hS : .actions ∈ S) {d : Dispatch} (h : Frame S i d.impl) (time : UInt64) (key : ActionId)
    (action : ContainmentAction) (entry : HistoryEvent) : Frame S i (d.stage time key action entry).impl :=
  (h.withActions hS _).addHistory _ _

theorem dispatchOne (hS : .actions ∈ S) (clk : Clock) (record : ContainmentRecord) {d : Dispatch}
    (h : Frame S i d.impl) (id : ActionId) : Frame S i (Engine.dispatchOne clk record d id).impl := by
  unfold Engine.dispatchOne
  split
  · exact h
  · split_ifs
    · exact h
    · exact stage hS (d := { d with summary := _ }) h _ _ _ _
    · exact stage hS (d := { d with toDispatch := _ }) h _ _ _ _

theorem settleOne (hS : .actions ∈ S) (clk : Clock) {d : Dispatch} (h : Frame S i d.impl) (attempt : Attempt) :
    Frame S i (Engine.settleOne clk d attempt).impl := by
  unfold Engine.settleOne
  split
  · exact h
  · split_ifs
    · exact h
    · split
      · exact stage hS (d := { d with summary := _ }) h _ _ _ _
      · exact stage hS (d := { d with summary := _ }) h _ _ _ _

theorem foldl {β : Type} {f : Dispatch → β → Dispatch} (hf : ∀ d b, Frame S i d.impl → Frame S i (f d b).impl)
    (bs : List β) (d : Dispatch) (h : Frame S i d.impl) : Frame S i (bs.foldl f d).impl := by
  induction bs generalizing d with
  | nil => exact h
  | cons b bs ih => exact ih _ (hf d b h)

theorem stageFault (hS : .faults ∈ S) (id : FaultId) (f : Option FaultRecord) (h : Frame S i j) :
    Frame S i (Engine.stageFault id f j).1 := by
  cases f with
  | none => exact h
  | some f => exact h.withFaults hS _

end Frame

/-! ## Topology operations -/

/-- the footprint of an edit of the topology -/
abbrev topologyParts : List Part := [.topology, .topologyGeneration]

theorem frame_register {t : IdTag} {D : Type} (g : Grouping t D) (normalize : D → D) (clk : Clock) (domain : D)
    (i : Impl) : Frame topologyParts i (g.register normalize clk domain i).impl := by
  unfold Grouping.register
  split
  · exact .refl _ i
  split
  · exact .refl _ i
  · exact ((((Frame.refl _ i).advanceTopology (by simp)).withResources (by simp) _).edit (by simp) g _).commit _ _ _ _ _ _

theorem frame_unregister {t : IdTag} {D : Type} (g : Grouping t D) (notFound advanced : String) (clk : Clock)
    (id : Id t) (expected : TopologyGeneration) (i : Impl) :
    Frame topologyParts i (g.unregister notFound advanced clk id expected i).impl := by
  unfold Grouping.unregister
  split
  · exact .refl _ i
  · dsimp only
    split_ifs
    · exact .refl _ i
    · exact ((((Frame.refl _ i).edit (by simp) g _).advanceTopology (by simp)).withResources (by simp) _).commit _ _ _ _ _ _

theorem frame_registerDomain (clk : Clock) (domain : ContainmentDomain) (i : Impl) :
    Frame topologyParts i (registerDomain clk domain i).impl := by
  have hplaced := fun m => ((Frame.refl topologyParts i).advanceTopology (by simp)).withResources (by simp) m
  unfold registerDomain
  split
  · exact .refl _ i
  split
  · exact .refl _ i
  · dsimp only
    split
    · exact hplaced _
    · exact ((hplaced _).withTopology (by simp) _).commit _ _ _ _ _ _

theorem frame_updateDomain (clk : Clock) (domain : ContainmentDomain) (expected : TopologyGeneration) (i : Impl) :
    Frame topologyParts i (updateDomain clk domain expected i).impl := by
  unfold updateDomain
  split
  · exact .refl _ i
  · exact ((((Frame.refl _ i).advanceTopology (by simp)).withTopology (by simp) _).withResources (by simp) _).commit
      _ _ _ _ _ _

theorem frame_registerResource (clk : Clock) (record : ResourceRecord) (i : Impl) :
    Frame (.workers :: topologyParts) i (registerResource clk record i).impl := by
  unfold registerResource
  split
  · exact .refl _ i
  · dsimp only
    refine Frame.commit (Frame.withResources (Frame.edit (Frame.edit (Frame.edit ?_ (by simp) _ _) (by simp) _ _)
      (by simp) _ _) (by simp) _) _ _ _ _ _ _
    split_ifs
    · exact ((Frame.refl _ i).advanceTopology (by simp)).withIncarnations (by simp) _
    · exact (Frame.refl _ i).advanceTopology (by simp)

theorem frame_updateResource (clk : Clock) (record : ResourceRecord) (expected : ResourceGeneration) (i : Impl) :
    Frame topologyParts i (updateResource clk record expected i).impl := by
  unfold updateResource
  split
  · exact .refl _ i
  · exact ((((((Frame.refl _ i).advanceTopology (by simp)).edit (by simp) _ _).edit (by simp) _ _).edit
      (by simp) _ _).withResources (by simp) _).commit _ _ _ _ _ _

theorem frame_removeResource (clk : Clock) (id : ResourceId) (expected : ResourceGeneration) (i : Impl) :
    Frame topologyParts i (removeResource clk id expected i).impl := by
  unfold removeResource
  split
  · exact .refl _ i
  · split_ifs
    · exact .refl _ i
    · exact (((((((Frame.refl _ i).withTopology (by simp) _).edit (by simp) _ _).edit (by simp) _ _).edit
        (by simp) _ _).withResources (by simp) _).advanceTopology (by simp)).commit _ _ _ _ _ _

theorem frame_registerDependency (clk : Clock) (edge : DependencyEdge) (i : Impl) :
    Frame topologyParts i (registerDependency clk edge i).impl := by
  unfold registerDependency
  split
  · exact .refl _ i
  · exact (((Frame.refl _ i).advanceTopology (by simp)).withTopology (by simp) _).commit _ _ _ _ _ _

theorem frame_removeDependency (clk : Clock) (id : DependencyId) (expected : DependencyGeneration) (i : Impl) :
    Frame topologyParts i (removeDependency clk id expected i).impl := by
  unfold removeDependency
  split
  · exact .refl _ i
  · split_ifs
    · exact .refl _ i
    · exact (((Frame.refl _ i).withTopology (by simp) _).advanceTopology (by simp)).commit _ _ _ _ _ _

theorem frame_setPolicy (clk : Clock) (policy : ContainmentPolicy) (i : Impl) :
    Frame [.policy] i (setPolicy clk policy i).impl := by
  unfold setPolicy
  split
  · exact .refl _ i
  · refine Frame.commit (i := i) ?_ _ _ _ _ _ _
    exact { Frame.refl [.policy] i with
      policy := fun hn => absurd (by simp) hn, policyGeneration := fun hn => absurd (by simp) hn
      policyGeneration_le := nextGeneration_le _ }

theorem frame_publishResourceEvidence (clk : Clock) (id : ResourceId) (expected : ResourceGeneration)
    (freshness : EvidenceFreshness) (sequence : EvidenceSequence) (mechanism : ContainmentMechanism) (source : Text)
    (i : Impl) :
    Frame topologyParts i (publishResourceEvidence clk id expected freshness sequence mechanism source i).impl := by
  unfold publishResourceEvidence
  split
  · exact .refl _ i
  · exact (((Frame.refl _ i).withResources (by simp) _).advanceTopology (by simp)).commit _ _ _ _ _ _

/-! ## Workers and epochs -/

theorem frame_revokePrevious {S : List Part} (hw : .workers ∈ S) (ht : .topology ∈ S) (clk : Clock) (worker : WorkerId)
    (boot : WorkerBootId) {i j : Impl} (h : Frame S i j) : Frame S i (revokePrevious clk worker boot j).1 := by
  unfold revokePrevious
  split
  · exact h
  · split_ifs
    · exact h
    · split
      · exact h
      · exact ((h.withIncarnations hw _).withResources ht _).addHistory _ _

theorem frame_registerFresh (clk : Clock) (worker : WorkerId) (boot : WorkerBootId) (endpoint : Text)
    (sequence : EvidenceSequence) {i j : Impl} (h : Frame [.workers, .topology] i j) :
    Frame [.workers, .topology] i (registerFresh clk worker boot endpoint sequence j).impl := by
  have hrevoked := frame_revokePrevious (by simp) (by simp) clk worker boot h
  unfold registerFresh
  exact (hrevoked.withWorkers (by simp) _).commit _ _ _ _ _ _

theorem frame_registerWorker (clk : Clock) (worker : WorkerId) (boot : WorkerBootId) (endpoint : Text)
    (sequence : EvidenceSequence) (i : Impl) :
    Frame [.workers, .topology] i (registerWorker clk worker boot endpoint sequence i).impl := by
  unfold registerWorker
  split
  · exact .refl _ i
  split
  · exact .refl _ i
  split
  · exact frame_registerFresh _ _ _ _ _ (.refl _ i)
  · split
    · exact frame_registerFresh _ _ _ _ _ ((Frame.refl _ i).withIncarnations (by simp) _)
    split
    · exact .refl _ i
    split
    · exact ((Frame.refl _ i).withIncarnations (by simp) _).commit _ _ _ _ _ _
    · exact .refl _ i

theorem frame_retireWorker (clk : Clock) (worker : WorkerId) (boot : WorkerBootId) (reason : Text) (i : Impl) :
    Frame [.workers] i (retireWorker clk worker boot reason i).impl := by
  unfold retireWorker
  split
  · exact .refl _ i
  · split
    · exact .refl _ i
    · exact ((Frame.refl _ i).withIncarnations (by simp) _).commit _ _ _ _ _ _

/-- the footprint of an epoch advance -/
abbrev epochParts : List Part := [.epoch, .workers, .topology, .actions]

theorem frame_beginEpoch (clk : Clock) (nowMs : UInt64) (reason : Text) (i : Impl) :
    Frame epochParts i (beginEpoch clk nowMs reason i).impl := by
  have hepoch : Frame epochParts i
      { i with state := { i.state with epoch := nextGeneration i.state.epoch, nowMs := nowMs } } :=
    { Frame.refl epochParts i with epoch := fun hn => absurd (by simp) hn, epoch_le := nextGeneration_le _ }
  unfold beginEpoch
  exact (((hepoch.withIncarnations (by simp) _).withResources (by simp) _).withActions (by simp) _).commit _ _ _ _ _ _

theorem frame_authorityLost (clk : Clock) (worker : WorkerId) (boot : WorkerBootId) (detail : Text) (time : UInt64)
    (i : Impl) : Frame (.workers :: topologyParts) i (authorityLost clk worker boot detail time i).impl := by
  have hrevoked := fun m => (Frame.refl (.workers :: topologyParts) i).withIncarnations (by simp) m
  unfold authorityLost
  split
  · exact .refl _ i
  · split
    · exact .refl _ i
    · dsimp only
      rw [Impl.withIncarnations_topology]
      by_cases hsubject : ¬ (lossSubject (ownedBy boot i.state.topology.resources)).valid = true
      · rw [if_pos hsubject]
        exact (hrevoked _).addHistory _ _
      · rw [if_neg hsubject]
        exact (Frame.editEach (by simp) (by simp) _ _ (hrevoked _)).commit _ _ _ _ _ _

/-! ## Faults and containments -/

theorem frame_publishFault (clk : Clock) (evidence : FaultEvidence) (i : Impl) :
    Frame [.faults, .faultIndex] i (publishFault clk evidence i).impl := by
  have hallocated : Frame [.faults, .faultIndex] i (allocateFault evidence i) := by
    unfold allocateFault
    split
    · exact .refl _ i
    · exact (Frame.refl _ i).withFaultIndex (by simp) _ _
  unfold publishFault
  split
  · exact .refl _ i
  split
  · exact .refl _ i
  dsimp only
  split
  · exact hallocated
  split
  · exact (hallocated.withFaults (by simp) _).addHistory _ _
  · split
    · exact hallocated
    · exact ((hallocated.withFaults (by simp) _).withFaultIndex (by simp) _ _).commit _ _ _ _ _ _

theorem frame_supersedeFault (clk : Clock) (id : FaultId) (expected : FaultGeneration) (reason : Text) (i : Impl) :
    Frame [.faults] i (supersedeFault clk id expected reason i).impl := by
  unfold supersedeFault
  split
  · exact .refl _ i
  · exact ((Frame.refl _ i).withFaults (by simp) _).commit _ _ _ _ _ _

/-- the footprint of a commitment -/
abbrev containmentParts : List Part := [.faults, .topology, .topologyGeneration, .actions, .containments]

theorem frame_authorizeContainment (clk : Clock) (id : FaultId) (expected : FaultGeneration) (i : Impl) :
    Frame containmentParts i (authorizeContainment clk id expected i).impl := by
  unfold authorizeContainment
  split
  · exact .refl _ i
  split
  · exact .refl _ i
  · next fault _ _ radius hradius =>
    have hfault := (Frame.refl containmentParts i).withFaults (by simp) (i.state.faults.insert id { fault with
      state := .containmentInProgress, containmentGeneration := radius.generation, lastUpdatedMs := clk 0 })
    have hfenced := Frame.editEach (by simp) (by simp) (fun r => some (fence (clk 0) i.state.workers radius.generation
      (outcomeQuarantines radius.recommended) r)) radius.mandatory hfault
    have hdrained := Frame.editEach (by simp) (by simp) (drain (clk 0)) radius.precautionary hfenced
    have hplanned := fun budget => Frame.planActions (by simp) (clk 0) budget (newContainment (clk 0) id fault radius i)
      radius.mandatory [] hdrained
    unfold commitContainment
    refine Frame.commit (i := i) ?_ _ _ _ _ _ _
    exact { hplanned _ with
      containments := fun hn => absurd (by simp) hn
      containmentGeneration := fun hn => absurd (by simp) hn
      containmentGeneration_le := by
        show i.state.containmentGeneration ≤ radius.generation
        rw [admitRadius_generation hradius]
        exact nextGeneration_le _ }

/-! ## Dispatch -/

theorem frame_dispatchBegin (clk : Clock) (generation : ContainmentGeneration) (executorAttached : Bool) (i : Impl) :
    Frame [.actions] i (dispatchBegin clk generation executorAttached i).impl := by
  unfold dispatchBegin
  split
  · exact .refl _ i
  · exact Frame.foldl (fun d id h => Frame.dispatchOne (by simp) clk _ h id) _ _ (.refl _ i)

theorem frame_dispatchEnd (clk : Clock) (attempts : List Attempt) (summary : DispatchSummary) (i : Impl) :
    Frame [.actions] i (dispatchEnd clk attempts summary i).impl :=
  Frame.foldl (fun _ a h => Frame.settleOne (by simp) clk h a) _ _ (.refl _ i)

theorem frame_recordActionAck (clk : Clock) (ack : ActionAcknowledgment) (i : Impl) :
    Frame [.actions] i (recordActionAck clk ack i).impl := by
  unfold recordActionAck
  split
  · exact .refl _ i
  · split
    · exact .refl _ i
    split
    · exact .refl _ i
    · exact ((Frame.refl _ i).withActions (by simp) _).commit _ _ _ _ _ _

theorem frame_recordActionResult (clk : Clock) (result : ActionResult) (i : Impl) :
    Frame (.actions :: topologyParts) i (recordActionResult clk result i).impl := by
  have hstored := fun m => (Frame.refl (.actions :: topologyParts) i).withActions (by simp) m
  unfold recordActionResult
  split
  · exact .refl _ i
  · split
    · exact .refl _ i
    split
    · exact .refl _ i
    · dsimp only
      refine Frame.commit ?_ _ _ _ _ _ _
      cases result.success with
      | false => exact hstored _
      | true => exact Frame.editEach (by simp) (by simp) _ _ (hstored _)

/-! ## Verification, degraded modes, release -/

theorem frame_verifyContainment (clk : Clock) (generation : ContainmentGeneration) (i : Impl) :
    Frame [.containments, .verification, .faults] i (verifyContainment clk generation i).impl := by
  unfold verifyContainment
  split
  · exact .refl _ i
  · refine Frame.commit (Frame.stageFault (by simp) _ _ ?_) _ _ _ _ _ _
    exact { (Frame.refl [.containments, .verification, .faults] i).withContainments (by simp) _ with
      verification := fun hn => absurd (by simp) hn, verification_le := nextGeneration_le _ }

theorem frame_storeDegraded {S : List Part} (hS : .degraded ∈ S) (contractKey : DegradedModeId)
    (contract : DegradedModeContract) (a : DegradedModeAssessment) (assessmentKey : DegradedModeId) {i j : Impl}
    (h : Frame S i j) : Frame S i (storeDegraded contractKey contract a assessmentKey j) :=
  { h with degraded := fun hn => absurd hS hn }

theorem frame_authorizeDegradedMode (clk : Clock) (contract : DegradedModeContract) (i : Impl) :
    Frame [.degraded] i (authorizeDegradedMode clk contract i).impl := by
  unfold authorizeDegradedMode
  split
  · exact .refl _ i
  · refine Frame.commit (frame_storeDegraded (by simp) _ _ _ _ ?_) _ _ _ _ _ _
    split
    · exact .refl _ i
    · exact (Frame.refl _ i).volatile _ _ _ _

theorem frame_revalidateDegradedMode (clk : Clock) (id : DegradedModeId) (i : Impl) :
    Frame [.degraded] i (revalidateDegradedMode clk id i).impl := by
  unfold revalidateDegradedMode
  split
  · exact .refl _ i
  · exact (frame_storeDegraded (by simp) _ _ _ _ (.refl _ i)).commit _ _ _ _ _ _

/-- the footprint of a release -/
abbrev releaseParts : List Part := [.topology, .topologyGeneration, .release, .containments, .faults]

theorem frame_takeOffContainment {S : List Part} (hc : .containments ∈ S) (hf : .faults ∈ S) (clk : Clock)
    (generation : ContainmentGeneration) (id : ResourceId) {i j : Impl} (h : Frame S i j) :
    Frame S i (takeOffContainment clk generation id j).1 := by
  unfold takeOffContainment
  split
  · exact h
  · dsimp only
    split
    · exact (h.withContainments hc _).stageFault hf _ _
    · exact h.withContainments hc _

theorem frame_authorizeRelease (clk : Clock) (request : ReleaseRequest) (i : Impl) :
    Frame releaseParts i (authorizeRelease clk request i).impl := by
  have hnoted := fun m => (Frame.refl releaseParts i).volatile i.durabilityHealthy i.shuttingDown m i.nextDegraded
  unfold authorizeRelease
  dsimp only
  split
  · exact (hnoted _).commit _ _ _ _ _ _
  split
  · exact hnoted _
  · unfold grantRelease
    refine Frame.commit (frame_takeOffContainment (by simp) (by simp) clk _ _ ?_) _ _ _ _ _ _
    exact { ((hnoted _).withResources (by simp) _).advanceTopology (by simp) with
      release := fun hn => absurd (by simp) hn, release_le := nextGeneration_le _ }

/-! ## Every operation -/

/-- the parts an operation may write -/
def Op.parts : Op → List Part
  | .registerResource _ | .authorityLost _ _ _ _ => .workers :: topologyParts
  | .registerDomain _ | .updateDomain _ _ | .removeDomain _ _ | .registerIsolationDomain _ | .removeIsolationDomain _ _
  | .registerFailureDomain _ | .removeFailureDomain _ _ | .updateResource _ _ | .removeResource _ _
  | .registerDependency _ | .removeDependency _ _ | .publishResourceEvidence _ _ _ _ _ _ => topologyParts
  | .setPolicy _ => [.policy]
  | .registerWorker _ _ _ _ => [.workers, .topology]
  | .retireWorker _ _ _ => [.workers]
  | .beginEpoch _ _ => epochParts
  | .publishFault _ => [.faults, .faultIndex]
  | .supersedeFault _ _ _ => [.faults]
  | .authorizeContainment _ _ => containmentParts
  | .dispatchBegin _ _ | .dispatchEnd _ _ | .recordActionAck _ => [.actions]
  | .recordActionResult _ => .actions :: topologyParts
  | .verifyContainment _ => [.containments, .verification, .faults]
  | .authorizeDegradedMode _ | .revalidateDegradedMode _ => [.degraded]
  | .authorizeRelease _ => releaseParts
  | .noteAuthorityLoss _ _ => [.losses]
  | .requestShutdown | .persistenceFault _ => []

/-- **Frame.** An operation writes inside its footprint, and no stamp goes back. -/
theorem frame_run (c : Call) (i : Impl) : Frame c.op.parts i (c.after i) := by
  obtain ⟨clk, op⟩ := c
  cases op with
  | registerDomain domain => exact frame_registerDomain clk domain i
  | updateDomain domain expected => exact frame_updateDomain clk domain expected i
  | removeDomain id expected => exact frame_unregister _ _ _ clk id expected i
  | registerIsolationDomain domain => exact frame_register _ _ clk domain i
  | removeIsolationDomain id expected => exact frame_unregister _ _ _ clk id expected i
  | registerFailureDomain domain => exact frame_register _ _ clk domain i
  | removeFailureDomain id expected => exact frame_unregister _ _ _ clk id expected i
  | registerResource record => exact frame_registerResource clk record i
  | updateResource record expected => exact frame_updateResource clk record expected i
  | removeResource id expected => exact frame_removeResource clk id expected i
  | registerDependency edge => exact frame_registerDependency clk edge i
  | removeDependency id expected => exact frame_removeDependency clk id expected i
  | setPolicy policy => exact frame_setPolicy clk policy i
  | publishResourceEvidence id expected freshness sequence mechanism source =>
    exact frame_publishResourceEvidence clk id expected freshness sequence mechanism source i
  | registerWorker worker boot endpoint sequence => exact frame_registerWorker clk worker boot endpoint sequence i
  | retireWorker worker boot reason => exact frame_retireWorker clk worker boot reason i
  | beginEpoch nowMs reason => exact frame_beginEpoch clk nowMs reason i
  | publishFault evidence => exact frame_publishFault clk evidence i
  | supersedeFault id expected reason => exact frame_supersedeFault clk id expected reason i
  | authorizeContainment id expected => exact frame_authorizeContainment clk id expected i
  | dispatchBegin generation executorAttached => exact frame_dispatchBegin clk generation executorAttached i
  | dispatchEnd attempts summary => exact frame_dispatchEnd clk attempts summary i
  | recordActionAck ack => exact frame_recordActionAck clk ack i
  | recordActionResult result => exact frame_recordActionResult clk result i
  | verifyContainment generation => exact frame_verifyContainment clk generation i
  | authorizeDegradedMode contract => exact frame_authorizeDegradedMode clk contract i
  | revalidateDegradedMode id => exact frame_revalidateDegradedMode clk id i
  | authorizeRelease request => exact frame_authorizeRelease clk request i
  | authorityLost worker boot detail time => exact frame_authorityLost clk worker boot detail time i
  | noteAuthorityLoss key fault => exact (Frame.refl _ i).withLosses (by simp [Op.parts]) _
  | requestShutdown =>
    show Frame _ i (requestShutdown clk i).impl
    unfold requestShutdown
    split
    · exact .refl _ i
    · exact ((Frame.refl _ i).volatile _ _ _ _).addHistory _ _
  | persistenceFault error => exact ((Frame.refl _ i).volatile _ _ _ _).addHistory _ _

end FaultContainment.Engine
