/-
What the stamps stand for.

An action carries the stamps of the state it was planned in: topology generation, policy generation, coordinator epoch, and
the generation of its fault. An operation that edits the topology advances its generation, apart from the edits that come
with a registration, a retirement or a loss of authority, which are stamped by nothing. A fault only ages.

- `still_after`: an operation that advances no stamp changes nothing an action was planned against, except for incarnations.
- `ages_after`: no fault becomes younger, or current again; `revises_after`: only a commitment gives it a containment.
-/
import FaultContainment.Dispatching.Reports

namespace FaultContainment.Dispatching

open FaultContainment.Lib FaultContainment.Ids FaultContainment.Enums FaultContainment.Records
open FaultContainment.DurableEvent FaultContainment.Engine

/-! ## Topology and its generation -/

theorem nextGeneration_mono {t : IdTag} {a b : Id t} (h : a ≤ b) : nextGeneration a ≤ nextGeneration b := by
  have hb : b.value.toNat < 2 ^ 64 := b.value.toNat_lt
  rw [Id.le_iff] at h ⊢
  by_cases hbm : b.value.toNat = 2 ^ 64 - 1
  · have ha : (nextGeneration a).value.toNat < 2 ^ 64 := (nextGeneration a).value.toNat_lt
    have hself : nextGeneration b = b := by
      unfold nextGeneration
      rw [if_pos hbm]
    rw [hself]
    omega
  · rw [nextGeneration_toNat b hbm]
    by_cases ham : a.value.toNat = 2 ^ 64 - 1
    · omega
    · rw [nextGeneration_toNat a ham]
      omega

theorem lt_nextGeneration {t : IdTag} {a : Id t} (h : a.value.toNat ≠ 2 ^ 64 - 1) : a < nextGeneration a := by
  rw [Id.lt_iff, nextGeneration_toNat a h]
  omega

/-- the topology generation went up -/
def Bumped (i j : Impl) : Prop := nextGeneration i.state.topologyGeneration ≤ j.state.topologyGeneration

/-- the topology is as it was, or its generation went up -/
def Stamped (i j : Impl) : Prop := j.state.topology = i.state.topology ∨ Bumped i j

theorem Stamped.refl (i : Impl) : Stamped i i := .inl rfl

theorem bumped_advance {S : List Part} {i j : Impl} (h : Frame S i j) : Bumped i j.advanceTopology :=
  nextGeneration_mono h.topologyGeneration_le

theorem Bumped.commit {i j : Impl} (h : Bumped i j) {α : Type} (time : UInt64) (entry : HistoryEvent)
    (before : List DurableEvent.Event) (event : Option HistoryEvent → DurableEvent.Event)
    (after : List DurableEvent.Event) (a : α) : Bumped i (Engine.commit j time entry before event after a).impl := h

theorem stamped_register {t : IdTag} {D : Type} (g : Grouping t D) (normalize : D → D) (clk : Clock) (domain : D)
    (i : Impl) : Stamped i (g.register normalize clk domain i).impl := by
  unfold Grouping.register
  split
  · exact .refl i
  split
  · exact .refl i
  · exact .inr le_rfl

theorem stamped_unregister {t : IdTag} {D : Type} (g : Grouping t D) (notFound advanced : String) (clk : Clock)
    (id : Id t) (expected : TopologyGeneration) (i : Impl) :
    Stamped i (g.unregister notFound advanced clk id expected i).impl := by
  unfold Grouping.unregister
  split
  · exact .refl i
  · dsimp only
    split_ifs
    · exact .refl i
    · exact .inr le_rfl

theorem stamped_registerDomain (clk : Clock) (domain : ContainmentDomain) (i : Impl) :
    Stamped i (registerDomain clk domain i).impl := by
  unfold registerDomain
  split
  · exact .refl i
  split
  · exact .refl i
  · dsimp only
    split
    · exact .inr le_rfl
    · exact .inr le_rfl

theorem stamped_updateDomain (clk : Clock) (domain : ContainmentDomain) (expected : TopologyGeneration) (i : Impl) :
    Stamped i (updateDomain clk domain expected i).impl := by
  unfold updateDomain
  split
  · exact .refl i
  · exact .inr le_rfl

theorem bumped_registerResource (clk : Clock) (record : ResourceRecord) (i : Impl) :
    (registerResource clk record i).impl = i ∨ Bumped i (registerResource clk record i).impl := by
  unfold registerResource
  split
  · exact .inl rfl
  · dsimp only
    have hframe : ∀ j, Frame [.workers, .topology] i.advanceTopology j → Bumped i j := fun _ h => h.topologyGeneration_le
    refine .inr (hframe _ (Frame.commit (Frame.withResources (Frame.edit (Frame.edit (Frame.edit ?_ (by simp) _ _)
      (by simp) _ _) (by simp) _ _) (by simp) _) _ _ _ _ _ _))
    split
    · exact (Frame.refl _ _).withIncarnations (by simp) _
    · exact .refl _ _

theorem stamped_updateResource (clk : Clock) (record : ResourceRecord) (expected : ResourceGeneration) (i : Impl) :
    Stamped i (updateResource clk record expected i).impl := by
  unfold updateResource
  split
  · exact .refl i
  · exact .inr le_rfl

theorem stamped_removeResource (clk : Clock) (id : ResourceId) (expected : ResourceGeneration) (i : Impl) :
    Stamped i (removeResource clk id expected i).impl := by
  unfold removeResource
  split
  · exact .refl i
  · split_ifs
    · exact .refl i
    · exact .inr (Bumped.commit (bumped_advance (S := [.topology]) (((((Frame.refl _ i).withTopology (by simp) _).edit
        (by simp) _ _).edit (by simp) _ _).edit (by simp) _ _ |>.withResources (by simp) _)) _ _ _ _ _ _)

theorem stamped_registerDependency (clk : Clock) (edge : DependencyEdge) (i : Impl) :
    Stamped i (registerDependency clk edge i).impl := by
  unfold registerDependency
  split
  · exact .refl i
  · exact .inr le_rfl

theorem stamped_removeDependency (clk : Clock) (id : DependencyId) (expected : DependencyGeneration) (i : Impl) :
    Stamped i (removeDependency clk id expected i).impl := by
  unfold removeDependency
  split
  · exact .refl i
  · split_ifs
    · exact .refl i
    · exact .inr le_rfl

theorem stamped_publishResourceEvidence (clk : Clock) (id : ResourceId) (expected : ResourceGeneration)
    (freshness : EvidenceFreshness) (sequence : EvidenceSequence) (mechanism : ContainmentMechanism) (source : Text)
    (i : Impl) : Stamped i (publishResourceEvidence clk id expected freshness sequence mechanism source i).impl := by
  unfold publishResourceEvidence
  split
  · exact .refl i
  · exact .inr le_rfl

/-- the loop that edits resources stamps each edit -/
theorem stamped_editEach (f : ResourceRecord → Option ResourceRecord) (ks : List ResourceId) {i j : Impl}
    (h : Stamped i j) (hle : i.state.topologyGeneration ≤ j.state.topologyGeneration) :
    Stamped i (editEach f ks j).1 := by
  induction ks generalizing j with
  | nil => exact h
  | cons k ks ih =>
    unfold editEach
    split
    · exact ih h hle
    · refine ih (.inr ?_) (hle.trans (nextGeneration_le _))
      exact nextGeneration_mono hle

/-- an edit that takes effect advances the generation -/
theorem bumped_editEach (f : ResourceRecord → Option ResourceRecord) (ks : List ResourceId) {k : ResourceId}
    (hk : k ∈ ks) {i : Impl} {r : ResourceRecord} (hr : i.state.topology.resources.find k = some r)
    (hf : ∀ r, (f r).isSome = true) : Bumped i (editEach f ks i).1 := by
  induction ks generalizing i r with
  | nil => simp at hk
  | cons k' ks ih =>
    unfold editEach
    split
    · next hnone =>
      rcases List.mem_cons.mp hk with rfl | hk
      · rw [hr, Option.bind_some] at hnone
        have hsome := hf r
        rw [hnone] at hsome
        simp at hsome
      · exact ih hk hr
    · next r' _ =>
      exact (Frame.editEach (S := topologyParts) (by simp) (by simp) f ks
        (.refl _ (i.withResources (i.state.topology.resources.insert k' r')).advanceTopology)).topologyGeneration_le

theorem stamped_authorizeContainment (clk : Clock) (id : FaultId) (expected : FaultGeneration) (i : Impl) :
    Stamped i (authorizeContainment clk id expected i).impl := by
  unfold authorizeContainment
  split
  · exact .refl i
  split
  · exact .refl i
  · next fault _ _ radius _ =>
    have hfault : Stamped i (i.withFaults (i.state.faults.insert id { fault with
        state := .containmentInProgress, containmentGeneration := radius.generation, lastUpdatedMs := clk 0 })) := .inl rfl
    have hfenced := stamped_editEach (fun r => some (fence (clk 0) i.state.workers radius.generation
      (outcomeQuarantines radius.recommended) r)) radius.mandatory hfault le_rfl
    have hle := (Frame.editEach (S := topologyParts) (by simp) (by simp) (fun r => some (fence (clk 0) i.state.workers
      radius.generation (outcomeQuarantines radius.recommended) r)) radius.mandatory
      (.refl _ (i.withFaults (i.state.faults.insert id { fault with
        state := .containmentInProgress, containmentGeneration := radius.generation
        lastUpdatedMs := clk 0 })))).topologyGeneration_le
    have hdrained := stamped_editEach (drain (clk 0)) radius.precautionary hfenced hle
    have hplanned := fun budget => Frame.planActions (S := [.actions]) (by simp) (clk 0) budget
      (newContainment (clk 0) id fault radius i) radius.mandatory [] (.refl _ (editEach (drain (clk 0))
        radius.precautionary (editEach (fun r => some (fence (clk 0) i.state.workers radius.generation
          (outcomeQuarantines radius.recommended) r)) radius.mandatory (i.withFaults (i.state.faults.insert id { fault with
            state := .containmentInProgress, containmentGeneration := radius.generation
            lastUpdatedMs := clk 0 }))).1).1)
    unfold commitContainment
    rcases hdrained with h | h
    · exact .inl (((hplanned _).topology (by simp)).trans h)
    · exact .inr (le_of_le_of_eq h ((hplanned _).topologyGeneration (by simp)).symm)

theorem stamped_recordActionResult (clk : Clock) (result : ActionResult) (i : Impl) :
    Stamped i (recordActionResult clk result i).impl := by
  unfold recordActionResult
  split
  · exact .refl i
  split
  · exact .refl i
  split
  · exact .refl i
  · dsimp only
    cases result.success with
    | false => exact .inl rfl
    | true => exact stamped_editEach _ _ (.inl rfl : Stamped i (i.withActions _)) le_rfl

theorem stamped_authorizeRelease (clk : Clock) (request : ReleaseRequest) (i : Impl) :
    Stamped i (authorizeRelease clk request i).impl := by
  unfold authorizeRelease
  dsimp only
  split
  · exact .inl rfl
  · split
    · exact .inl rfl
    · unfold grantRelease
      refine .inr (Bumped.commit ?_ _ _ _ _ _ _)
      have hoff : ∀ g j, Bumped i j → Bumped i (takeOffContainment clk g request.resource j).1 := fun g j h =>
        h.trans (frame_takeOffContainment (S := [.containments, .faults]) (by simp) (by simp) clk g request.resource
          (.refl _ j)).topologyGeneration_le
      exact hoff _ _ (le_refl (nextGeneration i.state.topologyGeneration))

/-! ## Incarnations -/

/-- what is watched of an incarnation: that it is registered, and whether it holds live authority -/
def watch (key : WorkerKey) (i : Impl) : Option (Bool × CoordinatorEpoch × WorkerIncarnation) :=
  (i.state.workers.incarnations.find key).map fun w => (holdsLiveAuthority w.state, w.registeredEpoch, w.incarnation)

/-- the incarnation holds live authority -/
def isLive (key : WorkerKey) (i : Impl) : Prop :=
  ∃ w, i.state.workers.incarnations.find key = some w ∧ holdsLiveAuthority w.state = true

/-- a registration is admitted -/
def admitsRegistration (key : WorkerKey) (i : Impl) : Prop :=
  key.worker.valid ∧ key.boot.valid ∧ i.state.workers.incarnations.size < i.config.maxWorkers

/-- a registration of this boot is a fresh one -/
def registersFresh (key : WorkerKey) (i : Impl) : Prop :=
  admitsRegistration key i ∧ ∀ w, i.state.workers.incarnations.find key = some w → ¬ w.registeredEpoch.valid

/-- a registration of this boot readmits a suspended incarnation -/
def reattaches (key : WorkerKey) (endpoint : Text) (i : Impl) : Prop :=
  admitsRegistration key i ∧ ∃ w, i.state.workers.incarnations.find key = some w ∧ w.endpoint = endpoint ∧
    w.registeredEpoch.valid ∧ w.state = .suspect ∧ w.registeredEpoch ≠ i.state.epoch

/-- a loss of authority is about an incarnation that no resource is bound to, and none was reported for it yet -/
def losesUnbound (key : WorkerKey) (i : Impl) : Prop :=
  i.state.workers.currentBoot.find key.worker = some key.boot ∧ knownLoss key i = none ∧
    ¬ (lossSubject (ownedBy key.boot i.state.topology.resources)).valid

/-- a fresh boot of this worker would revoke the watched incarnation, or one that resources are bound to -/
def revokes (key : WorkerKey) (worker : WorkerId) (boot : WorkerBootId) (i : Impl) : Prop :=
  ∃ current previous, i.state.workers.currentBoot.find worker = some current ∧ current ≠ boot ∧
    i.state.workers.incarnations.find ⟨worker, current⟩ = some previous ∧
    (key = ⟨worker, current⟩ ∨ previous.liveAuthority ≠ [])

/-- the operation changes the watched incarnation, or resources bound to another one, and advances no stamp -/
def ChangesIncarnations (key : WorkerKey) (op : Op) (i : Impl) : Prop :=
  match op with
  | .registerWorker worker boot endpoint _ =>
    registersFresh ⟨worker, boot⟩ i ∧ (key = ⟨worker, boot⟩ ∨ revokes key worker boot i) ∨
      reattaches ⟨worker, boot⟩ endpoint i ∧ key = ⟨worker, boot⟩
  | .retireWorker worker boot _ => key = ⟨worker, boot⟩ ∧ isLive key i
  | .authorityLost worker boot _ _ => key = ⟨worker, boot⟩ ∧ isLive key i ∧ losesUnbound key i
  | _ => False

/-- neither the topology nor the watched incarnation changed -/
def Still (key : WorkerKey) (i j : Impl) : Prop := j.state.topology = i.state.topology ∧ watch key j = watch key i

theorem Still.refl (key : WorkerKey) (i : Impl) : Still key i i := ⟨rfl, rfl⟩

theorem watch_insert {key k : WorkerKey} (i : Impl) (w : WorkerRecord) (h : k ≠ key) :
    watch key (i.withIncarnations (i.state.workers.incarnations.insert k w)) = watch key i :=
  congrArg (Option.map _) (OrderedMap.find_insert_ne _ _ h)

theorem still_registerFresh (clk : Clock) {key : WorkerKey} {worker : WorkerId} {boot : WorkerBootId} (endpoint : Text)
    (sequence : EvidenceSequence) {i : Impl} (hkey : key ≠ ⟨worker, boot⟩) (hr : ¬ revokes key worker boot i) :
    Still key i (registerFresh clk worker boot endpoint sequence i).impl := by
  have hrevoked : Still key i (revokePrevious clk worker boot i).1 := by
    unfold revokePrevious
    split
    · exact .refl key i
    · next current hcurrent =>
      split_ifs with hsame
      · exact .refl key i
      · split
        · exact .refl key i
        · next previous hprevious =>
          have hother : key ≠ ⟨worker, current⟩ := fun hk => hr ⟨current, previous, hcurrent, hsame, hprevious, .inl hk⟩
          have hunbound : previous.liveAuthority = [] := by
            by_contra hne
            exact hr ⟨current, previous, hcurrent, hsame, hprevious, .inr hne⟩
          refine ⟨?_, watch_insert i _ hother.symm⟩
          rw [hunbound]
          rfl
  unfold registerFresh
  refine ⟨hrevoked.1, Eq.trans ?_ hrevoked.2⟩
  exact watch_insert (revokePrevious clk worker boot i).1 _ hkey.symm

theorem still_registerWorker (clk : Clock) {key : WorkerKey} {worker : WorkerId} {boot : WorkerBootId} {endpoint : Text}
    {sequence : EvidenceSequence} {i : Impl}
    (h : ¬ ChangesIncarnations key (.registerWorker worker boot endpoint sequence) i) :
    Still key i (registerWorker clk worker boot endpoint sequence i).impl := by
  obtain ⟨hfresh, hreattach⟩ := not_or.mp h
  unfold registerWorker
  split
  · exact .refl key i
  next hvalid =>
  split
  · exact .refl key i
  next hroom =>
  have hadmits : admitsRegistration ⟨worker, boot⟩ i := by
    obtain ⟨hw, hb⟩ := not_or.mp hvalid
    exact ⟨not_not.mp hw, not_not.mp hb, Nat.lt_of_not_le hroom⟩
  split
  · next hnone =>
    obtain ⟨hkey, hr⟩ := not_or.mp fun hc => hfresh ⟨⟨hadmits, fun w hw => by rw [hnone] at hw; simp at hw⟩, hc⟩
    exact still_registerFresh clk endpoint sequence hkey hr
  · next existing hexisting =>
    split
    · next hplaceholder =>
      obtain ⟨hkey, hr⟩ := not_or.mp fun hc => hfresh
        ⟨⟨hadmits, fun w hw => by rwa [← Option.some.inj (hexisting.symm.trans hw)]⟩, hc⟩
      have herased : Still key i (i.withIncarnations (i.state.workers.incarnations.erase ⟨worker, boot⟩)) :=
        ⟨rfl, congrArg (Option.map _) ((OrderedMap.find_erase _ _ _).trans (if_neg fun h => hkey h.symm))⟩
      have hr' : ¬ revokes key worker boot (i.withIncarnations (i.state.workers.incarnations.erase ⟨worker, boot⟩)) := by
        rintro ⟨current, previous, hcurrent, hsame, hprevious, hc⟩
        have hprevious : (i.state.workers.incarnations.erase ⟨worker, boot⟩).find ⟨worker, current⟩ = some previous :=
          hprevious
        rw [OrderedMap.find_erase] at hprevious
        split_ifs at hprevious
        exact hr ⟨current, previous, hcurrent, hsame, hprevious, hc⟩
      have hstill := still_registerFresh clk endpoint sequence hkey hr'
      exact ⟨hstill.1.trans herased.1, hstill.2.trans herased.2⟩
    next hregistered =>
    split
    · exact .refl key i
    next hendpoint =>
    split
    · next hsuspect =>
      have hkey : key ≠ ⟨worker, boot⟩ := fun hk => hreattach
        ⟨⟨hadmits, existing, hexisting, not_not.mp hendpoint, not_not.mp hregistered, hsuspect⟩, hk⟩
      exact ⟨rfl, watch_insert i _ hkey.symm⟩
    · exact .refl key i

theorem still_retireWorker (clk : Clock) {key : WorkerKey} {worker : WorkerId} {boot : WorkerBootId} {reason : Text}
    {i : Impl} (h : ¬ ChangesIncarnations key (.retireWorker worker boot reason) i) :
    Still key i (retireWorker clk worker boot reason i).impl := by
  unfold retireWorker
  split
  · exact .refl key i
  · next w hw =>
    split
    · exact .refl key i
    · refine ⟨rfl, ?_⟩
      by_cases hkey : key = ⟨worker, boot⟩
      · have hdead : holdsLiveAuthority w.state = false := by
          by_contra hne
          exact h ⟨hkey, w, hkey ▸ hw, Bool.eq_true_of_not_eq_false hne⟩
        subst hkey
        refine (congrArg (Option.map _) (OrderedMap.find_insert_self _ _ _)).trans ?_
        unfold watch
        rw [hw, Option.map_some, Option.map_some, hdead]
        rfl
      · exact watch_insert i _ (Ne.symm hkey)

/-- a loss that is admitted is about the current incarnation of its worker -/
theorem admitLoss_ok {worker : WorkerId} {boot : WorkerBootId} {i : Impl} {w : WorkerRecord}
    (h : admitLoss worker boot i = .ok w) : i.state.workers.incarnations.find ⟨worker, boot⟩ = some w ∧
      i.state.workers.currentBoot.find worker = some boot := by
  unfold admitLoss at h
  split at h
  · simp at h
  · next w' hw =>
    split_ifs at h with hcurrent
    rw [hw, Except.ok.inj h]
    exact ⟨rfl, hcurrent⟩

/-- a fault has a subject only if a resource is owned by the boot -/
theorem owned_of_lossSubject {boot : WorkerBootId} {m : OrderedMap ResourceId ResourceRecord}
    (h : (lossSubject (ownedBy boot m)).valid = true) :
    ∃ k r, k ∈ (ownedBy boot m).map Prod.fst ∧ m.find k = some r := by
  cases howned : ownedBy boot m with
  | nil =>
    rw [howned] at h
    exact absurd h (by decide)
  | cons e owned =>
    have he : e ∈ ownedBy boot m := howned ▸ List.mem_cons_self
    exact ⟨e.1, e.2, List.mem_cons_self, (OrderedMap.mem_toList m e.1 e.2).mp (List.mem_of_mem_filter he)⟩

theorem still_authorityLost (clk : Clock) {key : WorkerKey} {worker : WorkerId} {boot : WorkerBootId} {detail : Text}
    {time : UInt64} {i : Impl} (h : ¬ ChangesIncarnations key (.authorityLost worker boot detail time) i) :
    Still key i (authorityLost clk worker boot detail time i).impl ∨
      Bumped i (authorityLost clk worker boot detail time i).impl := by
  unfold authorityLost
  split
  · exact .inl (.refl key i)
  · next w hw =>
    split
    · exact .inl (.refl key i)
    · next hknown =>
      dsimp only
      rw [Impl.withIncarnations_topology]
      by_cases hsubject : ¬ (lossSubject (ownedBy boot i.state.topology.resources)).valid = true
      · rw [if_pos hsubject]
        refine .inl ⟨rfl, ?_⟩
        by_cases hkey : key = ⟨worker, boot⟩
        · subst hkey
          obtain ⟨hfound, hcurrent⟩ := admitLoss_ok hw
          have hdead : holdsLiveAuthority w.state = false := by
            by_contra hne
            exact h ⟨rfl, ⟨w, hfound, Bool.eq_true_of_not_eq_false hne⟩, hcurrent, hknown, hsubject⟩
          refine (congrArg (Option.map _) (OrderedMap.find_insert_self _ _ _)).trans ?_
          unfold watch
          rw [hfound, Option.map_some, Option.map_some, hdead]
          rfl
        · exact watch_insert i _ (Ne.symm hkey)
      · rw [if_neg hsubject]
        obtain ⟨k, r, hk, hr⟩ := owned_of_lossSubject (not_not.mp hsubject)
        have hedited : ∀ m, Bumped i (editEach (fun r => some (fenceLost (clk 1) r))
            ((ownedBy boot i.state.topology.resources).map Prod.fst) (i.withIncarnations m)).1 := fun m =>
          bumped_editEach _ _ hk (i := i.withIncarnations m) hr fun _ => rfl
        refine .inr (Bumped.commit ?_ _ _ _ _ _ _)
        exact hedited _

/-! ## Operations that advance no stamp -/

/-- no generation has reached the last value of its type, where it would stay -/
structure Unsaturated (i : Impl) : Prop where
  topology : i.state.topologyGeneration.value.toNat ≠ 2 ^ 64 - 1
  policy : i.state.policyGeneration.value.toNat ≠ 2 ^ 64 - 1
  epoch : i.state.epoch.value.toNat ≠ 2 ^ 64 - 1
  containment : i.state.containmentGeneration.value.toNat ≠ 2 ^ 64 - 1

/-- the stamps revalidation compares with the state are the same -/
structure SameStamps (i j : Impl) : Prop where
  topology : j.state.topologyGeneration = i.state.topologyGeneration
  policy : j.state.policyGeneration = i.state.policyGeneration
  epoch : j.state.epoch = i.state.epoch

theorem Stamped.still {i j : Impl} (h : Stamped i j) (hn : ¬ Bumped i j) (hw : j.state.workers = i.state.workers)
    (key : WorkerKey) : Still key i j := by
  rcases h with h | h
  · exact ⟨h, by unfold watch; rw [hw]⟩
  · exact absurd h hn

/-- **Step.** An operation that advances no stamp, and changes no incarnation, leaves topology, policy and the watched
incarnation as they were. -/
theorem still_after (c : Call) {key : WorkerKey} {i : Impl} (hroom : Unsaturated i)
    (hc : ¬ ChangesIncarnations key c.op i) (h : SameStamps i (c.after i)) :
    Still key i (c.after i) ∧ (c.after i).state.policy = i.state.policy := by
  have hn : ¬ Bumped i (c.after i) := fun hb =>
    absurd (lt_of_lt_of_le (lt_nextGeneration hroom.topology) (hb.trans_eq h.topology)) (lt_irrefl _)
  have hframe := frame_run c i
  obtain ⟨clk, op⟩ := c
  cases op
  case setPolicy policy =>
    have hsame : (⟨clk, .setPolicy policy⟩ : Call).after i = i := by
      have hp := h.policy
      revert hp
      show (setPolicy clk policy i).impl.state.policyGeneration = _ → (setPolicy clk policy i).impl = i
      unfold setPolicy
      split
      · exact fun _ => rfl
      · exact fun hp => absurd (lt_of_lt_of_eq (lt_nextGeneration hroom.policy) hp) (lt_irrefl _)
    rw [hsame]
    exact ⟨.refl key i, rfl⟩
  case beginEpoch nowMs reason =>
    exact absurd (lt_of_lt_of_eq (lt_nextGeneration hroom.epoch) h.epoch) (lt_irrefl _)
  all_goals refine ⟨?_, hframe.policy (by simp [Op.parts])⟩
  case registerResource record =>
    rcases bumped_registerResource clk record i with hsame | hb
    · exact ⟨congrArg (·.state.topology) hsame, congrArg (watch key) hsame⟩
    · exact absurd hb hn
  case registerWorker worker boot endpoint sequence => exact still_registerWorker clk hc
  case retireWorker worker boot reason => exact still_retireWorker clk hc
  case authorityLost worker boot detail time => exact (still_authorityLost clk hc).resolve_right hn
  all_goals refine Stamped.still ?_ hn (hframe.workers (by simp [Op.parts])) key
  case registerDomain domain => exact stamped_registerDomain clk domain i
  case updateDomain domain expected => exact stamped_updateDomain clk domain expected i
  case removeDomain id expected => exact stamped_unregister _ _ _ clk id expected i
  case registerIsolationDomain domain => exact stamped_register _ _ clk domain i
  case removeIsolationDomain id expected => exact stamped_unregister _ _ _ clk id expected i
  case registerFailureDomain domain => exact stamped_register _ _ clk domain i
  case removeFailureDomain id expected => exact stamped_unregister _ _ _ clk id expected i
  case updateResource record expected => exact stamped_updateResource clk record expected i
  case removeResource id expected => exact stamped_removeResource clk id expected i
  case registerDependency edge => exact stamped_registerDependency clk edge i
  case removeDependency id expected => exact stamped_removeDependency clk id expected i
  case publishResourceEvidence => exact stamped_publishResourceEvidence clk _ _ _ _ _ _ i
  case authorizeContainment id expected => exact stamped_authorizeContainment clk id expected i
  case recordActionResult result => exact stamped_recordActionResult clk result i
  case authorizeRelease request => exact stamped_authorizeRelease clk request i
  all_goals exact .inl (hframe.topology (by simp [Op.parts]))

/-! ## Faults -/

/-- a fault record has aged: its generation did not go back, and it is current only if it was -/
def Older (f f' : FaultRecord) : Prop :=
  f.evidence.generation ≤ f'.evidence.generation ∧ (isFaultCurrent f'.state = true → isFaultCurrent f.state = true)

/-- every fault has aged -/
def Ages (i j : Impl) : Prop :=
  ∀ id f, i.state.faults.find id = some f → ∃ f', j.state.faults.find id = some f' ∧ Older f f'

theorem Older.refl (f : FaultRecord) : Older f f := ⟨le_rfl, id⟩

theorem Ages.trans {i j k : Impl} (h : Ages i j) (h' : Ages j k) : Ages i k := by
  intro id f hf
  obtain ⟨f', hf', hgen, hcurrent⟩ := h id f hf
  obtain ⟨f'', hf'', hgen', hcurrent'⟩ := h' id f' hf'
  exact ⟨f'', hf'', hgen.trans hgen', hcurrent ∘ hcurrent'⟩

theorem Ages.of_eq {i j : Impl} (h : j.state.faults = i.state.faults) : Ages i j :=
  fun _ f hf => ⟨f, h ▸ hf, .refl f⟩

/-- a fault record has aged, and still names the same containment -/
def Revised (f f' : FaultRecord) : Prop := Older f f' ∧ f'.containmentGeneration = f.containmentGeneration

/-- every fault is revised -/
def Revises (i j : Impl) : Prop :=
  ∀ id f, i.state.faults.find id = some f → ∃ f', j.state.faults.find id = some f' ∧ Revised f f'

theorem Revises.ages {i j : Impl} (h : Revises i j) : Ages i j := by
  intro id f hf
  obtain ⟨f', hf', holder, -⟩ := h id f hf
  exact ⟨f', hf', holder⟩

theorem Revises.trans {i j k : Impl} (h : Revises i j) (h' : Revises j k) : Revises i k := by
  intro id f hf
  obtain ⟨f', hf', ⟨hgen, hcurrent⟩, hsame⟩ := h id f hf
  obtain ⟨f'', hf'', ⟨hgen', hcurrent'⟩, hsame'⟩ := h' id f' hf'
  exact ⟨f'', hf'', ⟨hgen.trans hgen', hcurrent ∘ hcurrent'⟩, hsame'.trans hsame⟩

theorem Revises.of_eq {i j : Impl} (h : j.state.faults = i.state.faults) : Revises i j :=
  fun _ f hf => ⟨f, h ▸ hf, .refl f, rfl⟩

/-- one fault stored -/
theorem Ages.insert {i j : Impl} {id : FaultId} {f' : FaultRecord}
    (h : ∀ f, i.state.faults.find id = some f → Older f f') (hj : j.state.faults = i.state.faults.insert id f') :
    Ages i j := by
  intro k f hf
  rw [hj]
  by_cases hk : id = k
  · subst hk
    exact ⟨f', OrderedMap.find_insert_self _ _ _, h f hf⟩
  · exact ⟨f, (OrderedMap.find_insert_ne _ _ hk).trans hf, .refl f⟩

theorem Revises.insert {i j : Impl} {id : FaultId} {f' : FaultRecord}
    (h : ∀ f, i.state.faults.find id = some f → Revised f f') (hj : j.state.faults = i.state.faults.insert id f') :
    Revises i j := by
  intro k f hf
  rw [hj]
  by_cases hk : id = k
  · subst hk
    exact ⟨f', OrderedMap.find_insert_self _ _ _, h f hf⟩
  · exact ⟨f, (OrderedMap.find_insert_ne _ _ hk).trans hf, .refl f, rfl⟩

/-- a cleared or superseded fault is not current again -/
theorem isFaultCurrent_of_legal {st st' : FaultState} (h : isLegalFaultTransition st st' = true)
    (hc : isFaultCurrent st' = true) : isFaultCurrent st = true := by
  cases st
  case cleared => cases st' <;> first | exact absurd h (by decide) | exact absurd hc (by decide)
  case superseded => cases st' <;> first | exact absurd h (by decide) | exact absurd hc (by decide)
  all_goals rfl

theorem revised_settleFault {time : UInt64} {v : ContainmentVerification} {f f' : FaultRecord}
    (h : settleFault time v f = some f') : Revised f f' := by
  unfold settleFault at h
  split_ifs at h with hlegal
  rw [← Option.some.inj h]
  exact ⟨⟨le_rfl, isFaultCurrent_of_legal hlegal⟩, rfl⟩

theorem revised_clearFault {time : UInt64} {f f' : FaultRecord} (h : clearFault time f = some f') : Revised f f' := by
  unfold clearFault at h
  split_ifs at h with hlegal
  rw [← Option.some.inj h]
  exact ⟨⟨le_rfl, isFaultCurrent_of_legal hlegal⟩, rfl⟩

/-- a fault edited in place and stored again -/
theorem revises_stageFault (edit : FaultRecord → Option FaultRecord) (hedit : ∀ f f', edit f = some f' → Revised f f')
    (id : FaultId) {i j : Impl} (h : Revises i j) : Revises i (stageFault id ((j.state.faults.find id).bind edit) j).1 := by
  cases hf : (j.state.faults.find id).bind edit with
  | none => exact h
  | some f' =>
    refine h.trans (.insert (fun f hfind => ?_) rfl)
    rw [hfind] at hf
    exact hedit f f' hf

theorem revises_publishFault (clk : Clock) (evidence : FaultEvidence) (i : Impl) :
    Revises i (publishFault clk evidence i).impl := by
  have hallocated : (allocateFault evidence i).state.faults = i.state.faults := by
    unfold allocateFault
    split <;> rfl
  unfold publishFault
  split
  · exact .of_eq rfl
  split
  · exact .of_eq rfl
  dsimp only
  split
  · exact .of_eq hallocated
  split
  · next id _ =>
    refine (Revises.of_eq hallocated).trans (.insert (fun f hf => ?_) rfl)
    rw [hf]
    exact ⟨⟨le_rfl, fun h => h⟩, rfl⟩
  · split
    · exact .of_eq hallocated
    · next hadmitted =>
      have hnew : (allocateFault evidence i).state.faults.find (normalizeEvidence evidence i).id = none := by
        unfold admitFault at hadmitted
        split_ifs at hadmitted with hhas
        exact (OrderedMap.has_eq_false _ _).mp (Bool.eq_false_of_not_eq_true hhas)
      refine (Revises.of_eq hallocated).trans (.insert (fun f hf => ?_) (OrderedMap.emplace_new _ _ hnew))
      rw [hnew] at hf
      simp at hf

theorem revises_supersedeFault (clk : Clock) (id : FaultId) (expected : FaultGeneration) (reason : Text) (i : Impl) :
    Revises i (supersedeFault clk id expected reason i).impl := by
  unfold supersedeFault
  split
  · exact .of_eq rfl
  · next f hf =>
    refine .insert (fun f' hf' => ?_) rfl
    have hfound : i.state.faults.find id = some f := by
      unfold admitSupersede at hf
      split at hf
      · simp at hf
      · next g hg =>
        split_ifs at hf
        rw [hg, Except.ok.inj hf]
    obtain rfl := Option.some.inj (hfound.symm.trans hf')
    exact ⟨⟨nextGeneration_le _, fun h => absurd h (by simp [isFaultCurrent])⟩, rfl⟩

/-- a containment is admitted for the current fault that is stored -/
theorem admitContainment_ok {id : FaultId} {expected : FaultGeneration} {i : Impl} {f : FaultRecord}
    (h : admitContainment id expected i = .ok f) :
    i.state.faults.find id = some f ∧ isFaultCurrent f.state = true := by
  unfold admitContainment at h
  split at h
  · simp at h
  · next g hg =>
    split_ifs at h with _ hcurrent
    rw [hg, ← Except.ok.inj h]
    exact ⟨rfl, hcurrent⟩

/-- a commitment stores its fault as in progress, and no other -/
theorem commitContainment_faults (clk : Clock) (id : FaultId) (fault : FaultRecord) (radius : Records.BlastRadius)
    (i : Impl) : (commitContainment clk id fault radius i).impl.state.faults = i.state.faults.insert id { fault with
      state := .containmentInProgress, containmentGeneration := radius.generation, lastUpdatedMs := clk 0 } := by
  have hfenced := fun f => Frame.editEach (S := topologyParts) (by simp) (by simp) f radius.mandatory
    (.refl _ (i.withFaults (i.state.faults.insert id { fault with
      state := .containmentInProgress, containmentGeneration := radius.generation, lastUpdatedMs := clk 0 })))
  have hplanned := fun f budget record => Frame.planActions (S := .actions :: topologyParts) (by simp) (clk 0) budget
    record radius.mandatory [] ((Frame.editEach (by simp) (by simp) (drain (clk 0)) radius.precautionary (hfenced f)).mono
      (by simp))
  unfold commitContainment
  exact (hplanned _ _ _).faults (by simp)

theorem ages_authorizeContainment (clk : Clock) (id : FaultId) (expected : FaultGeneration) (i : Impl) :
    Ages i (authorizeContainment clk id expected i).impl := by
  unfold authorizeContainment
  split
  · exact .of_eq rfl
  split
  · exact .of_eq rfl
  · next f hf _ radius _ =>
    obtain ⟨hfound, hcurrent⟩ := admitContainment_ok hf
    refine .insert (fun g hg => ?_) (commitContainment_faults clk id f radius i)
    obtain rfl := Option.some.inj (hfound.symm.trans hg)
    exact ⟨le_rfl, fun _ => hcurrent⟩

theorem revises_takeOffContainment (clk : Clock) (generation : ContainmentGeneration) (id : ResourceId) {i j : Impl}
    (h : Revises i j) : Revises i (takeOffContainment clk generation id j).1 := by
  unfold takeOffContainment
  split
  · exact h
  · next c _ =>
    have hstored : Revises i (j.withContainments (j.state.containments.insert generation (takeOff (clk 2) id c))) := h
    dsimp only
    split
    · exact revises_stageFault (clearFault (clk 3)) (fun _ _ => revised_clearFault) c.fault hstored
    · exact hstored

theorem revises_authorizeRelease (clk : Clock) (request : ReleaseRequest) (i : Impl) :
    Revises i (authorizeRelease clk request i).impl := by
  unfold authorizeRelease
  dsimp only
  split
  · exact .of_eq rfl
  · split
    · exact .of_eq rfl
    · unfold grantRelease
      exact revises_takeOffContainment clk _ request.resource (.of_eq rfl)

theorem revises_verifyContainment (clk : Clock) (generation : ContainmentGeneration) (i : Impl) :
    Revises i (verifyContainment clk generation i).impl := by
  unfold verifyContainment
  split
  · exact .of_eq rfl
  · next record _ =>
    exact revises_stageFault (settleFault (clk 0) (verificationOf i.state record generation (clk 0)))
      (fun _ _ => revised_settleFault) record.fault (.of_eq rfl)

/-- only a commitment changes the containment a fault names -/
theorem revises_after (c : Call) (i : Impl) (h : ∀ id expected, c.op ≠ .authorizeContainment id expected) :
    Revises i (c.after i) := by
  have hframe := frame_run c i
  obtain ⟨clk, op⟩ := c
  cases op
  case publishFault evidence => exact revises_publishFault clk evidence i
  case supersedeFault id expected reason => exact revises_supersedeFault clk id expected reason i
  case authorizeContainment id expected => exact absurd rfl (h id expected)
  case verifyContainment generation => exact revises_verifyContainment clk generation i
  case authorizeRelease request => exact revises_authorizeRelease clk request i
  all_goals exact .of_eq (hframe.faults (by simp [Op.parts]))

/-- **Step.** Every operation lets the faults age. -/
theorem ages_after (c : Call) (i : Impl) : Ages i (c.after i) := by
  by_cases h : ∃ id expected, c.op = .authorizeContainment id expected
  · obtain ⟨id, expected, hop⟩ := h
    unfold Call.after
    rw [hop]
    exact ages_authorizeContainment c.clk id expected i
  · exact (revises_after c i fun id expected hop => h ⟨id, expected, hop⟩).ages

end FaultContainment.Dispatching
