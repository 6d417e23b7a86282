/-
Which records an operation stages.

Besides the parts of the state it may write (`Op.parts`), an operation has the kinds of journal records it may stage
(`Op.kinds`). Comparing the two shows what travels: an edit of a part outside the kinds lives in memory only.

- `journals_run`: the counters it stages are those it ends with.
- `stages_run`: an operation stages records of its kinds, and no others.
-/
import FaultContainment.Engine.Frame

namespace FaultContainment.Engine

open FaultContainment.Lib FaultContainment.Ids FaultContainment.Enums FaultContainment.Records
open FaultContainment.DurableEvent

/-- every record a section stages is of one of these kinds -/
def Stages {α : Type} (K : List DurableEventKind) (step : Step α) : Prop := ∀ e ∈ step.staged, e.kind ∈ K

/-- every record a section stages is of one of these kinds, or it is the counters as the section leaves them -/
def Journals {α : Type} (K : List DurableEventKind) (step : Step α) : Prop :=
  ∀ e ∈ step.staged, e.kind ∈ K ∨ e = step.impl.countersEvent

section Steps

variable {α : Type} {K : List DurableEventKind}

theorem journals_refuse (i : Impl) (e : Error) : Journals K (.refuse i e : Step α) := by
  intro event h
  exact absurd h List.not_mem_nil

theorem journals_answer (i : Impl) (a : α) : Journals K (.answer i a) := by
  intro event h
  exact absurd h List.not_mem_nil

theorem journals_ite {p : Prop} [Decidable p] {a b : Step α} (ha : Journals K a) (hb : Journals K b) :
    Journals K (if p then a else b) := by
  split
  · exact ha
  · exact hb

/-- a mutation stages what surrounds its audited event, the event, and the counters -/
theorem journals_commit {i : Impl} {time : UInt64} {entry : HistoryEvent} {before : List Event}
    {event : Option HistoryEvent → Event} {after : List Event} {a : α} (hb : ∀ e ∈ before, e.kind ∈ K)
    (he : ∀ h, (event h).kind ∈ K) (ha : ∀ e ∈ after, e.kind ∈ K) :
    Journals K (commit i time entry before event after a) := by
  intro e h
  rcases List.mem_append.mp h with h | h
  · exact .inl (hb e h)
  rcases List.mem_cons.mp h with rfl | h
  · exact .inl (he _)
  rcases List.mem_append.mp h with h | h
  · exact .inl (ha e h)
  · exact .inr (List.mem_singleton.mp h)

/-- a mutation with nothing around its audited event -/
theorem journals_commit_one {i : Impl} {time : UInt64} {entry : HistoryEvent} {event : Option HistoryEvent → Event} {a : α}
    (he : ∀ h, (event h).kind ∈ K) : Journals K (commit i time entry [] event [] a) :=
  journals_commit (by simp) he (by simp)

end Steps

/-! ## What the loops stage -/

theorem kind_editEach {f : ResourceRecord → Option ResourceRecord} {ks : List ResourceId} {i : Impl} {e : Event}
    (h : e ∈ (editEach f ks i).2) : e.kind = .resourceUpsert := by
  induction ks generalizing i with
  | nil => exact absurd h List.not_mem_nil
  | cons k ks ih =>
    unfold editEach at h
    split at h
    · exact ih h
    · rcases List.mem_cons.mp h with rfl | h
      · rfl
      · exact ih h

theorem kind_stageFault {id : FaultId} {f : Option FaultRecord} {i : Impl} {e : Event} (h : e ∈ (stageFault id f i).2) :
    e.kind = .faultUpsert := by
  cases f with
  | none => exact absurd h List.not_mem_nil
  | some f => rw [List.mem_singleton.mp h]

theorem kind_dispatchOne {clk : Clock} {record : ContainmentRecord} {d : Dispatch}
    (h : ∀ e ∈ d.staged, e.kind = .actionUpsert) (id : ActionId) :
    ∀ e ∈ (dispatchOne clk record d id).staged, e.kind = .actionUpsert := by
  have hone : ∀ action entry, ∀ e ∈ d.staged ++ [(⟨.actionUpsert, action, entry⟩ : Event)], e.kind = .actionUpsert := by
    intro action entry e he
    rcases List.mem_append.mp he with he | he
    · exact h e he
    · rw [List.mem_singleton.mp he]
  unfold dispatchOne
  split
  · exact h
  · split_ifs
    · exact h
    · exact hone _ _
    · exact hone _ _

theorem kind_settleOne {clk : Clock} {d : Dispatch} (h : ∀ e ∈ d.staged, e.kind = .actionUpsert) (attempt : Attempt) :
    ∀ e ∈ (settleOne clk d attempt).staged, e.kind = .actionUpsert := by
  have hone : ∀ action entry, ∀ e ∈ d.staged ++ [(⟨.actionUpsert, action, entry⟩ : Event)], e.kind = .actionUpsert := by
    intro action entry e he
    rcases List.mem_append.mp he with he | he
    · exact h e he
    · rw [List.mem_singleton.mp he]
  unfold settleOne
  split
  · exact h
  · split_ifs
    · exact h
    · split
      · exact hone _ _
      · exact hone _ _

/-- a dispatch loop stages actions -/
theorem kind_loop {β : Type} {f : Dispatch → β → Dispatch}
    (hf : ∀ d b, (∀ e ∈ d.staged, e.kind = .actionUpsert) → ∀ e ∈ (f d b).staged, e.kind = .actionUpsert)
    (bs : List β) {d : Dispatch} (h : ∀ e ∈ d.staged, e.kind = .actionUpsert) :
    ∀ e ∈ (bs.foldl f d).staged, e.kind = .actionUpsert := by
  induction bs generalizing d with
  | nil => exact h
  | cons b bs ih => exact ih (hf d b h)

/-- and the section the counters behind them -/
theorem journals_loop {β : Type} {f : Dispatch → β → Dispatch}
    (hf : ∀ d b, (∀ e ∈ d.staged, e.kind = .actionUpsert) → ∀ e ∈ (f d b).staged, e.kind = .actionUpsert)
    (bs : List β) (i : Impl) (summary : DispatchSummary) :
    ∀ e ∈ (bs.foldl f { impl := i, summary := summary }).staged ++
      [(bs.foldl f { impl := i, summary := summary }).impl.countersEvent],
      e.kind ∈ [DurableEventKind.actionUpsert] ∨ e = (bs.foldl f { impl := i, summary := summary }).impl.countersEvent := by
  intro e he
  rcases List.mem_append.mp he with he | he
  · have hkind := kind_loop hf bs (d := { impl := i, summary := summary }) (by simp) e he
    exact .inl (by rw [hkind]; simp)
  · exact .inr (List.mem_singleton.mp he)

/-! ## Topology operations -/

theorem journals_register {t : IdTag} {D : Type} {g : Grouping t D} {K : List DurableEventKind}
    (hg : ∀ d h, (g.upsert d h).kind ∈ K) (normalize : D → D) (clk : Clock) (domain : D) (i : Impl) :
    Journals K (g.register normalize clk domain i) :=
  journals_ite (journals_refuse _ _) (journals_ite (journals_refuse _ _) (journals_commit_one (hg _)))

theorem journals_unregister {t : IdTag} {D : Type} {g : Grouping t D} {K : List DurableEventKind}
    (hg : ∀ id h, (g.remove id h).kind ∈ K) (notFound advanced : String) (clk : Clock) (id : Id t)
    (expected : TopologyGeneration) (i : Impl) : Journals K (g.unregister notFound advanced clk id expected i) := by
  unfold Grouping.unregister
  split
  · exact journals_refuse _ _
  · exact journals_ite (journals_refuse _ _) (journals_commit_one (hg _))

theorem journals_registerDomain (clk : Clock) (domain : ContainmentDomain) (i : Impl) :
    Journals [.resourceUpsert, .containmentDomainUpsert] (registerDomain clk domain i) := by
  have hmembers : ∀ members m, ∀ e ∈ memberEvents members m, e.kind = .resourceUpsert := by
    intro members m e he
    obtain ⟨k, -, hk⟩ := List.mem_filterMap.mp he
    obtain ⟨r, -, rfl⟩ := Option.map_eq_some_iff.mp hk
    rfl
  refine journals_ite (journals_refuse _ _) (journals_ite (journals_refuse _ _) ?_)
  dsimp only
  split
  · exact journals_refuse _ _
  · refine journals_commit (fun e he => ?_) (fun _ => by simp) (by simp)
    rw [hmembers _ _ e he]
    simp

theorem journals_updateDomain (clk : Clock) (domain : ContainmentDomain) (expected : TopologyGeneration) (i : Impl) :
    Journals [.containmentDomainUpsert] (updateDomain clk domain expected i) := by
  unfold updateDomain
  split
  · exact journals_refuse _ _
  · exact journals_commit_one fun _ => by simp

theorem journals_registerResource (clk : Clock) (record : ResourceRecord) (i : Impl) :
    Journals [.resourceUpsert] (registerResource clk record i) := by
  unfold registerResource
  split
  · exact journals_refuse _ _
  · exact journals_commit_one fun _ => by simp

theorem journals_updateResource (clk : Clock) (record : ResourceRecord) (expected : ResourceGeneration) (i : Impl) :
    Journals [.resourceUpsert] (updateResource clk record expected i) := by
  unfold updateResource
  split
  · exact journals_refuse _ _
  · exact journals_commit_one fun _ => by simp

theorem journals_removeResource (clk : Clock) (id : ResourceId) (expected : ResourceGeneration) (i : Impl) :
    Journals [.resourceRemove, .dependencyRemove] (removeResource clk id expected i) := by
  unfold removeResource
  split
  · exact journals_refuse _ _
  · refine journals_ite (journals_refuse _ _) (journals_commit (by simp) (fun _ => by simp) (fun e he => ?_))
    obtain ⟨d, -, rfl⟩ := List.mem_map.mp he
    simp

theorem journals_registerDependency (clk : Clock) (edge : DependencyEdge) (i : Impl) :
    Journals [.dependencyUpsert] (registerDependency clk edge i) := by
  unfold registerDependency
  split
  · exact journals_refuse _ _
  · exact journals_commit_one fun _ => by simp

theorem journals_removeDependency (clk : Clock) (id : DependencyId) (expected : DependencyGeneration) (i : Impl) :
    Journals [.dependencyRemove] (removeDependency clk id expected i) := by
  unfold removeDependency
  split
  · exact journals_refuse _ _
  · exact journals_ite (journals_refuse _ _) (journals_commit_one fun _ => by simp)

theorem journals_setPolicy (clk : Clock) (policy : ContainmentPolicy) (i : Impl) :
    Journals [.policySet] (setPolicy clk policy i) := by
  unfold setPolicy
  split
  · exact journals_refuse _ _
  · exact journals_commit_one fun _ => by simp

theorem journals_publishResourceEvidence (clk : Clock) (id : ResourceId) (expected : ResourceGeneration)
    (freshness : EvidenceFreshness) (sequence : EvidenceSequence) (mechanism : ContainmentMechanism) (source : Text)
    (i : Impl) :
    Journals [.resourceUpsert] (publishResourceEvidence clk id expected freshness sequence mechanism source i) := by
  unfold publishResourceEvidence
  split
  · exact journals_refuse _ _
  · exact journals_commit_one fun _ => by simp

/-! ## Workers and epochs -/

theorem journals_registerFresh (clk : Clock) (worker : WorkerId) (boot : WorkerBootId) (endpoint : Text)
    (sequence : EvidenceSequence) (i : Impl) :
    Journals [.workerUpsert, .workerCurrentBoot] (registerFresh clk worker boot endpoint sequence i) := by
  have hrevoked : ∀ e ∈ (revokePrevious clk worker boot i).2, e.kind = .workerUpsert := by
    unfold revokePrevious
    split
    · simp
    · split_ifs
      · simp
      · split
        · simp
        · simp
  unfold registerFresh
  refine journals_commit (fun e he => ?_) (fun _ => by simp) (by simp)
  rw [hrevoked e he]
  simp

theorem journals_registerWorker (clk : Clock) (worker : WorkerId) (boot : WorkerBootId) (endpoint : Text)
    (sequence : EvidenceSequence) (i : Impl) :
    Journals [.workerUpsert, .workerCurrentBoot] (registerWorker clk worker boot endpoint sequence i) := by
  refine journals_ite (journals_refuse _ _) (journals_ite (journals_refuse _ _) ?_)
  split
  · exact journals_registerFresh _ _ _ _ _ _
  · refine journals_ite (journals_registerFresh _ _ _ _ _ _) (journals_ite (journals_refuse _ _) (journals_ite ?_ ?_))
    · exact journals_commit_one fun _ => by simp
    · exact journals_answer _ _

theorem journals_retireWorker (clk : Clock) (worker : WorkerId) (boot : WorkerBootId) (reason : Text) (i : Impl) :
    Journals [.workerUpsert] (retireWorker clk worker boot reason i) := by
  unfold retireWorker
  split
  · exact journals_refuse _ _
  · exact journals_ite (journals_answer _ _) (journals_commit_one fun _ => by simp)

theorem journals_authorityLost (clk : Clock) (worker : WorkerId) (boot : WorkerBootId) (detail : Text) (time : UInt64)
    (i : Impl) :
    Journals [.resourceUpsert, .workerUpsert] (authorityLost clk worker boot detail time i) := by
  unfold authorityLost
  split
  · exact journals_refuse _ _
  · split
    · exact journals_answer _ _
    · refine journals_ite ?_ (journals_commit (by simp) (fun _ => by simp) (fun e he => ?_))
      · intro e he
        left
        rw [List.mem_singleton.mp he]
        simp
      · rw [kind_editEach he]
        simp

/-! ## Faults and containments -/

theorem journals_publishFault (clk : Clock) (evidence : FaultEvidence) (i : Impl) :
    Journals [.faultUpsert, .currentFault] (publishFault clk evidence i) := by
  refine journals_ite (journals_refuse _ _) (journals_ite (journals_refuse _ _) (journals_ite (journals_refuse _ _) ?_))
  split
  · intro e he
    left
    rw [List.mem_singleton.mp he]
    simp
  · split
    · exact journals_refuse _ _
    · exact journals_commit (by simp) (fun _ => by simp) (by simp)

theorem journals_supersedeFault (clk : Clock) (id : FaultId) (expected : FaultGeneration) (reason : Text) (i : Impl) :
    Journals [.faultUpsert] (supersedeFault clk id expected reason i) := by
  unfold supersedeFault
  split
  · exact journals_refuse _ _
  · exact journals_commit_one fun _ => by simp

theorem journals_authorizeContainment (clk : Clock) (id : FaultId) (expected : FaultGeneration) (i : Impl) :
    Journals [.resourceUpsert, .actionUpsert, .containmentUpsert, .faultUpsert]
      (authorizeContainment clk id expected i) := by
  unfold authorizeContainment
  split
  · exact journals_refuse _ _
  · split
    · exact journals_refuse _ _
    · unfold commitContainment
      refine journals_commit (fun e he => ?_) (fun _ => by simp) (by simp)
      rcases List.mem_append.mp he with he | he
      · rcases List.mem_append.mp he with he | he
        · rw [kind_editEach he]
          simp
        · rw [kind_editEach he]
          simp
      · obtain ⟨a, -, rfl⟩ := List.mem_map.mp he
        simp

theorem journals_dispatchBegin (clk : Clock) (generation : ContainmentGeneration) (executorAttached : Bool) (i : Impl) :
    Journals [.actionUpsert] (dispatchBegin clk generation executorAttached i) := by
  unfold dispatchBegin
  split
  · exact journals_refuse _ _
  · exact journals_loop (fun _ id h => kind_dispatchOne h id) _ _ _

theorem journals_dispatchEnd (clk : Clock) (attempts : List Attempt) (summary : DispatchSummary) (i : Impl) :
    Journals [.actionUpsert] (dispatchEnd clk attempts summary i) :=
  journals_loop (fun _ attempt h => kind_settleOne h attempt) _ _ _

theorem journals_recordActionAck (clk : Clock) (ack : ActionAcknowledgment) (i : Impl) :
    Journals [.actionUpsert] (recordActionAck clk ack i) := by
  unfold recordActionAck
  split
  · exact journals_refuse _ _
  · exact journals_ite (journals_answer _ _) (journals_ite (journals_refuse _ _)
      (journals_commit_one fun _ => by simp))

theorem journals_recordActionResult (clk : Clock) (result : ActionResult) (i : Impl) :
    Journals [.resourceUpsert, .actionUpsert] (recordActionResult clk result i) := by
  have hclaimed : ∀ f ks (j : Impl), ∀ e ∈ (if result.success then editEach f ks j else (j, [])).2,
      e.kind = .resourceUpsert := by
    intro f ks j e he
    split_ifs at he
    · exact kind_editEach he
    · exact absurd he List.not_mem_nil
  unfold recordActionResult
  split
  · exact journals_refuse _ _
  · refine journals_ite (journals_answer _ _) (journals_ite (journals_refuse _ _)
      (journals_commit (fun e he => ?_) (fun _ => by simp) (by simp)))
    rw [hclaimed _ _ _ e he]
    simp

theorem journals_verifyContainment (clk : Clock) (generation : ContainmentGeneration) (i : Impl) :
    Journals [.containmentUpsert, .faultUpsert] (verifyContainment clk generation i) := by
  unfold verifyContainment
  split
  · exact journals_refuse _ _
  · refine journals_commit (fun e he => ?_) (fun _ => by simp) (by simp)
    rw [kind_stageFault he]
    simp

theorem journals_authorizeDegradedMode (clk : Clock) (contract : DegradedModeContract) (i : Impl) :
    Journals [.degradedUpsert] (authorizeDegradedMode clk contract i) := by
  unfold authorizeDegradedMode
  split
  · exact journals_refuse _ _
  · exact journals_commit_one fun _ => by simp

theorem journals_revalidateDegradedMode (clk : Clock) (id : DegradedModeId) (i : Impl) :
    Journals [.degradedUpsert] (revalidateDegradedMode clk id i) := by
  unfold revalidateDegradedMode
  split
  · exact journals_refuse _ _
  · exact journals_commit_one fun _ => by simp

theorem journals_authorizeRelease (clk : Clock) (request : ReleaseRequest) (i : Impl) :
    Journals [.resourceUpsert, .containmentUpsert, .faultUpsert, .history]
      (authorizeRelease clk request i) := by
  refine journals_ite (journals_commit_one fun _ => by simp) ?_
  split
  · exact journals_refuse _ _
  · unfold grantRelease takeOffContainment
    refine journals_commit (fun e he => ?_) (fun _ => by simp) (fun e he => ?_)
    · split at he
      · exact absurd he List.not_mem_nil
      · dsimp only at he
        split_ifs at he
        · rw [kind_stageFault he]
          simp
        · exact absurd he List.not_mem_nil
    · split at he
      · exact absurd he List.not_mem_nil
      · rw [List.mem_singleton.mp he]
        simp

/-! ## Every operation -/

/-- the kinds of records an operation may stage -/
def Op.kinds : Op → List DurableEventKind
  | .registerDomain _ => [.resourceUpsert, .containmentDomainUpsert, .counters]
  | .updateDomain _ _ => [.containmentDomainUpsert, .counters]
  | .removeDomain _ _ => [.containmentDomainRemove, .counters]
  | .registerIsolationDomain _ => [.isolationDomainUpsert, .counters]
  | .removeIsolationDomain _ _ => [.isolationDomainRemove, .counters]
  | .registerFailureDomain _ => [.failureDomainUpsert, .counters]
  | .removeFailureDomain _ _ => [.failureDomainRemove, .counters]
  | .registerResource _ | .updateResource _ _ | .publishResourceEvidence _ _ _ _ _ _ => [.resourceUpsert, .counters]
  | .removeResource _ _ => [.resourceRemove, .dependencyRemove, .counters]
  | .registerDependency _ => [.dependencyUpsert, .counters]
  | .removeDependency _ _ => [.dependencyRemove, .counters]
  | .setPolicy _ => [.policySet, .counters]
  | .registerWorker _ _ _ _ => [.workerUpsert, .workerCurrentBoot, .counters]
  | .retireWorker _ _ _ => [.workerUpsert, .counters]
  | .beginEpoch _ _ => [.history, .counters]
  | .publishFault _ => [.faultUpsert, .currentFault, .counters]
  | .supersedeFault _ _ _ => [.faultUpsert, .counters]
  | .authorizeContainment _ _ => [.resourceUpsert, .actionUpsert, .containmentUpsert, .faultUpsert, .counters]
  | .dispatchBegin _ _ | .dispatchEnd _ _ | .recordActionAck _ => [.actionUpsert, .counters]
  | .recordActionResult _ => [.resourceUpsert, .actionUpsert, .counters]
  | .verifyContainment _ => [.containmentUpsert, .faultUpsert, .counters]
  | .authorizeDegradedMode _ | .revalidateDegradedMode _ => [.degradedUpsert, .counters]
  | .authorizeRelease _ => [.resourceUpsert, .containmentUpsert, .faultUpsert, .history, .counters]
  | .authorityLost _ _ _ _ => [.resourceUpsert, .workerUpsert, .counters]
  | .noteAuthorityLoss _ _ | .requestShutdown | .persistenceFault _ => []

/-- the counters an operation stages are those it ends with -/
theorem journals_run (c : Call) (i : Impl) :
    Journals (c.op.kinds.filter fun kind => kind ≠ .counters) (c.op.run c.clk i) := by
  obtain ⟨clk, op⟩ := c
  cases op with
  | registerDomain domain => exact journals_registerDomain clk domain i
  | updateDomain domain expected => exact journals_updateDomain clk domain expected i
  | removeDomain id expected =>
    exact journals_unregister (fun _ _ => by simp [Op.kinds, containmentDomains]) _ _ clk id expected i
  | registerIsolationDomain domain =>
    exact journals_register (fun _ _ => by simp [Op.kinds, isolationDomains]) _ clk domain i
  | removeIsolationDomain id expected =>
    exact journals_unregister (fun _ _ => by simp [Op.kinds, isolationDomains]) _ _ clk id expected i
  | registerFailureDomain domain =>
    exact journals_register (fun _ _ => by simp [Op.kinds, failureDomains]) _ clk domain i
  | removeFailureDomain id expected =>
    exact journals_unregister (fun _ _ => by simp [Op.kinds, failureDomains]) _ _ clk id expected i
  | registerResource record => exact journals_registerResource clk record i
  | updateResource record expected => exact journals_updateResource clk record expected i
  | removeResource id expected => exact journals_removeResource clk id expected i
  | registerDependency edge => exact journals_registerDependency clk edge i
  | removeDependency id expected => exact journals_removeDependency clk id expected i
  | setPolicy policy => exact journals_setPolicy clk policy i
  | publishResourceEvidence id expected freshness sequence mechanism source =>
    exact journals_publishResourceEvidence clk id expected freshness sequence mechanism source i
  | registerWorker worker boot endpoint sequence => exact journals_registerWorker clk worker boot endpoint sequence i
  | retireWorker worker boot reason => exact journals_retireWorker clk worker boot reason i
  | beginEpoch nowMs reason => exact journals_commit_one fun _ => by simp [Op.kinds]
  | publishFault evidence => exact journals_publishFault clk evidence i
  | supersedeFault id expected reason => exact journals_supersedeFault clk id expected reason i
  | authorizeContainment id expected => exact journals_authorizeContainment clk id expected i
  | dispatchBegin generation executorAttached => exact journals_dispatchBegin clk generation executorAttached i
  | dispatchEnd attempts summary => exact journals_dispatchEnd clk attempts summary i
  | recordActionAck ack => exact journals_recordActionAck clk ack i
  | recordActionResult result => exact journals_recordActionResult clk result i
  | verifyContainment generation => exact journals_verifyContainment clk generation i
  | authorizeDegradedMode contract => exact journals_authorizeDegradedMode clk contract i
  | revalidateDegradedMode id => exact journals_revalidateDegradedMode clk id i
  | authorizeRelease request => exact journals_authorizeRelease clk request i
  | authorityLost worker boot detail time => exact journals_authorityLost clk worker boot detail time i
  | noteAuthorityLoss key fault => exact journals_answer _ _
  | requestShutdown => exact journals_ite (journals_answer _ _) (journals_answer _ _)
  | persistenceFault e => exact journals_answer _ _

/-- an operation that does not stage the counters stages nothing -/
theorem staged_of_not_counters (c : Call) (i : Impl) (h : .counters ∉ c.op.kinds) : (c.op.run c.clk i).staged = [] := by
  obtain ⟨clk, op⟩ := c
  cases op with
  | noteAuthorityLoss key fault => rfl
  | persistenceFault e => rfl
  | requestShutdown =>
    change (requestShutdown clk i).staged = []
    unfold requestShutdown
    split <;> rfl
  | _ => exact absurd (by simp [Op.kinds]) h

/-- **Records stay inside their kinds.** What an operation stages is of the kinds it is declared to stage. -/
theorem stages_run (c : Call) (i : Impl) : Stages c.op.kinds (c.op.run c.clk i) := by
  intro e he
  rcases journals_run c i e he with hkind | rfl
  · exact List.mem_of_mem_filter hkind
  · by_contra hc
    rw [staged_of_not_counters c i hc] at he
    exact absurd he List.not_mem_nil

end FaultContainment.Engine
