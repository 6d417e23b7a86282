/-
Rejected operations.

An operation that returns an error other than that of a failed append was turned down, and is expected to leave nothing
behind. Nearly every section checks its request before it edits anything. Three do not: `register_domain` finds a conflict
after it has advanced the topology and placed earlier members, `publish_fault` allocates an identity before its last checks,
and `worker_authority_lost` revokes the incarnation before it looks for its resources, and fences these before it publishes
the fault and authorizes the containment.

- `spares_iff`: a locked section spares the engine when it returns an error, exactly when it is none of those cases.
- `fencesWhole_iff`: whether the fault and the containment that follow a fence are accepted, read off the state before.
- `rejected_iff`: the same for the public operations, over every outcome of the writes.
-/
import FaultContainment.Admission
import FaultContainment.Durability.FailedRecovery
import FaultContainment.Durability.Journal

namespace FaultContainment.Rejections

open FaultContainment.Lib FaultContainment.Ids FaultContainment.Enums FaultContainment.Records
open FaultContainment.DurableEvent FaultContainment.Engine FaultContainment.Durability FaultContainment.Observations
open FaultContainment.Admission

/-! ## Untouched engines -/

/-- nothing but the audit history and the release assessments may differ; staging a record takes a durable sequence number -/
structure Untouched (i j : Impl) : Prop where
  topology : j.state.topology = i.state.topology
  policy : j.state.policy = i.state.policy
  faults : j.state.faults = i.state.faults
  workers : j.state.workers = i.state.workers
  containments : j.state.containments = i.state.containments
  actions : j.state.actions = i.state.actions
  degradedContracts : j.state.degradedContracts = i.state.degradedContracts
  degradedModes : j.state.degradedModes = i.state.degradedModes
  epoch : j.state.epoch = i.state.epoch
  topologyGeneration : j.state.topologyGeneration = i.state.topologyGeneration
  policyGeneration : j.state.policyGeneration = i.state.policyGeneration
  containmentGeneration : j.state.containmentGeneration = i.state.containmentGeneration
  verificationGeneration : j.state.verificationGeneration = i.state.verificationGeneration
  releaseGeneration : j.state.releaseGeneration = i.state.releaseGeneration
  nextFault : j.nextFault = i.nextFault
  nextAction : j.nextAction = i.nextAction
  nextDegraded : j.nextDegraded = i.nextDegraded
  durableSequence : j.durableSequence = i.durableSequence

theorem Untouched.refl (i : Impl) : Untouched i i := by constructor <;> rfl

/-- a section that returns an error leaves the engine untouched -/
def Spares {α : Type} (i : Impl) (step : Step α) : Prop := ∀ e, step.result = .error e → Untouched i (step.sealed i)

theorem spares_refuse {α : Type} (i : Impl) (e : Error) : Spares i (.refuse i e : Step α) := fun _ _ => .refl i

theorem spares_answer {α : Type} (i j : Impl) (a : α) : Spares i (.answer j a) := fun _ h => by simp [Step.answer] at h

theorem spares_commit {α : Type} (i j : Impl) (time : UInt64) (entry : HistoryEvent) (before : List Event)
    (event : Option HistoryEvent → Event) (after : List Event) (a : α) :
    Spares i (commit j time entry before event after a) := fun _ h => by simp [commit] at h

theorem spares_void {α : Type} {i : Impl} {step : Step α} : Spares i step.void ↔ Spares i step := by
  have hresult : ∀ e, step.void.result = .error e ↔ step.result = .error e := by
    intro e
    unfold Step.void
    cases step.result <;> simp [Except.map]
  exact forall_congr' fun e => imp_congr_left (hresult e)

/-! ## Registering a containment domain -/

/-- no conflict is found too late: none at all, or nothing was there to be changed before it -/
def RegistersWhole (domain : ContainmentDomain) (i : Impl) : Prop :=
  domain.id.valid = true → i.state.topology.containmentDomains.has domain.id = false →
    (∀ k ∈ domain.members, foreign domain.id i.state.topology.resources k = false) ∨
      nextGeneration i.state.topologyGeneration = i.state.topologyGeneration ∧
        ∀ k ∈ domain.members.takeWhile fun k => !foreign domain.id i.state.topology.resources k,
          ∀ r ∈ i.state.topology.resources.find k, r.containmentDomain = domain.id

instance (domain : ContainmentDomain) (i : Impl) : Decidable (RegistersWhole domain i) :=
  inferInstanceAs (Decidable (_ → _ → _ ∨ _ ∧ _))

theorem spares_registerDomain_iff (clk : Clock) (domain : ContainmentDomain) (i : Impl) :
    Spares i (registerDomain clk domain i) ↔ RegistersWhole domain i := by
  unfold registerDomain RegistersWhole
  by_cases hvalid : ¬ domain.id.valid
  · rw [if_pos hvalid]
    exact iff_of_true (spares_refuse i _) fun h => absurd h hvalid
  rw [if_neg hvalid]
  by_cases hhas : i.state.topology.containmentDomains.has domain.id
  · rw [if_pos hhas]
    exact iff_of_true (spares_refuse i _) fun _ h => by simp [hhas] at h
  rw [if_neg hhas]
  dsimp only
  rw [imp_iff_right (not_not.mp hvalid), imp_iff_right (Bool.eq_false_iff.mpr hhas)]
  simp only [claimMembers_eq, Impl.advanceTopology_topology]
  cases hconflict : domain.members.find? (foreign domain.id i.state.topology.resources) with
  | none =>
    refine iff_of_true (spares_commit i _ _ _ _ _ _ _) (.inl fun k hk => ?_)
    exact Bool.eq_false_iff.mpr (List.find?_eq_none.mp hconflict k hk)
  | some member =>
    have hmember := List.find?_some hconflict
    have hnot : ¬ ∀ k ∈ domain.members, foreign domain.id i.state.topology.resources k = false := fun h => by
      rw [h member (List.mem_of_find?_eq_some hconflict)] at hmember
      exact Bool.false_ne_true hmember
    rw [or_iff_right hnot, ← updateAll_placed_iff]
    constructor
    · intro h
      have hu := h _ rfl
      exact ⟨hu.topologyGeneration, congrArg Topology.resources hu.topology⟩
    · intro ⟨hgeneration, hplaced⟩ e _
      refine { Untouched.refl i with topology := ?_, topologyGeneration := hgeneration }
      exact congrArg (fun m => { i.state.topology with resources := m }) hplaced

/-! ## Publishing a fault -/

/-- the checks of `publish_fault` after the identity is allocated -/
def PublishAdmitted (evidence : FaultEvidence) (i : Impl) : Prop :=
  (normalizeEvidence evidence i).epoch = i.state.epoch ∧
    (i.faultByDigest.has (normalizeEvidence evidence i).digest = true ∨
      (admitFault (normalizeEvidence evidence i) i).isOk = true)

instance (evidence : FaultEvidence) (i : Impl) : Decidable (PublishAdmitted evidence i) :=
  inferInstanceAs (Decidable (_ ∧ (_ ∨ _)))

/-- no identity is allocated for an observation that is turned down -/
def PublishesWhole (evidence : FaultEvidence) (i : Impl) : Prop :=
  evidence.id.valid = true ∨ evidence.subject.valid = false ∨ i.config.maxFaults ≤ i.state.faults.size ∨
    PublishAdmitted evidence i

instance (evidence : FaultEvidence) (i : Impl) : Decidable (PublishesWhole evidence i) :=
  inferInstanceAs (Decidable (_ ∨ _ ∨ _ ∨ _))

/-- what is left of a rejected observation is the allocated identity -/
theorem publishFault_refused {clk : Clock} {evidence : FaultEvidence} {i : Impl} (hsubject : evidence.subject.valid = true)
    (hroom : ¬ i.config.maxFaults ≤ i.state.faults.size) (h : ¬ PublishAdmitted evidence i) :
    ∃ e, publishFault clk evidence i = .refuse (allocateFault evidence i) e := by
  obtain ⟨hstate, hdigest⟩ := allocateFault_reads evidence i
  unfold publishFault
  rw [if_neg (not_not.mpr hsubject), if_neg hroom]
  dsimp only
  rw [hstate, hdigest]
  by_cases hepoch : (normalizeEvidence evidence i).epoch ≠ i.state.epoch
  · exact ⟨_, if_pos hepoch⟩
  rw [if_neg hepoch, admitFault_allocate]
  have hlate := fun hl => h ⟨not_not.mp hepoch, hl⟩
  cases hknown : i.faultByDigest.find (normalizeEvidence evidence i).digest with
  | some id => exact absurd (.inl (by simp [OrderedMap.has, hknown])) hlate
  | none =>
    obtain ⟨e, he⟩ := isOk_eq_false fun hok => hlate (.inr hok)
    exact ⟨e, by rw [he]⟩

theorem publishFault_admitted {clk : Clock} {evidence : FaultEvidence} {i : Impl} (hsubject : evidence.subject.valid = true)
    (hroom : ¬ i.config.maxFaults ≤ i.state.faults.size) (h : PublishAdmitted evidence i) :
    ∃ f, (publishFault clk evidence i).result = .ok f := by
  obtain ⟨hstate, hdigest⟩ := allocateFault_reads evidence i
  unfold publishFault
  rw [if_neg (not_not.mpr hsubject), if_neg hroom]
  dsimp only
  rw [hstate, hdigest, if_neg (not_not.mpr h.1), admitFault_allocate]
  cases hknown : i.faultByDigest.find (normalizeEvidence evidence i).digest with
  | some id => exact ⟨_, rfl⟩
  | none =>
    have hok := h.2.resolve_left (by simp [OrderedMap.has, hknown])
    cases hadmitted : admitFault (normalizeEvidence evidence i) i with
    | error e =>
      rw [hadmitted] at hok
      exact absurd hok Bool.false_ne_true
    | ok u => exact ⟨_, rfl⟩

theorem spares_publishFault_iff (clk : Clock) (evidence : FaultEvidence) (i : Impl) :
    Spares i (publishFault clk evidence i) ↔ PublishesWhole evidence i := by
  unfold PublishesWhole
  by_cases hsubject : evidence.subject.valid = true
  swap
  · refine iff_of_true ?_ (.inr (.inl (Bool.eq_false_iff.mpr hsubject)))
    rw [publishFault, if_pos hsubject]
    exact spares_refuse i _
  by_cases hroom : i.config.maxFaults ≤ i.state.faults.size
  · refine iff_of_true ?_ (.inr (.inr (.inl hroom)))
    rw [publishFault, if_neg (not_not.mpr hsubject), if_pos hroom]
    exact spares_refuse i _
  by_cases hadmitted : PublishAdmitted evidence i
  · obtain ⟨f, hf⟩ := @publishFault_admitted clk _ _ hsubject hroom hadmitted
    refine iff_of_true (fun e he => ?_) (.inr (.inr (.inr hadmitted)))
    rw [hf] at he
    exact absurd he (by simp)
  obtain ⟨e, he⟩ := @publishFault_refused clk _ _ hsubject hroom hadmitted
  have hleft : ¬ (evidence.subject.valid = false ∨ i.config.maxFaults ≤ i.state.faults.size ∨
      PublishAdmitted evidence i) := by
    rintro (h | h | h)
    · exact absurd (hsubject.symm.trans h) (by decide)
    · exact hroom h
    · exact hadmitted h
  rw [he, or_iff_left hleft]
  constructor
  · intro h
    by_contra hid
    have hnext := (h e rfl).nextFault
    simp only [Step.refuse, Step.sealed, allocateFault, hid] at hnext
    exact absurd hnext (by simp)
  · intro hid e' _
    rw [allocateFault, if_pos hid]
    exact .refl i

/-! ## Losing an incarnation -/

/-- the audit record of a revocation -/
def lossEntry (boot : WorkerBootId) (detail : Text) : HistoryEvent :=
  { type := .workerAuthorityRevoked, detail := lit "authority revoked for boot " ++ boot.text ++ lit ": " ++ detail
    authority := lit "WorkerBootId " ++ boot.text }

/-- an unscoped loss leaves nothing behind: the incarnation is revoked already, and its record cannot be encoded -/
def LossNoted (clk : Clock) (boot : WorkerBootId) (detail : Text) (w : WorkerRecord) (i : Impl) : Prop :=
  w.state = .authorityRevoked ∧ w.freshness = .revalidationRequired ∧
    encodeEvent ⟨.workerUpsert, w, some (i.stamped (clk 0) (lossEntry boot detail))⟩ = none

instance (clk : Clock) (boot : WorkerBootId) (detail : Text) (w : WorkerRecord) (i : Impl) :
    Decidable (LossNoted clk boot detail w i) := inferInstanceAs (Decidable (_ ∧ _ ∧ _))

/-- a loss that is turned down is turned down before the incarnation is revoked -/
def LosesWhole (clk : Clock) (worker : WorkerId) (boot : WorkerBootId) (detail : Text) (i : Impl) : Prop :=
  Scoped worker boot i ∨ ∀ w ∈ (admitLoss worker boot i).toOption, LossNoted clk boot detail w i

/-- the incarnation a loss is about -/
theorem admitLoss_find {worker : WorkerId} {boot : WorkerBootId} {i : Impl} {w : WorkerRecord}
    (h : admitLoss worker boot i = .ok w) : i.state.workers.incarnations.find ⟨worker, boot⟩ = some w := by
  unfold admitLoss at h
  split at h
  · simp at h
  · next w' hw =>
    split_ifs at h
    rw [hw, Except.ok.inj h]

/-- the record of a revoked incarnation -/
def revokedAt (observationTimeMs : UInt64) (w : WorkerRecord) : WorkerRecord :=
  { w with
    state := .authorityRevoked, freshness := .revalidationRequired
    lastSeenMs := if w.state ≠ .authorityRevoked then observationTimeMs else w.lastSeenMs }

theorem revokedAt_eq_iff (observationTimeMs : UInt64) (w : WorkerRecord) :
    revokedAt observationTimeMs w = w ↔ w.state = .authorityRevoked ∧ w.freshness = .revalidationRequired := by
  constructor
  · intro h
    exact ⟨(congrArg WorkerRecord.state h).symm, (congrArg WorkerRecord.freshness h).symm⟩
  · obtain ⟨key, incarnation, registeredEpoch, state, lastSequence, freshness⟩ := w
    rintro ⟨rfl, rfl⟩
    rfl

/-- what an unscoped loss leaves: the revoked incarnation, its audit record, and a record that is never flushed -/
theorem authorityLost_unscoped {clk : Clock} {worker : WorkerId} {boot : WorkerBootId} {detail : Text}
    {observationTimeMs : UInt64} {i : Impl} {w : WorkerRecord} (hw : admitLoss worker boot i = .ok w)
    (hknown : knownLoss ⟨worker, boot⟩ i = none)
    (hsubject : ¬ (lossSubject (ownedBy boot i.state.topology.resources)).valid) :
    ∃ e, e.code ≠ .persistenceIo ∧ authorityLost clk worker boot detail observationTimeMs i =
      { impl := (i.withIncarnations (i.state.workers.incarnations.insert ⟨worker, boot⟩
          (revokedAt observationTimeMs w))).addHistory (clk 0) (lossEntry boot detail)
        staged := [⟨.workerUpsert, revokedAt observationTimeMs w, some (i.stamped (clk 0) (lossEntry boot detail))⟩]
        flushed := false
        result := .error e } := by
  unfold authorityLost
  rw [hw]
  dsimp only
  rw [hknown]
  have hcode : ErrorCode.unknownResource ≠ .persistenceIo := by decide
  exact ⟨makeError .unknownResource "worker.authority_lost" _ _, hcode, if_pos hsubject⟩

/-- the topology with the resources of an incarnation fenced -/
def fencedTopology (time : UInt64) (boot : WorkerBootId) (t : Topology) : Topology :=
  { t with resources := editMap (fun r => some (fenceLost time r)) ((ownedBy boot t.resources).map Prod.fst) t.resources }

/-- what a scoped loss leaves: the revoked incarnation, and its resources fenced under a new topology generation -/
def fencedImpl (clk : Clock) (worker : WorkerId) (boot : WorkerBootId) (observationTimeMs : UInt64) (w : WorkerRecord)
    (g : TopologyGeneration) (i : Impl) : Impl :=
  ((i.withIncarnations (i.state.workers.incarnations.insert ⟨worker, boot⟩ (revokedAt observationTimeMs w))).withTopology
    (fencedTopology (clk 1) boot i.state.topology)).withTopologyGeneration g

/-- the generation the subject of a loss has once it is fenced -/
def fencedGeneration (time : UInt64) (boot : WorkerBootId) (t : Topology) : ResourceGeneration :=
  (((fencedTopology time boot t).resources.find (lossSubject (ownedBy boot t.resources))).map (·.generation)).getD {}

/-- a scoped loss is committed -/
theorem authorityLost_scoped {clk : Clock} {worker : WorkerId} {boot : WorkerBootId} {detail : Text}
    {observationTimeMs : UInt64} {i : Impl} {w : WorkerRecord} (hw : admitLoss worker boot i = .ok w)
    (hknown : knownLoss ⟨worker, boot⟩ i = none)
    (hsubject : (lossSubject (ownedBy boot i.state.topology.resources)).valid = true) :
    ∃ g event fenced, authorityLost clk worker boot detail observationTimeMs i =
      commit (fencedImpl clk worker boot observationTimeMs w g i) (clk 0) (lossEntry boot detail) [] event fenced
        (.fenced (lossSubject (ownedBy boot i.state.topology.resources))
          (fencedGeneration (clk 1) boot i.state.topology)) := by
  let revoked := i.withIncarnations (i.state.workers.incarnations.insert ⟨worker, boot⟩ (revokedAt observationTimeMs w))
  let fenced := editEach (fun r => some (fenceLost (clk 1) r)) ((ownedBy boot i.state.topology.resources).map Prod.fst)
    revoked
  obtain ⟨g, hg⟩ : ∃ g, fenced.1 = fencedImpl clk worker boot observationTimeMs w g i := editEach_frame _ _ revoked
  refine ⟨g, (⟨.workerUpsert, revokedAt observationTimeMs w, ·⟩), fenced.2, ?_⟩
  rw [← hg, fencedGeneration, show fencedTopology (clk 1) boot i.state.topology = fenced.1.state.topology by rw [hg]; rfl]
  unfold authorityLost
  rw [hw]
  dsimp only
  rw [hknown]
  exact if_neg (not_not.mpr hsubject)

theorem spares_authorityLost_iff (clk : Clock) (worker : WorkerId) (boot : WorkerBootId) (detail : Text)
    (observationTimeMs : UInt64) (i : Impl) :
    Spares i (authorityLost clk worker boot detail observationTimeMs i) ↔ LosesWhole clk worker boot detail i := by
  cases hw : admitLoss worker boot i with
  | error e =>
    have hscoped : Scoped worker boot i := fun hok => by
      rw [hw] at hok
      exact absurd hok Bool.false_ne_true
    refine iff_of_true ?_ (.inl hscoped)
    rw [authorityLost, hw]
    exact spares_refuse i _
  | ok w =>
    by_cases hscoped : Scoped worker boot i
    · refine iff_of_true ?_ (.inl hscoped)
      cases hknown : knownLoss ⟨worker, boot⟩ i with
      | some containment =>
        rw [authorityLost, hw]
        dsimp only
        rw [hknown]
        exact spares_answer i _ _
      | none =>
        obtain ⟨g, event, fenced, he⟩ := @authorityLost_scoped clk _ _ detail observationTimeMs _ _ hw hknown
          (hscoped (by rw [hw]; rfl) hknown)
        rw [he]
        exact spares_commit i _ _ _ _ _ _ _
    have hknown : knownLoss ⟨worker, boot⟩ i = none := by
      by_contra h
      exact hscoped fun _ hnone => absurd hnone h
    have hsubject : ¬ (lossSubject (ownedBy boot i.state.topology.resources)).valid := fun h => hscoped fun _ _ => h
    have hfind := admitLoss_find hw
    obtain ⟨e, -, he⟩ := @authorityLost_unscoped clk _ _ detail observationTimeMs _ _ hw hknown hsubject
    rw [he, LosesWhole, or_iff_right hscoped, hw]
    simp only [Except.toOption, Option.mem_def, Option.some.injEq, forall_eq']
    constructor
    · intro h
      have hu := h e rfl
      have hrecord : revokedAt observationTimeMs w = w := by
        have hsame := congrArg (fun r => r.incarnations.find ⟨worker, boot⟩) hu.workers
        simp only [Step.sealed, Impl.addHistory, Impl.pushHistory, Impl.withIncarnations,
          OrderedMap.find_insert_self, hfind] at hsame
        exact Option.some.inj hsame
      obtain ⟨hstate, hfresh⟩ := (revokedAt_eq_iff _ _).mp hrecord
      refine ⟨hstate, hfresh, ?_⟩
      have hseq := hu.durableSequence
      simp only [Step.sealed, Step.pending, hrecord, encodeStaged] at hseq
      split at hseq
      · assumption
      · exact absurd hseq (by simp)
    · rintro ⟨hstate, hfresh, hnone⟩ e' -
      have hrecord := (revokedAt_eq_iff observationTimeMs w).mpr ⟨hstate, hfresh⟩
      have hpending : encodeStaged i.durableSequence
          [⟨.workerUpsert, w, some (i.stamped (clk 0) (lossEntry boot detail))⟩] = [] := by
        rw [encodeStaged, hnone]
        rfl
      refine { Untouched.refl i with workers := ?_, durableSequence := ?_ }
      · have hsame := OrderedMap.insert_find _ hfind
        show { i.state.workers with
          incarnations := i.state.workers.incarnations.insert ⟨worker, boot⟩ (revokedAt observationTimeMs w) } = _
        rw [hrecord, hsame]
      · show i.durableSequence + (encodeStaged i.durableSequence _).length = _
        rw [hrecord, hpending]
        rfl

/-! ## Sections that check before they edit -/

theorem spares_ite {α : Type} {i : Impl} {p : Prop} [Decidable p] {a b : Step α} (ha : Spares i a) (hb : Spares i b) :
    Spares i (if p then a else b) := by
  split_ifs
  · exact ha
  · exact hb

theorem spares_register {t : IdTag} {D : Type} (g : Grouping t D) (normalize : D → D) (clk : Clock) (domain : D)
    (i : Impl) : Spares i (g.register normalize clk domain i) :=
  spares_ite (spares_refuse i _) (spares_ite (spares_refuse i _) (spares_commit i _ _ _ _ _ _ _))

theorem spares_unregister {t : IdTag} {D : Type} (g : Grouping t D) (notFound advanced : String) (clk : Clock)
    (id : Id t) (expected : TopologyGeneration) (i : Impl) :
    Spares i (g.unregister notFound advanced clk id expected i) := by
  unfold Grouping.unregister
  split
  · exact spares_refuse i _
  · exact spares_ite (spares_refuse i _) (spares_commit i _ _ _ _ _ _ _)

theorem spares_updateDomain (clk : Clock) (domain : ContainmentDomain) (expected : TopologyGeneration) (i : Impl) :
    Spares i (updateDomain clk domain expected i) := by
  unfold updateDomain
  split
  · exact spares_refuse i _
  · exact spares_commit i _ _ _ _ _ _ _

theorem spares_registerResource (clk : Clock) (record : ResourceRecord) (i : Impl) :
    Spares i (registerResource clk record i) := by
  unfold registerResource
  split
  · exact spares_refuse i _
  · exact spares_commit i _ _ _ _ _ _ _

theorem spares_updateResource (clk : Clock) (record : ResourceRecord) (expected : ResourceGeneration) (i : Impl) :
    Spares i (updateResource clk record expected i) := by
  unfold updateResource
  split
  · exact spares_refuse i _
  · exact spares_commit i _ _ _ _ _ _ _

theorem spares_removeResource (clk : Clock) (id : ResourceId) (expected : ResourceGeneration) (i : Impl) :
    Spares i (removeResource clk id expected i) := by
  unfold removeResource
  split
  · exact spares_refuse i _
  · exact spares_ite (spares_refuse i _) (spares_commit i _ _ _ _ _ _ _)

theorem spares_registerDependency (clk : Clock) (edge : DependencyEdge) (i : Impl) :
    Spares i (registerDependency clk edge i) := by
  unfold registerDependency
  split
  · exact spares_refuse i _
  · exact spares_commit i _ _ _ _ _ _ _

theorem spares_removeDependency (clk : Clock) (id : DependencyId) (expected : DependencyGeneration) (i : Impl) :
    Spares i (removeDependency clk id expected i) := by
  unfold removeDependency
  split
  · exact spares_refuse i _
  · exact spares_ite (spares_refuse i _) (spares_commit i _ _ _ _ _ _ _)

theorem spares_setPolicy (clk : Clock) (policy : ContainmentPolicy) (i : Impl) : Spares i (setPolicy clk policy i) := by
  unfold setPolicy
  split
  · exact spares_refuse i _
  · exact spares_commit i _ _ _ _ _ _ _

theorem spares_publishResourceEvidence (clk : Clock) (id : ResourceId) (expected : ResourceGeneration)
    (freshness : EvidenceFreshness) (sequence : EvidenceSequence) (mechanism : ContainmentMechanism) (source : Text)
    (i : Impl) : Spares i (publishResourceEvidence clk id expected freshness sequence mechanism source i) := by
  unfold publishResourceEvidence
  split
  · exact spares_refuse i _
  · exact spares_commit i _ _ _ _ _ _ _

theorem spares_registerWorker (clk : Clock) (worker : WorkerId) (boot : WorkerBootId) (endpoint : Text)
    (sequence : EvidenceSequence) (i : Impl) : Spares i (registerWorker clk worker boot endpoint sequence i) := by
  have hfresh : ∀ j, Spares i (registerFresh clk worker boot endpoint sequence j) :=
    fun j => spares_commit i _ _ _ _ _ _ _
  unfold registerWorker
  refine spares_ite (spares_refuse i _) (spares_ite (spares_refuse i _) ?_)
  split
  · exact hfresh i
  · exact spares_ite (hfresh _) (spares_ite (spares_refuse i _)
      (spares_ite (spares_commit i _ _ _ _ _ _ _) (spares_answer i i _)))

theorem spares_retireWorker (clk : Clock) (worker : WorkerId) (boot : WorkerBootId) (reason : Text) (i : Impl) :
    Spares i (retireWorker clk worker boot reason i) := by
  unfold retireWorker
  split
  · exact spares_refuse i _
  · exact spares_ite (spares_answer i i _) (spares_commit i _ _ _ _ _ _ _)

theorem spares_supersedeFault (clk : Clock) (id : FaultId) (expected : FaultGeneration) (reason : Text) (i : Impl) :
    Spares i (supersedeFault clk id expected reason i) := by
  unfold supersedeFault
  split
  · exact spares_refuse i _
  · exact spares_commit i _ _ _ _ _ _ _

theorem spares_authorizeContainment (clk : Clock) (id : FaultId) (expected : FaultGeneration) (i : Impl) :
    Spares i (authorizeContainment clk id expected i) := by
  unfold authorizeContainment
  split
  · exact spares_refuse i _
  split
  · exact spares_refuse i _
  · exact spares_commit i _ _ _ _ _ _ _

theorem spares_dispatchBegin (clk : Clock) (generation : ContainmentGeneration) (executorAttached : Bool) (i : Impl) :
    Spares i (dispatchBegin clk generation executorAttached i) := by
  unfold dispatchBegin
  split
  · exact spares_refuse i _
  · exact fun _ h => by simp at h

theorem spares_recordActionAck (clk : Clock) (ack : ActionAcknowledgment) (i : Impl) :
    Spares i (recordActionAck clk ack i) := by
  unfold recordActionAck
  split
  · exact spares_refuse i _
  · exact spares_ite (spares_answer i i _) (spares_ite (spares_refuse i _) (spares_commit i _ _ _ _ _ _ _))

theorem spares_recordActionResult (clk : Clock) (result : ActionResult) (i : Impl) :
    Spares i (recordActionResult clk result i) := by
  unfold recordActionResult
  split
  · exact spares_refuse i _
  · exact spares_ite (spares_answer i i _) (spares_ite (spares_refuse i _) (spares_commit i _ _ _ _ _ _ _))

theorem spares_verifyContainment (clk : Clock) (generation : ContainmentGeneration) (i : Impl) :
    Spares i (verifyContainment clk generation i) := by
  unfold verifyContainment
  split
  · exact spares_refuse i _
  · exact spares_commit i _ _ _ _ _ _ _

theorem spares_authorizeDegradedMode (clk : Clock) (contract : DegradedModeContract) (i : Impl) :
    Spares i (authorizeDegradedMode clk contract i) := by
  unfold authorizeDegradedMode
  split
  · exact spares_refuse i _
  · exact spares_commit i _ _ _ _ _ _ _

theorem spares_revalidateDegradedMode (clk : Clock) (id : DegradedModeId) (i : Impl) :
    Spares i (revalidateDegradedMode clk id i) := by
  unfold revalidateDegradedMode
  split
  · exact spares_refuse i _
  · exact spares_commit i _ _ _ _ _ _ _

/-- the assessment of a release is kept even when the resource is gone -/
theorem spares_authorizeRelease (clk : Clock) (request : ReleaseRequest) (i : Impl) :
    Spares i (authorizeRelease clk request i) := by
  unfold authorizeRelease
  refine spares_ite (spares_commit i _ _ _ _ _ _ _) ?_
  split
  · exact fun _ _ => { Untouched.refl i with }
  · exact spares_commit i _ _ _ _ _ _ _

/-! ## Every section -/

/-- the request is accepted, or turned down before the engine is edited -/
def Whole (clk : Clock) : Op → Impl → Prop
  | .registerDomain domain, i => RegistersWhole domain i
  | .publishFault evidence, i => PublishesWhole evidence i
  | .authorityLost worker boot detail _, i => LosesWhole clk worker boot detail i
  | _, _ => True

/-- A section spares the engine exactly when it is accepted, or turned down before the engine is edited. -/
theorem spares_iff (c : Call) (i : Impl) : Spares i (c.op.run c.clk i) ↔ Whole c.clk c.op i := by
  obtain ⟨clk, op⟩ := c
  have hvoid : ∀ {α : Type} {step : Step α}, Spares i step → (Spares i step.void ↔ True) :=
    fun h => iff_of_true (spares_void.mpr h) trivial
  cases op with
  | registerDomain domain => exact spares_void.trans (spares_registerDomain_iff clk domain i)
  | updateDomain domain expected => exact iff_of_true (spares_updateDomain clk domain expected i) trivial
  | removeDomain id expected => exact iff_of_true (spares_unregister _ _ _ clk id expected i) trivial
  | registerIsolationDomain domain => exact hvoid (spares_register _ _ clk domain i)
  | removeIsolationDomain id expected => exact iff_of_true (spares_unregister _ _ _ clk id expected i) trivial
  | registerFailureDomain domain => exact hvoid (spares_register _ _ clk domain i)
  | removeFailureDomain id expected => exact iff_of_true (spares_unregister _ _ _ clk id expected i) trivial
  | registerResource record => exact hvoid (spares_registerResource clk record i)
  | updateResource record expected => exact hvoid (spares_updateResource clk record expected i)
  | removeResource id expected => exact iff_of_true (spares_removeResource clk id expected i) trivial
  | registerDependency edge => exact hvoid (spares_registerDependency clk edge i)
  | removeDependency id expected => exact iff_of_true (spares_removeDependency clk id expected i) trivial
  | setPolicy policy => exact iff_of_true (spares_setPolicy clk policy i) trivial
  | publishResourceEvidence id expected freshness sequence mechanism source =>
    exact hvoid (spares_publishResourceEvidence clk id expected freshness sequence mechanism source i)
  | registerWorker worker boot endpoint sequence => exact hvoid (spares_registerWorker clk worker boot endpoint sequence i)
  | retireWorker worker boot reason => exact iff_of_true (spares_retireWorker clk worker boot reason i) trivial
  | beginEpoch nowMs reason => exact hvoid (spares_commit i _ _ _ _ _ _ _)
  | publishFault evidence => exact spares_void.trans (spares_publishFault_iff clk evidence i)
  | supersedeFault id expected reason => exact hvoid (spares_supersedeFault clk id expected reason i)
  | authorizeContainment id expected => exact hvoid (spares_authorizeContainment clk id expected i)
  | dispatchBegin generation executorAttached => exact hvoid (spares_dispatchBegin clk generation executorAttached i)
  | dispatchEnd attempts summary => exact hvoid fun _ h => by simp [dispatchEnd] at h
  | recordActionAck ack => exact iff_of_true (spares_recordActionAck clk ack i) trivial
  | recordActionResult result => exact iff_of_true (spares_recordActionResult clk result i) trivial
  | verifyContainment generation => exact hvoid (spares_verifyContainment clk generation i)
  | authorizeDegradedMode contract => exact hvoid (spares_authorizeDegradedMode clk contract i)
  | revalidateDegradedMode id => exact hvoid (spares_revalidateDegradedMode clk id i)
  | authorizeRelease request => exact hvoid (spares_authorizeRelease clk request i)
  | authorityLost worker boot detail time => exact spares_void.trans (spares_authorityLost_iff clk worker boot detail time i)
  | noteAuthorityLoss key fault => exact iff_of_true (spares_answer i _ _) trivial
  | requestShutdown => exact iff_of_true (spares_ite (spares_answer i _ _) (spares_answer i _ _)) trivial
  | persistenceFault error => exact iff_of_true (spares_answer i _ _) trivial

/-! ## Sections and their flush -/

theorem appendRecord_code {st st' : Persistence.Store} {n : ℕ} {bytes : Bytes} {outcome : Persistence.WriteOutcome}
    {e : Error} (h : Persistence.appendRecord st n bytes outcome = (st', .error e)) : e.code = .persistenceIo := by
  unfold Persistence.appendRecord at h
  split_ifs at h
  · rw [← Except.error.inj (Prod.mk.inj h).2]
    rfl
  · dsimp only at h
    split at h
    · simp at h
    · rw [← Except.error.inj (Prod.mk.inj h).2]
      rfl

/-- a flush fails with a persistence error only -/
theorem appendAll_code {outcome : ℕ → Persistence.WriteOutcome} {k : ℕ} {st : Persistence.Store}
    {ws : List (ℕ × Bytes)} {e : Error} (h : (appendAll outcome k st ws).2 = some e) : e.code = .persistenceIo := by
  induction ws generalizing k st with
  | nil => simp [appendAll] at h
  | cons w ws ih =>
    rw [appendAll] at h
    split at h
    · exact ih h
    · next st' e' happend =>
      rw [← Option.some.inj h]
      exact appendRecord_code happend

/-- a section fails to be written, or ends as it was staged -/
theorem perform_cases {α : Type} (io : Io) (step : Step α) (s : Sys) :
    (∃ e, (s.perform io step).2 = .error e ∧ e.code = .persistenceIo) ∨
      ((s.perform io step).2 = step.result ∧ (s.perform io step).1.impl = step.sealed s.impl) := by
  unfold Sys.perform Sys.flush
  dsimp only
  split_ifs
  · rcases happend : appendAll io.outcome 0 s.store (step.pending s.impl) with ⟨st, none | e⟩
    · exact .inr ⟨rfl, rfl⟩
    · exact .inl ⟨e, rfl, appendAll_code (congrArg Prod.snd happend)⟩
  · exact .inr ⟨rfl, rfl⟩
  · exact .inr ⟨rfl, rfl⟩

/-- an accepted section can only fail to be written -/
theorem perform_accepted {α : Type} {io : Io} {step : Step α} {s s' : Sys} {a : α} {e : Error}
    (ha : step.result = .ok a) (h : s.perform io step = (s', .error e)) : e.code = .persistenceIo := by
  obtain ⟨e', he', hcode⟩ | ⟨hresult, -⟩ := perform_cases io step s
  · rw [h] at he'
    exact Except.error.inj he' ▸ hcode
  · rw [h, ha] at hresult
    simp at hresult

/-- without a failed write, a section ends as it was staged -/
theorem perform_noFailure {α : Type} (step : Step α) (s : Sys) :
    (s.perform {} step).2 = step.result ∧ (s.perform {} step).1.impl = step.sealed s.impl := by
  have hcomplete : (appendAll (fun _ => .complete) 0 s.store (step.pending s.impl)).2 = none :=
    (appendAll_none_iff _ (fun w => encodeStaged_short (w := w)) 0 s.store).mpr fun _ _ => rfl
  unfold Sys.perform Sys.flush
  dsimp only
  split_ifs
  · rcases happend : appendAll (fun _ => .complete) 0 s.store (step.pending s.impl) with ⟨st, none | e⟩
    · exact ⟨rfl, rfl⟩
    · rw [happend] at hcomplete
      exact absurd hcomplete (by simp)
  · exact ⟨rfl, rfl⟩
  · exact ⟨rfl, rfl⟩

/-! ## The errors of the sections that edit before they check -/

theorem code_makeError {α : Type} {code : ErrorCode} {stage message : String} {context : Text} {e : Error}
    (h : (.error (makeError code stage message context) : Except Error α) = .error e) (hcode : code ≠ .persistenceIo) :
    e.code ≠ .persistenceIo := by
  rw [← Except.error.inj h]
  exact hcode

theorem code_registerDomain {clk : Clock} {domain : ContainmentDomain} {i : Impl} {e : Error}
    (h : (registerDomain clk domain i).result = .error e) : e.code ≠ .persistenceIo := by
  unfold registerDomain at h
  dsimp only at h
  split at h
  · exact code_makeError h (by decide)
  · split at h
    · exact code_makeError h (by decide)
    · split at h
      · exact code_makeError h (by decide)
      · simp [commit] at h

theorem code_admitFault {evidence : FaultEvidence} {i : Impl} {e : Error} (h : admitFault evidence i = .error e) :
    e.code ≠ .persistenceIo := by
  unfold admitFault at h
  split_ifs at h
  all_goals
    exact code_makeError h (by decide)

theorem code_publishFault {clk : Clock} {evidence : FaultEvidence} {i : Impl} {e : Error}
    (h : (publishFault clk evidence i).result = .error e) : e.code ≠ .persistenceIo := by
  unfold publishFault at h
  split at h
  · exact code_makeError h (by decide)
  split at h
  · exact code_makeError h (by decide)
  dsimp only at h
  split at h
  · exact code_makeError h (by decide)
  split at h
  · simp [countDuplicate] at h
  split at h
  · next hadmitted =>
    rw [← Except.error.inj h]
    exact code_admitFault hadmitted
  · simp [storeFault, commit] at h

theorem code_admitLoss {worker : WorkerId} {boot : WorkerBootId} {i : Impl} {e : Error}
    (h : admitLoss worker boot i = .error e) : e.code ≠ .persistenceIo := by
  unfold admitLoss at h
  split at h
  · exact code_makeError h (by decide)
  · split_ifs at h
    exact code_makeError h (by decide)

theorem code_authorityLost {clk : Clock} {worker : WorkerId} {boot : WorkerBootId} {detail : Text}
    {observationTimeMs : UInt64} {i : Impl} {e : Error}
    (h : (authorityLost clk worker boot detail observationTimeMs i).result = .error e) : e.code ≠ .persistenceIo := by
  cases hw : admitLoss worker boot i with
  | error e' =>
    rw [authorityLost, hw] at h
    rw [← Except.error.inj h]
    exact code_admitLoss hw
  | ok w =>
    cases hknown : knownLoss ⟨worker, boot⟩ i with
    | some containment =>
      rw [authorityLost, hw] at h
      simp [hknown, Step.answer] at h
    | none =>
      by_cases hsubject : (lossSubject (ownedBy boot i.state.topology.resources)).valid = true
      · obtain ⟨g, event, fenced, he⟩ := @authorityLost_scoped clk _ _ detail observationTimeMs _ _ hw hknown
          hsubject
        rw [he] at h
        simp [commit] at h
      · obtain ⟨e', hcode, he⟩ := @authorityLost_unscoped clk _ _ detail observationTimeMs _ _ hw hknown hsubject
        rw [he] at h
        exact Except.error.inj h ▸ hcode

theorem code_authorizeContainment {clk : Clock} {id : FaultId} {expected : FaultGeneration} {i : Impl} {e : Error}
    (h : (authorizeContainment clk id expected i).result = .error e) : e.code ≠ .persistenceIo := by
  unfold authorizeContainment at h
  split at h
  · next hadmitted =>
    rw [← Except.error.inj h]
    unfold admitContainment at hadmitted
    split at hadmitted
    · exact code_makeError hadmitted (by decide)
    · split_ifs at hadmitted
      all_goals
        exact code_makeError hadmitted (by decide)
  · split at h
    · next hradius =>
      rw [← Except.error.inj h]
      unfold admitRadius at hradius
      split at hradius
      · next hcompute =>
        rw [← Except.error.inj hradius]
        unfold BlastRadius.computeBlastRadius at hcompute
        split at hcompute
        · exact code_makeError hcompute (by decide)
        · simp at hcompute
      · split_ifs at hradius
        all_goals
          exact code_makeError hradius (by decide)
    · simp [commitContainment, commit] at h

/-! ## Public operations -/

/-- an operation that edits the engine, with the clock readings of its sections -/
inductive Mutation where
  | call (c : Call)
  | dispatchContainment (clk : ℕ → Clock) (generation : ContainmentGeneration)
      (executor : Option (ContainmentAction → Except Error Text))
  | workerAuthorityLost (clk : ℕ → Clock) (worker : WorkerId) (boot : WorkerBootId) (kind : FaultKind) (detail : Text)
      (observationTimeMs : UInt64)

/-- the engine and its store after an operation, and what it returns -/
def Mutation.perform (io : ℕ → Io) : Mutation → Sys → Sys × Except Error Unit
  | .call c, s => s.call (io 0) c
  | .dispatchContainment clk generation executor, s =>
    ((Engine.dispatchContainment clk io generation executor s).1,
      (Engine.dispatchContainment clk io generation executor s).2.map fun _ => ())
  | .workerAuthorityLost clk worker boot kind detail time, s =>
    ((Engine.workerAuthorityLost clk io worker boot kind detail time s).1,
      (Engine.workerAuthorityLost clk io worker boot kind detail time s).2.map fun _ => ())

/-- there is room for the observation, and the fault it is counted on, or else the new one, can be contained on that topology -/
def Containable (observation : FaultEvidence) (t : Topology) (i : Impl) : Prop :=
  i.state.faults.size < i.config.maxFaults ∧
    match i.faultByDigest.find observation.digest with
    | some id =>
      let counted := (i.state.faults.find id).getD {}
      Admitted i.state t counted.evidence.id counted.evidence.generation
    | none =>
      i.state.faults.has observation.id = false ∧ (i.state.policy.ruleFor observation.kind).mandatoryContainment = true ∧
        WithinBudget t i.state.policy observation.kind observation.subject

instance (observation : FaultEvidence) (t : Topology) (i : Impl) : Decidable (Containable observation t i) :=
  match h : i.faultByDigest.find observation.digest with
  | some id => decidable_of_iff (i.state.faults.size < i.config.maxFaults ∧
      Admitted i.state t ((i.state.faults.find id).getD {}).evidence.id
        ((i.state.faults.find id).getD {}).evidence.generation) <| by
    unfold Containable
    rw [h]
  | none => decidable_of_iff (i.state.faults.size < i.config.maxFaults ∧ i.state.faults.has observation.id = false ∧
      (i.state.policy.ruleFor observation.kind).mandatoryContainment = true ∧
        WithinBudget t i.state.policy observation.kind observation.subject) <| by
    unfold Containable
    rw [h]

/-- the observation of a loss, on the subject as it is fenced; it is numbered by the time, and named by the next identity -/
def lossObservation (time : UInt64) (boot : WorkerBootId) (kind : FaultKind) (detail : Text) (observationTimeMs : UInt64)
    (i : Impl) : FaultEvidence :=
  normalizeEvidence (lossEvidence kind (lossSubject (ownedBy boot i.state.topology.resources))
    (fencedGeneration time boot i.state.topology) i.state.epoch observationTimeMs detail) i

/-- an incarnation is fenced only if its fault can be contained with its resources fenced -/
def FencesWhole (clk : ℕ → Clock) (worker : WorkerId) (boot : WorkerBootId) (kind : FaultKind) (detail : Text)
    (observationTimeMs : UInt64) (i : Impl) : Prop :=
  (admitLoss worker boot i).isOk = true → knownLoss ⟨worker, boot⟩ i = none →
    (lossSubject (ownedBy boot i.state.topology.resources)).valid = true →
    Containable (lossObservation (clk 0 1) boot kind detail observationTimeMs i)
      (fencedTopology (clk 0 1) boot i.state.topology) i

instance (clk : ℕ → Clock) (worker : WorkerId) (boot : WorkerBootId) (kind : FaultKind) (detail : Text)
    (observationTimeMs : UInt64) (i : Impl) : Decidable (FencesWhole clk worker boot kind detail observationTimeMs i) :=
  inferInstanceAs (Decidable (_ → _ = none → _ → _))

/-- no section of the operation turns it down once the engine has been edited -/
def Mutation.Whole : Mutation → Impl → Prop
  | .call c, i => Rejections.Whole c.clk c.op i
  | .dispatchContainment _ _ _, _ => True
  | .workerAuthorityLost clk worker boot kind detail time, i =>
    LosesWhole (clk 0) worker boot detail i ∧ FencesWhole clk worker boot kind detail time i

/-- a section that is turned down with a persistence error is never one of those that edit before they check -/
theorem code_run {c : Call} {i : Impl} {e : Error} (h : (c.op.run c.clk i).result = .error e)
    (hnot : ¬ Whole c.clk c.op i) : e.code ≠ .persistenceIo := by
  obtain ⟨clk, op⟩ := c
  have herror : ∀ {α : Type} {step : Step α}, step.void.result = .error e → step.result = .error e := by
    intro α step hstep
    unfold Step.void at hstep
    cases hr : step.result with
    | error e' => simpa [hr, Except.map] using hstep
    | ok a => simp [hr, Except.map] at hstep
  cases op with
  | registerDomain domain => exact code_registerDomain (herror h)
  | publishFault evidence => exact code_publishFault (herror h)
  | authorityLost worker boot detail time => exact code_authorityLost (herror h)
  | _ => exact absurd trivial hnot

theorem call_iff (c : Call) (s : Sys) :
    (∀ io e, (s.call io c).2 = .error e → e.code ≠ .persistenceIo → Untouched s.impl (s.call io c).1.impl) ↔
      Whole c.clk c.op s.impl := by
  rw [← spares_iff]
  constructor
  · intro h
    by_contra hnot
    refine hnot fun e he => ?_
    obtain ⟨hresult, himpl⟩ := perform_noFailure (c.op.run c.clk s.impl) s
    have hu := h {} e (hresult.trans he) (code_run he fun hw => hnot ((spares_iff c s.impl).mpr hw))
    rwa [Sys.call, himpl] at hu
  · intro h io e he hcode
    obtain ⟨e', he', hcode'⟩ | ⟨hresult, himpl⟩ := perform_cases io (c.op.run c.clk s.impl) s
    · rw [Sys.call, he'] at he
      exact absurd (Except.error.inj he ▸ hcode') hcode
    · rw [Sys.call, himpl]
      exact h e (hresult.symm.trans he)

theorem dispatchContainment_spares {clk : ℕ → Clock} {io : ℕ → Io} {generation : ContainmentGeneration}
    {executor : Option (ContainmentAction → Except Error Text)} {s : Sys} {e : Error}
    (h : (dispatchContainment clk io generation executor s).2 = .error e) (hcode : e.code ≠ .persistenceIo) :
    Untouched s.impl (dispatchContainment clk io generation executor s).1.impl := by
  unfold dispatchContainment at h ⊢
  dsimp only at h ⊢
  split at h
  · next e' he => exact spares_dispatchBegin (clk 0) generation executor.isSome s.impl e' he
  · next toDispatch summary hr =>
    rcases hp1 : s.perform (io 0) (dispatchBegin (clk 0) generation executor.isSome s.impl) with ⟨s1, r1⟩
    rcases hp2 : s1.perform (io 1) (dispatchEnd (clk 1)
      (toDispatch.map fun a => (a, (executor.getD fun _ => .ok []) a)) summary s1.impl) with ⟨s2, r2⟩
    simp only [hp1, hp2] at h
    cases r1 with
    | error e1 => exact absurd (Except.error.inj h ▸ perform_accepted hr hp1) hcode
    | ok p1 =>
      dsimp only at h
      rw [h] at hp2
      exact absurd (perform_accepted rfl hp2) hcode

/-- every record a section stages moves the durable sequence on; the counters can always be encoded -/
theorem sealed_commit {α : Type} (i j : Impl) (time : UInt64) (entry : HistoryEvent) (before : List Event)
    (event : Option HistoryEvent → Event) (after : List Event) (a : α) :
    i.durableSequence < ((commit j time entry before event after a).sealed i).durableSequence := by
  have hcounters : (j.addHistory time entry).countersEvent ∈ (commit j time entry before event after a).staged := by
    simp [commit]
  have hsome : ∀ (n : ℕ) (es : List Event), (j.addHistory time entry).countersEvent ∈ es →
      0 < (encodeStaged n es).length := by
    intro n es hmem
    induction es generalizing n with
    | nil => simp at hmem
    | cons e es ih =>
      rw [encodeStaged]
      split
      · next hnone =>
        obtain rfl | hmem := List.mem_cons.mp hmem
        · have hencodes := counters_encodes (j.addHistory time entry)
          rw [hnone] at hencodes
          exact absurd hencodes (by simp)
        · exact ih n hmem
      · exact Nat.succ_pos _
  exact Nat.lt_add_of_pos_right (hsome _ _ hcounters)

theorem publishFault_isOk_iff {clk : Clock} {evidence : FaultEvidence} {i : Impl}
    (hsubject : evidence.subject.valid = true) : (publishFault clk evidence i).result.isOk = true ↔
      i.state.faults.size < i.config.maxFaults ∧ PublishAdmitted evidence i := by
  by_cases hroom : i.config.maxFaults ≤ i.state.faults.size
  · rw [publishFault, if_neg (not_not.mpr hsubject), if_pos hroom]
    exact iff_of_false Bool.false_ne_true fun h => absurd h.1 (not_lt.mpr hroom)
  by_cases hadmitted : PublishAdmitted evidence i
  · obtain ⟨f, hf⟩ := @publishFault_admitted clk _ _ hsubject hroom hadmitted
    rw [hf]
    exact iff_of_true rfl ⟨not_le.mp hroom, hadmitted⟩
  · obtain ⟨e, he⟩ := @publishFault_refused clk _ _ hsubject hroom hadmitted
    rw [he]
    exact iff_of_false Bool.false_ne_true fun h => hadmitted h.2

section Loss

variable {clk : ℕ → Clock} {io : ℕ → Io} {worker : WorkerId} {boot : WorkerBootId} {kind : FaultKind} {detail : Text}
  {observationTimeMs : UInt64} {s s1 s2 : Sys}

/-- the exits of `worker_authority_lost` -/
theorem workerAuthorityLost_error {e : Error}
    (h : s.perform (io 0) (authorityLost (clk 0) worker boot detail observationTimeMs s.impl) = (s1, .error e)) :
    workerAuthorityLost clk io worker boot kind detail observationTimeMs s = (s1, .error e) := by
  unfold workerAuthorityLost
  rw [h]

theorem workerAuthorityLost_known {containment : ContainmentRecord}
    (h : s.perform (io 0) (authorityLost (clk 0) worker boot detail observationTimeMs s.impl) =
      (s1, .ok (.alreadyContained containment))) :
    workerAuthorityLost clk io worker boot kind detail observationTimeMs s = (s1, .ok containment) := by
  unfold workerAuthorityLost
  rw [h]

theorem workerAuthorityLost_unpublished {subject : ResourceId} {generation : ResourceGeneration} {e : Error}
    (h1 : s.perform (io 0) (authorityLost (clk 0) worker boot detail observationTimeMs s.impl) =
      (s1, .ok (.fenced subject generation)))
    (h2 : s1.perform (io 1) (publishFault (clk 1) (lossEvidence kind subject generation s1.impl.state.epoch
      observationTimeMs detail) s1.impl) = (s2, .error e)) :
    workerAuthorityLost clk io worker boot kind detail observationTimeMs s = (s2, .error e) := by
  unfold workerAuthorityLost
  rw [h1]
  dsimp only
  rw [h2]

theorem workerAuthorityLost_published {subject : ResourceId} {generation : ResourceGeneration} {fault : FaultRecord}
    (h1 : s.perform (io 0) (authorityLost (clk 0) worker boot detail observationTimeMs s.impl) =
      (s1, .ok (.fenced subject generation)))
    (h2 : s1.perform (io 1) (publishFault (clk 1) (lossEvidence kind subject generation s1.impl.state.epoch
      observationTimeMs detail) s1.impl) = (s2, .ok fault)) :
    workerAuthorityLost clk io worker boot kind detail observationTimeMs s =
      (s2.perform (io 2) (noteAuthorityLoss ⟨worker, boot⟩ fault.evidence.id s2.impl)).1.perform (io 3)
        (authorizeContainment (clk 2) fault.evidence.id fault.evidence.generation
          (s2.perform (io 2) (noteAuthorityLoss ⟨worker, boot⟩ fault.evidence.id s2.impl)).1.impl) := by
  unfold workerAuthorityLost
  rw [h1]
  dsimp only
  rw [h2]

end Loss

/-- the subject of a loss is one of the resources it fences -/
theorem lossSubject_mem {owned : List (ResourceId × ResourceRecord)} (h : (lossSubject owned).valid = true) :
    lossSubject owned ∈ owned.map Prod.fst := by
  have hfold : ∀ (es : List (ResourceId × ResourceRecord)) (subject : ResourceId),
      es.foldl (fun subject e => if ¬ subject.valid ∨ e.2.resourceClass = .worker then e.1 else subject) subject = subject ∨
        es.foldl (fun subject e => if ¬ subject.valid ∨ e.2.resourceClass = .worker then e.1 else subject) subject ∈
          es.map Prod.fst := by
    intro es
    induction es with
    | nil => exact fun _ => .inl rfl
    | cons e es ih =>
      intro subject
      rw [List.foldl_cons, List.map_cons, List.mem_cons]
      rcases ih (if ¬ subject.valid ∨ e.2.resourceClass = .worker then e.1 else subject) with heq | hmem
      · rw [heq]
        split_ifs
        · exact .inr (.inl rfl)
        · exact .inl rfl
      · exact .inr (.inr hmem)
  rcases hfold owned {} with heq | hmem
  · rw [lossSubject, heq] at h
    exact absurd h (by decide)
  · exact hmem

/-- so it is still registered once it is fenced -/
theorem has_fencedTopology {time : UInt64} {boot : WorkerBootId} {t : Topology}
    (h : (lossSubject (ownedBy boot t.resources)).valid = true) :
    (fencedTopology time boot t).resources.has (lossSubject (ownedBy boot t.resources)) = true := by
  obtain ⟨e, he, hid⟩ := List.mem_map.mp (lossSubject_mem h)
  have hstored := (OrderedMap.mem_toList _ _ _).mp (List.mem_filter.mp he).1
  rw [fencedTopology, has_editMap, ← hid]
  exact (OrderedMap.has_iff _ _).mpr ⟨e.2, hstored⟩

/-- an incarnation is fenced exactly when it is known and current, not contained already, and owns a resource -/
theorem authorityLost_fenced_iff {clk : Clock} {worker : WorkerId} {boot : WorkerBootId} {detail : Text}
    {observationTimeMs : UInt64} {i : Impl} {subject : ResourceId} {generation : ResourceGeneration} :
    (authorityLost clk worker boot detail observationTimeMs i).result = .ok (.fenced subject generation) ↔
      (admitLoss worker boot i).isOk = true ∧ knownLoss ⟨worker, boot⟩ i = none ∧
        (lossSubject (ownedBy boot i.state.topology.resources)).valid = true ∧
        subject = lossSubject (ownedBy boot i.state.topology.resources) ∧
        generation = fencedGeneration (clk 1) boot i.state.topology := by
  cases hw : admitLoss worker boot i with
  | error e =>
    rw [authorityLost, hw]
    exact iff_of_false (by simp [Step.refuse]) fun h => Bool.false_ne_true h.1
  | ok w =>
    cases hknown : knownLoss ⟨worker, boot⟩ i with
    | some containment =>
      rw [authorityLost, hw]
      exact iff_of_false (by simp [hknown, Step.answer]) fun h => absurd h.2.1 (by simp)
    | none =>
      by_cases hsubject : (lossSubject (ownedBy boot i.state.topology.resources)).valid = true
      · obtain ⟨g, event, fenced, he⟩ := @authorityLost_scoped clk _ _ detail observationTimeMs _ _ hw hknown hsubject
        rw [he]
        constructor
        · intro h
          injection h with h
          injection h with hid hgeneration
          exact ⟨rfl, rfl, hsubject, hid.symm, hgeneration.symm⟩
        · rintro ⟨-, -, -, rfl, rfl⟩
          rfl
      · obtain ⟨e, -, he⟩ := @authorityLost_unscoped clk _ _ detail observationTimeMs _ _ hw hknown hsubject
        rw [he]
        exact iff_of_false (by simp) fun h => hsubject h.2.2.1

/-- the state a loss that fences leaves -/
theorem authorityLost_fenced {clk : Clock} {worker : WorkerId} {boot : WorkerBootId} {detail : Text}
    {observationTimeMs : UInt64} {i : Impl} {subject : ResourceId} {generation : ResourceGeneration}
    (h : (authorityLost clk worker boot detail observationTimeMs i).result = .ok (.fenced subject generation)) :
    i.durableSequence < ((authorityLost clk worker boot detail observationTimeMs i).sealed i).durableSequence ∧
      ∃ w g, (authorityLost clk worker boot detail observationTimeMs i).impl =
        (fencedImpl clk worker boot observationTimeMs w g i).addHistory (clk 0) (lossEntry boot detail) := by
  obtain ⟨hok, hknown, hsubject, -⟩ := authorityLost_fenced_iff.mp h
  cases hw : admitLoss worker boot i with
  | error e =>
    rw [hw] at hok
    exact absurd hok Bool.false_ne_true
  | ok w =>
    obtain ⟨g, event, fenced, he⟩ := @authorityLost_scoped clk _ _ detail observationTimeMs _ _ hw hknown hsubject
    rw [he]
    exact ⟨sealed_commit i _ _ _ _ _ _ _, w, g, rfl⟩

/-! ## What follows the fence -/

/-- the observation is accepted, and then the containment of the fault it is counted on or stored as -/
def FollowedUp (clk : Clock) (evidence : FaultEvidence) (i : Impl) : Prop :=
  i.state.faults.size < i.config.maxFaults ∧ PublishAdmitted evidence i ∧
    ∀ fault ∈ (publishFault clk evidence i).result.toOption,
      Admitted (publishFault clk evidence i).impl.state (publishFault clk evidence i).impl.state.topology
        fault.evidence.id fault.evidence.generation

/-- a counted observation: the fault it is counted on can be contained exactly when it could before -/
theorem admitted_counted (clk : Clock) (id : FaultId) (i : Impl) (t : Topology) :
    (∀ fault ∈ (countDuplicate clk id i).result.toOption, Admitted (countDuplicate clk id i).impl.state t fault.evidence.id
      fault.evidence.generation) ↔ Admitted i.state t ((i.state.faults.find id).getD {}).evidence.id
        ((i.state.faults.find id).getD {}).evidence.generation := by
  generalize hcounted : (i.state.faults.find id).getD {} = counted
  let copy := { counted with duplicateCount := counted.duplicateCount + 1, lastUpdatedMs := clk 0 }
  have hstep : (countDuplicate clk id i).result = .ok copy ∧
      (countDuplicate clk id i).impl.state.faults = i.state.faults.insert id copy := by
    unfold countDuplicate
    rw [hcounted]
    exact ⟨rfl, rfl⟩
  have hsame : (countDuplicate clk id i).impl.state.containments = i.state.containments ∧
      (countDuplicate clk id i).impl.state.policy = i.state.policy := ⟨rfl, rfl⟩
  rw [hstep.1]
  simp only [Except.toOption, Option.mem_def, Option.some.injEq, forall_eq']
  unfold Admitted
  rw [hstep.2, hsame.1, hsame.2, show copy.evidence = counted.evidence from rfl]
  by_cases hid : id = counted.evidence.id
  swap
  · rw [OrderedMap.find_insert_ne _ _ hid]
  rw [← hid, OrderedMap.find_insert_self]
  cases hfind : i.state.faults.find id with
  | some f =>
    rw [hfind, Option.getD_some] at hcounted
    obtain rfl := hcounted
    simp only [Option.mem_def, Option.some.injEq, exists_eq_left', copy, ready_counted]
  | none =>
    -- a record made up for a name that is not stored is as good as no record
    rw [hfind, Option.getD_none] at hcounted
    obtain rfl := hcounted
    refine iff_of_false ?_ (by rintro ⟨f, hf, -⟩; cases hf)
    rintro ⟨f, hf, -, hready, -⟩
    obtain rfl := Option.some.inj hf
    have hobserved : isLegalFaultTransition .observed .containmentInProgress = false := by decide
    exact absurd (hobserved.symm.trans hready.legal) Bool.false_ne_true

/-- an observation that only the epoch and the topology speak about: what follows it can be read off the state before -/
theorem followedUp_iff (clk : Clock) {evidence : FaultEvidence} {i : Impl} (hsubject : evidence.subject.valid = true)
    (hepoch : (normalizeEvidence evidence i).epoch = i.state.epoch)
    (hregistered : i.state.topology.resources.has evidence.subject = true) (hreporter : evidence.reporterKind ≠ .worker) :
    FollowedUp clk evidence i ↔ Containable (normalizeEvidence evidence i) i.state.topology i := by
  unfold FollowedUp Containable
  refine and_congr_right fun hroom => ?_
  have haccepted : Accepted evidence i := ⟨hsubject, hroom, hepoch⟩
  obtain ⟨htopology, hpolicy, hcontainments⟩ := publishFault_frame clk evidence i
  have hstate := (allocateFault_reads evidence i).1
  unfold PublishAdmitted
  cases publishFault_cases clk evidence i with
  | rejected j e hnot _ _ _ => exact absurd haccepted hnot
  | duplicate id _ hknown hstep =>
    have hhas := (OrderedMap.has_iff _ _).mpr ⟨id, hknown⟩
    rw [hknown, htopology, hstep, admitted_counted, hstate]
    exact and_iff_right ⟨hepoch, .inl hhas⟩
  | refused e _ hknown hadmitted hstep =>
    rw [hknown, hstep]
    have hhas : i.faultByDigest.has (normalizeEvidence evidence i).digest = false := (OrderedMap.has_eq_false _ _).mpr hknown
    refine iff_of_false (fun h => ?_) fun h => ?_
    · rcases h.1.2 with h | h
      · exact absurd (hhas.symm.trans h) (by decide)
      · rw [hadmitted] at h
        exact absurd h Bool.false_ne_true
    · unfold admitFault at hadmitted
      rw [if_neg (by rw [h.1]; exact Bool.false_ne_true)] at hadmitted
      split_ifs at hadmitted with hknown' hstale
      · exact hreporter hstale.1
      · exact hknown' hregistered
  | fresh _ hknown hadmitted hstep =>
    have hnew : i.state.faults.has (normalizeEvidence evidence i).id = false := by
      unfold admitFault at hadmitted
      split_ifs at hadmitted with hhas
      exact Bool.eq_false_of_not_eq_true hhas
    have hadmitted' := hadmitted
    rw [← admitFault_allocate _ evidence] at hadmitted'
    obtain ⟨-, hfaults, -, hresult⟩ := storeFault_stored clk hadmitted'
    rw [hstate] at hfaults hresult
    rw [← hstep] at hfaults hresult
    have hfind : (publishFault clk evidence i).impl.state.faults.find (normalizeEvidence evidence i).id =
        some (newFault (clk 0) (normalizeEvidence evidence i) i.state.policy) := by
      rw [hfaults]
      exact OrderedMap.find_insert_self _ _ _
    have hnow := @admitted_iff _ _ _ i.state.topology hfind
    rw [hcontainments, hpolicy, ready_new] at hnow
    rw [hknown, hresult, htopology]
    simp only [Except.toOption, Option.mem_def, Option.some.injEq, forall_eq']
    rw [and_iff_right ⟨hepoch, .inr (by rw [hadmitted]; rfl)⟩, and_iff_right hnew]
    exact hnow

/-- what is asked of the state before is what is asked of the sections that follow the fence -/
theorem fencesWhole_iff (clk : ℕ → Clock) (worker : WorkerId) (boot : WorkerBootId) (kind : FaultKind) (detail : Text)
    (observationTimeMs : UInt64) (i : Impl) :
    FencesWhole clk worker boot kind detail observationTimeMs i ↔ ∀ subject generation,
      (authorityLost (clk 0) worker boot detail observationTimeMs i).result = .ok (.fenced subject generation) →
        FollowedUp (clk 1) (lossEvidence kind subject generation
            ((authorityLost (clk 0) worker boot detail observationTimeMs i).sealed i).state.epoch observationTimeMs detail)
          ((authorityLost (clk 0) worker boot detail observationTimeMs i).sealed i) := by
  have hsame : ∀ subject generation,
      (authorityLost (clk 0) worker boot detail observationTimeMs i).result = .ok (.fenced subject generation) →
      (FollowedUp (clk 1) (lossEvidence kind subject generation
          ((authorityLost (clk 0) worker boot detail observationTimeMs i).sealed i).state.epoch observationTimeMs detail)
        ((authorityLost (clk 0) worker boot detail observationTimeMs i).sealed i) ↔
        Containable (lossObservation (clk 0 1) boot kind detail observationTimeMs i)
          (fencedTopology (clk 0 1) boot i.state.topology) i) := by
    intro subject generation h
    obtain ⟨-, -, hsubject, rfl, rfl⟩ := authorityLost_fenced_iff.mp h
    obtain ⟨-, w, g, himpl⟩ := authorityLost_fenced h
    rw [Step.sealed, himpl]
    rw [followedUp_iff (clk 1) (by exact hsubject) ?_ (by exact has_fencedTopology hsubject)
      (by exact (by decide : ReporterKind.coordinator ≠ .worker))]
    · exact Iff.rfl
    · show (if (_ : CoordinatorEpoch).valid = true then _ else _) = _
      split_ifs
      · rfl
      · rfl
  unfold FencesWhole
  constructor
  · intro hwhole subject generation h
    obtain ⟨hok, hknown, hsubject, -⟩ := authorityLost_fenced_iff.mp h
    exact (hsame subject generation h).mpr (hwhole hok hknown hsubject)
  · intro hfollowed hok hknown hsubject
    have h := (@authorityLost_fenced_iff (clk 0) worker boot detail observationTimeMs i _ _).mpr
      ⟨hok, hknown, hsubject, rfl, rfl⟩
    exact (hsame _ _ h).mp (hfollowed _ _ h)

/-- a loss whose fault and containment are accepted is never turned down -/
theorem loss_followed {clk : ℕ → Clock} {io : ℕ → Io} {worker : WorkerId} {boot : WorkerBootId} {kind : FaultKind}
    {detail : Text} {observationTimeMs : UInt64} {s : Sys} {subject : ResourceId} {generation : ResourceGeneration}
    {e : Error}
    (hfenced : (authorityLost (clk 0) worker boot detail observationTimeMs s.impl).result =
      .ok (.fenced subject generation))
    (hwhole : FencesWhole clk worker boot kind detail observationTimeMs s.impl)
    (h : (workerAuthorityLost clk io worker boot kind detail observationTimeMs s).2 = .error e) :
    e.code = .persistenceIo := by
  obtain ⟨hroom, hadmitted, hfollows⟩ := (fencesWhole_iff ..).mp hwhole subject generation hfenced
  obtain ⟨-, -, hvalid, hid, -⟩ := authorityLost_fenced_iff.mp hfenced
  have hsubject : subject.valid = true := hid ▸ hvalid
  rcases hp1 : s.perform (io 0) (authorityLost (clk 0) worker boot detail observationTimeMs s.impl) with ⟨s1, e1 | x⟩
  · rw [workerAuthorityLost_error hp1] at h
    exact Except.error.inj h ▸ perform_accepted hfenced hp1
  have himpl1 : s1.impl = (authorityLost (clk 0) worker boot detail observationTimeMs s.impl).sealed s.impl ∧
      x = .fenced subject generation := by
    obtain ⟨e', he', -⟩ | ⟨hresult, himpl⟩ := perform_cases (io 0)
      (authorityLost (clk 0) worker boot detail observationTimeMs s.impl) s
    · rw [hp1] at he'
      simp at he'
    · rw [hp1] at hresult himpl
      exact ⟨himpl, Except.ok.inj (hresult.trans hfenced)⟩
  obtain ⟨himpl1, rfl⟩ := himpl1
  rw [← himpl1] at hroom hadmitted hfollows
  generalize hev : lossEvidence kind subject generation s1.impl.state.epoch observationTimeMs detail = evidence at *
  have hsubject' : evidence.subject.valid = true := by
    rw [← hev]
    exact hsubject
  obtain ⟨fault, hfault⟩ := @publishFault_admitted (clk 1) _ _ hsubject' (not_le.mpr hroom) hadmitted
  rcases hp2 : s1.perform (io 1) (publishFault (clk 1) evidence s1.impl) with ⟨s2, e2 | f⟩
  · rw [workerAuthorityLost_unpublished hp1 (hev.symm ▸ hp2)] at h
    exact Except.error.inj h ▸ perform_accepted hfault hp2
  have hstate2 : f = fault ∧ s2.impl.state = (publishFault (clk 1) evidence s1.impl).impl.state := by
    obtain ⟨e', he', -⟩ | ⟨hresult, himpl⟩ := perform_cases (io 1) (publishFault (clk 1) evidence s1.impl) s1
    · rw [hp2] at he'
      simp at he'
    · rw [hp2] at hresult himpl
      have hsealed : s2.impl.state = ((publishFault (clk 1) evidence s1.impl).sealed s1.impl).state :=
        congrArg Impl.state himpl
      exact ⟨Except.ok.inj (hresult.trans hfault), hsealed⟩
  obtain ⟨rfl, hstate2⟩ := hstate2
  rw [workerAuthorityLost_published hp1 (hev.symm ▸ hp2)] at h
  have hauthorized := hfollows f (by rw [hfault]; rfl)
  generalize hs3 : (s2.perform (io 2) (noteAuthorityLoss ⟨worker, boot⟩ f.evidence.id s2.impl)).1 = s3 at h
  have hstate3 : s3.impl.state = (publishFault (clk 1) evidence s1.impl).impl.state := by
    rw [← hs3, perform_unflushed _ _ rfl]
    exact hstate2
  obtain ⟨c, hc⟩ : ∃ c, (authorizeContainment (clk 2) f.evidence.id f.evidence.generation s3.impl).result = .ok c := by
    rw [← hstate3] at hauthorized
    have hok := (authorizeContainment_isOk_iff (clk 2) _ _ _).mpr hauthorized
    cases hr : (authorizeContainment (clk 2) f.evidence.id f.evidence.generation s3.impl).result with
    | error e => rw [hr] at hok; exact absurd hok Bool.false_ne_true
    | ok c => exact ⟨c, rfl⟩
  rcases hp3 : s3.perform (io 3) (authorizeContainment (clk 2) f.evidence.id f.evidence.generation s3.impl) with ⟨s4, r4⟩
  rw [hp3] at h
  dsimp only at h
  rw [h] at hp3
  exact perform_accepted hc hp3

/-- a loss whose fault or containment is turned down has moved the durable sequence on -/
theorem loss_abandoned {clk : ℕ → Clock} {worker : WorkerId} {boot : WorkerBootId} {kind : FaultKind} {detail : Text}
    {observationTimeMs : UInt64} {s : Sys} (hnot : ¬ FencesWhole clk worker boot kind detail observationTimeMs s.impl) :
    ∃ e, (workerAuthorityLost clk noFailure worker boot kind detail observationTimeMs s).2 = .error e ∧
      e.code ≠ .persistenceIo ∧ s.impl.durableSequence <
        (workerAuthorityLost clk noFailure worker boot kind detail observationTimeMs s).1.impl.durableSequence := by
  rw [fencesWhole_iff] at hnot
  obtain ⟨subject, hnot⟩ := not_forall.mp hnot
  obtain ⟨generation, hnot⟩ := not_forall.mp hnot
  obtain ⟨hfenced, hnot⟩ := Classical.not_imp.mp hnot
  obtain ⟨-, -, hvalid, hid, -⟩ := authorityLost_fenced_iff.mp hfenced
  have hsubject : subject.valid = true := hid ▸ hvalid
  obtain ⟨hmoved, -⟩ := authorityLost_fenced hfenced
  obtain ⟨hresult1, himpl1⟩ := perform_noFailure (authorityLost (clk 0) worker boot detail observationTimeMs s.impl) s
  rcases hp1 : s.perform (noFailure 0) (authorityLost (clk 0) worker boot detail observationTimeMs s.impl) with ⟨s1, r1⟩
  rw [hp1] at hresult1 himpl1
  obtain rfl : r1 = .ok (.fenced subject generation) := hresult1.trans hfenced
  dsimp only at himpl1
  rw [← himpl1] at hnot hmoved
  generalize hev : lossEvidence kind subject generation s1.impl.state.epoch observationTimeMs detail = evidence at *
  have hsubject' : evidence.subject.valid = true := by
    rw [← hev]
    exact hsubject
  obtain ⟨hresult2, himpl2⟩ := perform_noFailure (publishFault (clk 1) evidence s1.impl) s1
  have hseq2 := perform_sequence (noFailure 1) s1 (publishFault (clk 1) evidence s1.impl)
  rcases hp2 : s1.perform (noFailure 1) (publishFault (clk 1) evidence s1.impl) with ⟨s2, e2 | fault⟩
  · -- the fault is turned down
    rw [hp2] at hresult2 hseq2
    rw [workerAuthorityLost_unpublished hp1 (hev.symm ▸ hp2)]
    refine ⟨e2, rfl, code_publishFault hresult2.symm, ?_⟩
    dsimp only at hseq2 ⊢
    omega
  -- the containment is turned down
  rw [hp2] at hresult2 himpl2 hseq2
  rw [workerAuthorityLost_published hp1 (hev.symm ▸ hp2)]
  generalize hs3 : (s2.perform (noFailure 2) (noteAuthorityLoss ⟨worker, boot⟩ fault.evidence.id s2.impl)).1 = s3
  have hnoted : s3.impl.state = s2.impl.state ∧ s3.impl.durableSequence = s2.impl.durableSequence := by
    rw [← hs3, perform_unflushed _ _ rfl]
    exact ⟨rfl, rfl⟩
  have hsealed2 : s2.impl.state = ((publishFault (clk 1) evidence s1.impl).sealed s1.impl).state :=
    congrArg Impl.state himpl2
  have hstate3 : s3.impl.state = (publishFault (clk 1) evidence s1.impl).impl.state := hnoted.1.trans hsealed2
  have hpublished := (@publishFault_isOk_iff (clk 1) _ _ hsubject').mp (by rw [← hresult2]; rfl)
  have hrefused : ¬ Admitted s3.impl.state s3.impl.state.topology fault.evidence.id fault.evidence.generation := by
    intro hadmitted
    rw [hstate3] at hadmitted
    refine hnot ⟨hpublished.1, hpublished.2, fun f hf => ?_⟩
    rw [← hresult2] at hf
    obtain rfl : fault = f := Option.some.inj hf
    exact hadmitted
  obtain ⟨hresult4, -⟩ := perform_noFailure
    (authorizeContainment (clk 2) fault.evidence.id fault.evidence.generation s3.impl) s3
  have hseq4 := perform_sequence (noFailure 3) s3
    (authorizeContainment (clk 2) fault.evidence.id fault.evidence.generation s3.impl)
  obtain ⟨e, he⟩ := isOk_eq_false fun hok =>
    hrefused ((authorizeContainment_isOk_iff (clk 2) _ _ _).mp hok)
  refine ⟨e, hresult4.trans he, code_authorizeContainment he, ?_⟩
  dsimp only at hseq2
  omega

/-- **Rejected operations.** Whatever becomes of the writes, an operation that returns an error other than that of a failed
write leaves the engine untouched, exactly when none of its sections turns it down once the engine has been edited. -/
theorem rejected_iff (m : Mutation) (s : Sys) :
    (∀ io e, (m.perform io s).2 = .error e → e.code ≠ .persistenceIo → Untouched s.impl (m.perform io s).1.impl) ↔
      m.Whole s.impl := by
  have hvoid : ∀ {α : Type} {x : Except Error α} {e : Error}, (x.map fun _ => ()) = .error e ↔ x = .error e := by
    intro α x e
    cases x <;> simp [Except.map]
  cases m with
  | call c =>
    rw [Mutation.Whole, ← call_iff]
    exact ⟨fun h io => h fun _ => io, fun h io => h (io 0)⟩
  | dispatchContainment clk generation executor =>
    exact iff_of_true (fun io e he hcode => dispatchContainment_spares (hvoid.mp he) hcode) trivial
  | workerAuthorityLost clk worker boot kind detail time =>
    rw [Mutation.Whole, ← spares_authorityLost_iff (clk 0) worker boot detail time s.impl]
    constructor
    · intro h
      constructor
      · intro e he
        obtain ⟨hresult, himpl⟩ := perform_noFailure (authorityLost (clk 0) worker boot detail time s.impl) s
        rcases hp : s.perform {} (authorityLost (clk 0) worker boot detail time s.impl) with ⟨s1, r1⟩
        rw [hp] at hresult himpl
        obtain rfl : r1 = .error e := hresult.trans he
        have hexit := @workerAuthorityLost_error clk noFailure worker boot kind detail time s s1 e hp
        have hu := h noFailure e (by simp only [Mutation.perform, hexit, Except.map]) (code_authorityLost he)
        simp only [Mutation.perform, hexit] at hu
        exact himpl ▸ hu
      · by_contra hnot
        obtain ⟨e, he, hcode, hmoved⟩ := loss_abandoned hnot
        have hu := h noFailure e (hvoid.mpr he) hcode
        exact absurd hu.durableSequence (ne_of_gt hmoved)
    · intro ⟨hspares, hfences⟩ io e he hcode
      have he := hvoid.mp he
      rcases hp : s.perform (io 0) (authorityLost (clk 0) worker boot detail time s.impl) with ⟨s1, r1⟩
      obtain ⟨e', he', hcode'⟩ | ⟨hresult, himpl⟩ := perform_cases (io 0)
        (authorityLost (clk 0) worker boot detail time s.impl) s
      · rw [hp] at he'
        dsimp only at he'
        subst he'
        rw [workerAuthorityLost_error hp] at he
        exact absurd (Except.error.inj he ▸ hcode') hcode
      rw [hp] at hresult himpl
      dsimp only at hresult himpl
      match r1, hresult with
      | .error e1, hresult =>
        simp only [Mutation.perform, workerAuthorityLost_error hp, himpl]
        exact hspares e1 hresult.symm
      | .ok (.alreadyContained containment), _ =>
        rw [workerAuthorityLost_known hp] at he
        simp at he
      | .ok (.fenced subject generation), hresult =>
        exact absurd (loss_followed hresult.symm hfences he) hcode

/-- an engine and its store after an operation whose writes all succeed -/
def Mutation.after (m : Mutation) (s : Sys) : Sys := (m.perform noFailure s).1

/-- a fresh engine without a store -/
def bare : Sys := { impl := construct ticks {}, attached := false }

/-- a resource, and a domain it belongs to -/
def claimed : List Mutation :=
  [.call ⟨ticks, .registerResource { id := ⟨1⟩ }⟩, .call ⟨ticks, .registerDomain { id := ⟨1⟩, members := [⟨1⟩] }⟩]

/-- A second domain that lists a claimed resource is turned down, and the topology generation has advanced. -/
theorem secondDomain_advances : ¬ ∀ (ms : List Mutation) (m : Mutation) (io : ℕ → Io) (e : Error),
    (m.perform io (Runs.run Mutation.after ms bare)).2 = .error e → e.code ≠ .persistenceIo →
    Untouched (Runs.run Mutation.after ms bare).impl (m.perform io (Runs.run Mutation.after ms bare)).1.impl := by
  intro h
  let second : ContainmentDomain := { id := ⟨2⟩, members := [⟨1⟩] }
  have hwhole : RegistersWhole second (Runs.run Mutation.after claimed bare).impl :=
    (call_iff ⟨ticks, .registerDomain second⟩ _).mp fun io => h claimed (.call ⟨ticks, .registerDomain second⟩) fun _ => io
  exact absurd hwhole (by decide +kernel)

end FaultContainment.Rejections
