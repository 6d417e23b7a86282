/-
Worker incarnations and epochs.

A fresh boot of a worker revokes the previous one, and every epoch advance suspends live incarnations, distrusts all
evidence and leaves actions in flight ambiguous. `authorityLost` is the first locked section of `worker_authority_lost`; it
stages the revoked incarnation before it knows whether any resource is bound to it.

- `editEach`: the loop that edits resources one by one, each under a new topology generation and a staged record.
-/
import FaultContainment.Engine.Topology

namespace FaultContainment.Engine

open FaultContainment.Lib FaultContainment.Ids FaultContainment.Enums FaultContainment.Records
open FaultContainment.DurableEvent

/-! ## Registration -/

/-- the revocation of the worker's current incarnation by a fresh boot, and what it stages -/
def revokePrevious (clk : Clock) (worker : WorkerId) (boot : WorkerBootId) (i : Impl) : Impl × List Event :=
  match i.state.workers.currentBoot.find worker with
  | none => (i, [])
  | some current =>
    if current = boot then (i, [])
    else
      match i.state.workers.incarnations.find ⟨worker, current⟩ with
      | none => (i, [])
      | some previous =>
        let revoked := { previous with state := .authorityRevoked, freshness := .revalidationRequired }
        let i := i.withIncarnations (i.state.workers.incarnations.insert ⟨worker, current⟩ revoked)
        let i := i.withResources (i.state.topology.resources.updateAll previous.liveAuthority fun r =>
          { r with freshness := .revalidationRequired })
        let entry : HistoryEvent :=
          { type := .workerAuthorityRevoked
            detail := lit "previous incarnation " ++ current.text ++ lit " revoked by fresh boot " ++ boot.text
            authority := lit "WorkerBootId " ++ current.text }
        (i.addHistory (clk 0) entry, [⟨.workerUpsert, revoked, some (i.stamped (clk 0) entry)⟩])

/-- the resources that already name an incarnation as their owner -/
def boundResources (worker : WorkerId) (boot : WorkerBootId) (m : OrderedMap ResourceId ResourceRecord) :
    IdSet .resourceId :=
  idSetOf ((m.toList.filter fun e => e.2.ownerBoot = boot && e.2.ownerWorker = worker).map Prod.fst)

/-- "CoordinatorEpoch …; WorkerBootId …" -/
def bootAuthority (i : Impl) (boot : WorkerBootId) : Text :=
  lit "CoordinatorEpoch " ++ i.state.epoch.text ++ lit "; WorkerBootId " ++ boot.text

/-- the registration of an incarnation the registry does not know -/
def registerFresh (clk : Clock) (worker : WorkerId) (boot : WorkerBootId) (endpoint : Text)
    (sequence : EvidenceSequence) (i : Impl) : Step WorkerRecord :=
  let (i, revocation) := revokePrevious clk worker boot i
  let incarnation := nextGeneration ((i.state.workers.lastIncarnation.find worker).getD {})
  let stored : WorkerRecord :=
    { key := ⟨worker, boot⟩
      incarnation := incarnation
      registeredEpoch := i.state.epoch
      state := .active
      lastSequence := sequence
      freshness := .revalidationRequired
      registeredAtMs := clk 1
      lastSeenMs := clk 1
      endpoint := endpoint
      liveAuthority := boundResources worker boot i.state.topology.resources }
  let i := { i with state := { i.state with workers := { i.state.workers with
    lastIncarnation := i.state.workers.lastIncarnation.insert worker incarnation
    incarnations := i.state.workers.incarnations.insert ⟨worker, boot⟩ stored
    currentBoot := i.state.workers.currentBoot.insert worker boot } } }
  commit i (clk 2)
    { type := .workerRegistered
      detail := lit "worker " ++ worker.text ++ lit " registered as boot " ++ boot.text ++ lit " incarnation " ++
        incarnation.text
      authority := bootAuthority i boot }
    revocation (⟨.workerUpsert, stored, ·⟩) [⟨.workerCurrentBoot, (worker, boot), none⟩] stored

/-- the readmission of a suspended incarnation under a new epoch; its evidence is not restored -/
def reattach (clk : Clock) (key : WorkerKey) (existing : WorkerRecord) (i : Impl) : Step WorkerRecord :=
  let reopened := { existing with state := .active, registeredEpoch := i.state.epoch, lastSeenMs := clk 0 }
  let i := i.withIncarnations (i.state.workers.incarnations.insert key reopened)
  commit i (clk 1)
    { type := .workerRegistered
      detail := lit "incarnation " ++ key.boot.text ++ lit " reattached at epoch " ++ i.state.epoch.text ++
        lit "; evidence revalidation still required"
      authority := bootAuthority i key.boot }
    [] (⟨.workerUpsert, reopened, ·⟩) [] reopened

/-- `register_worker` -/
def registerWorker (clk : Clock) (worker : WorkerId) (boot : WorkerBootId) (endpoint : Text)
    (sequence : EvidenceSequence) (i : Impl) : Step WorkerRecord :=
  if ¬ worker.valid ∨ ¬ boot.valid then
    .refuse i (makeError .invalidId "worker.register" "worker identity and boot identity are both required")
  else if i.config.maxWorkers ≤ i.state.workers.incarnations.size then
    .refuse i (makeError .resourceExhausted "worker.register" "worker ceiling reached")
  else
    match i.state.workers.incarnations.find ⟨worker, boot⟩ with
    | none => registerFresh clk worker boot endpoint sequence i
    | some existing =>
      if ¬ existing.registeredEpoch.valid then
        -- a placeholder is not a registration
        registerFresh clk worker boot endpoint sequence
          (i.withIncarnations (i.state.workers.incarnations.erase ⟨worker, boot⟩))
      else if existing.endpoint ≠ endpoint then
        .refuse i (makeError .duplicateConflict "worker.register"
          "the same boot identity registered with conflicting details" boot.text)
      else if existing.state = .suspect ∧ existing.registeredEpoch ≠ i.state.epoch then
        reattach clk ⟨worker, boot⟩ existing i
      else .answer i existing

/-- `retire_worker` -/
def retireWorker (clk : Clock) (worker : WorkerId) (boot : WorkerBootId) (reason : Text) (i : Impl) : Step Unit :=
  match i.state.workers.incarnations.find ⟨worker, boot⟩ with
  | none => .refuse i (makeError .unknownWorker "worker.retire" "worker incarnation not found" boot.text)
  | some w =>
    if w.state = .retired then .answer i ()
    else
      let stored := { w with state := .retired, freshness := .revalidationRequired, liveAuthority := [] }
      let i := i.withIncarnations (i.state.workers.incarnations.insert ⟨worker, boot⟩ stored)
      commit i (clk 0)
        { type := .workerRetired, detail := lit "worker boot " ++ boot.text ++ lit " retired: " ++ reason
          authority := lit "WorkerBootId " ++ boot.text }
        [] (⟨.workerUpsert, stored, ·⟩) [] ()

/-! ## Epochs -/

/-- live authority never survives an epoch advance -/
def suspend (w : WorkerRecord) : WorkerRecord :=
  if holdsLiveAuthority w.state then { w with state := .suspect, freshness := .revalidationRequired } else w

/-- evidence is distrusted until it is refreshed -/
def distrust (r : ResourceRecord) : ResourceRecord := { r with freshness := .revalidationRequired }

/-- an action in flight across an epoch advance is neither done nor undone -/
def makeAmbiguous (a : ContainmentAction) : ContainmentAction :=
  if a.status = .dispatched ∨ a.status = .acknowledged ∨ a.status = .authorized then
    { a with status := .ambiguous, rejectionCode := .revalidationRequired
             rejectionDetail := lit "coordinator epoch advanced before completion" }
  else a

/-- `begin_epoch` -/
def beginEpoch (clk : Clock) (nowMs : UInt64) (reason : Text) (i : Impl) : Step CoordinatorEpoch :=
  let i := { i with state := { i.state with epoch := nextGeneration i.state.epoch, nowMs := nowMs } }
  let i := i.withIncarnations (i.state.workers.incarnations.mapVals fun _ w => suspend w)
  let i := i.withResources (i.state.topology.resources.mapVals fun _ r => distrust r)
  let i := i.withActions (i.state.actions.mapVals fun _ a => makeAmbiguous a)
  commit i (clk 0)
    { type := .epochAdvanced, detail := lit "epoch advanced to " ++ i.state.epoch.text ++ lit ": " ++ reason
      authority := lit "CoordinatorEpoch " ++ i.state.epoch.text }
    [] (⟨.history, (), ·⟩) [] i.state.epoch

/-! ## Loss of authority -/

/-- edits registered resources one by one; each edit advances the topology generation and stages the record -/
def editEach (f : ResourceRecord → Option ResourceRecord) : List ResourceId → Impl → Impl × List Event
  | [], i => (i, [])
  | k :: ks, i =>
    match (i.state.topology.resources.find k).bind f with
    | none => editEach f ks i
    | some r =>
      let (i, events) := editEach f ks (i.withResources (i.state.topology.resources.insert k r)).advanceTopology
      (i, ⟨.resourceUpsert, r, none⟩ :: events)

/-- the resources `editEach` leaves -/
def editMap (f : ResourceRecord → Option ResourceRecord) (ks : List ResourceId)
    (m : OrderedMap ResourceId ResourceRecord) : OrderedMap ResourceId ResourceRecord :=
  ks.foldl (fun m k => match (m.find k).bind f with | none => m | some r => m.insert k r) m

theorem editMap_cons (f : ResourceRecord → Option ResourceRecord) (k : ResourceId) (ks : List ResourceId)
    (m : OrderedMap ResourceId ResourceRecord) :
    editMap f (k :: ks) m = editMap f ks (match (m.find k).bind f with | none => m | some r => m.insert k r) := rfl

/-- an edit of one resource that is never passed over -/
theorem editMap_single (f : ResourceRecord → ResourceRecord) (k : ResourceId) (m : OrderedMap ResourceId ResourceRecord) :
    editMap (fun r => some (f r)) [k] m = m.update k f := by
  unfold OrderedMap.update
  rw [editMap_cons]
  cases m.find k <;> rfl

/-- an edit adds and drops no resource -/
theorem has_editMap (f : ResourceRecord → Option ResourceRecord) (ks : List ResourceId)
    (m : OrderedMap ResourceId ResourceRecord) (k : ResourceId) : (editMap f ks m).has k = m.has k := by
  induction ks generalizing m with
  | nil => rfl
  | cons a ks ih =>
    rw [editMap_cons]
    split
    · exact ih m
    · next r hr =>
      obtain ⟨stored, hstored, -⟩ := Option.bind_eq_some_iff.mp hr
      rw [ih, OrderedMap.has, OrderedMap.find_insert]
      split_ifs with ha
      · rw [← ha, OrderedMap.has, hstored]
        rfl
      · rfl

/-- `editEach` changes the resources and the topology generation, nothing else -/
theorem editEach_frame (f : ResourceRecord → Option ResourceRecord) (ks : List ResourceId) (i : Impl) :
    ∃ g, (editEach f ks i).1 = (i.withResources (editMap f ks i.state.topology.resources)).withTopologyGeneration g := by
  induction ks generalizing i with
  | nil => exact ⟨i.state.topologyGeneration, rfl⟩
  | cons k ks ih =>
    unfold editEach
    rw [editMap_cons]
    split
    · exact ih i
    · next r hr =>
      obtain ⟨g, hg⟩ := ih (i.withResources (i.state.topology.resources.insert k r)).advanceTopology
      exact ⟨g, hg⟩

theorem editEach_resources (f : ResourceRecord → Option ResourceRecord) (ks : List ResourceId) (i : Impl) :
    (editEach f ks i).1.state.topology.resources = editMap f ks i.state.topology.resources := by
  obtain ⟨g, h⟩ := editEach_frame f ks i
  rw [h]; rfl

theorem editEach_containments (f : ResourceRecord → Option ResourceRecord) (ks : List ResourceId) (i : Impl) :
    (editEach f ks i).1.state.containments = i.state.containments := by
  obtain ⟨g, h⟩ := editEach_frame f ks i
  rw [h]; rfl

/-- the resources owned by a boot, in order -/
def ownedBy (boot : WorkerBootId) (m : OrderedMap ResourceId ResourceRecord) : List (ResourceId × ResourceRecord) :=
  m.toList.filter fun e => e.2.ownerBoot = boot

/-- the subject of the fault: the first owned resource, or the last of class WORKER -/
def lossSubject (owned : List (ResourceId × ResourceRecord)) : ResourceId :=
  owned.foldl (fun subject e => if ¬ subject.valid ∨ e.2.resourceClass = .worker then e.1 else subject) {}

/-- real process containment of a resource whose owner is gone -/
def fenceLost (time : UInt64) (r : ResourceRecord) : ResourceRecord :=
  { r with
    state := .fenced, quarantined := true, mechanism := .processContainment, freshness := .revalidationRequired
    generation := nextGeneration r.generation, updatedAtMs := time }

/-- what the first section of `worker_authority_lost` hands on -/
inductive LossOutcome where
  | alreadyContained (containment : ContainmentRecord)
  | fenced (subject : ResourceId) (generation : ResourceGeneration)

/-- the containment already committed for an incarnation, if any -/
def knownLoss (key : WorkerKey) (i : Impl) : Option ContainmentRecord := do
  let id ← i.authorityLossFaults.find key
  let fault ← i.state.faults.find id
  if fault.containmentGeneration.valid then i.state.containments.find fault.containmentGeneration else none

/-- the checks of `worker_authority_lost`; the incarnation as it was -/
def admitLoss (worker : WorkerId) (boot : WorkerBootId) (i : Impl) : Except Error WorkerRecord :=
  match i.state.workers.incarnations.find ⟨worker, boot⟩ with
  | none => .error (makeError .unknownWorker "worker.authority_lost" "worker incarnation not found" boot.text)
  | some w =>
    if i.state.workers.currentBoot.find worker = some boot then .ok w
    else .error (makeError .staleWorkerBoot "worker.authority_lost" "a newer incarnation is already current" boot.text)

/-- `worker_authority_lost`, up to the release of the lock -/
def authorityLost (clk : Clock) (worker : WorkerId) (boot : WorkerBootId) (detail : Text)
    (observationTimeMs : UInt64) (i : Impl) : Step LossOutcome :=
  match admitLoss worker boot i with
  | .error e => .refuse i e
  | .ok w =>
    match knownLoss ⟨worker, boot⟩ i with
    | some containment => .answer i (.alreadyContained containment)
    | none =>
      let stored := { w with
        state := .authorityRevoked, freshness := .revalidationRequired
        lastSeenMs := if w.state ≠ .authorityRevoked then observationTimeMs else w.lastSeenMs }
      let i := i.withIncarnations (i.state.workers.incarnations.insert ⟨worker, boot⟩ stored)
      let entry : HistoryEvent :=
        { type := .workerAuthorityRevoked, detail := lit "authority revoked for boot " ++ boot.text ++ lit ": " ++ detail
          authority := lit "WorkerBootId " ++ boot.text }
      let owned := ownedBy boot i.state.topology.resources
      let subject := lossSubject owned
      if ¬ subject.valid then
        -- the record staged so far is never flushed
        { impl := i.addHistory (clk 0) entry
          staged := [⟨.workerUpsert, stored, some (i.stamped (clk 0) entry)⟩]
          flushed := false
          result := .error (makeError .unknownResource "worker.authority_lost"
            ("no resource is bound to this worker incarnation, so the blast radius cannot be scoped; register the " ++
              "worker's resources before registering the worker") boot.text) }
      else
        let (i, fenced) := editEach (fun r => some (fenceLost (clk 1) r)) (owned.map Prod.fst) i
        commit i (clk 0) entry [] (⟨.workerUpsert, stored, ·⟩) fenced
          (.fenced subject (((i.state.topology.resources.find subject).map (·.generation)).getD {}))

end FaultContainment.Engine
