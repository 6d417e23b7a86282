/-
Worker incarnations, over runs of operations, snapshots and recoveries.

The worker registry keeps every incarnation it ever knew and one current boot for each worker. In memory an incarnation may
be suspended by an epoch advance, which no record says; the registry a recovery would rebuild (the base of the last
snapshot, brought forward by the worker records staged since) agrees with the one in memory on which incarnations have
ended and which boot is current, and that is all the guarantee needs.

- `turn_after`: what one operation does to the registry, and the worker records it stages.
- `Tracked.call`, `Tracked.recover`: operations and recoveries keep the two registries in agreement.
- `incarnations_run`: at most one incarnation of a worker is live, it is the current boot, and an incarnation that has
  ended stays ended.
-/
import FaultContainment.Engine.Staged
import FaultContainment.Engine.Lives

namespace FaultContainment.Incarnations

open FaultContainment.Lib FaultContainment.Ids FaultContainment.Enums FaultContainment.Records
open FaultContainment.DurableEvent FaultContainment.Persistence FaultContainment.Engine

/-! ## The registry -/

/-- AUTHORITY_REVOKED or RETIRED -/
def ended (s : WorkerState) : Bool := s = .authorityRevoked || s = .retired

/-- whether an incarnation has ended, if the registry knows it -/
def endedAt (w : WorkerRegistry) (k : WorkerKey) : Option Bool := (w.incarnations.find k).map fun r => ended r.state

/-- the same incarnations have ended, and the same boots are current -/
structure Alike (w d : WorkerRegistry) : Prop where
  ended : ∀ k, endedAt w k = endedAt d k
  current : ∀ worker, w.currentBoot.find worker = d.currentBoot.find worker

theorem Alike.refl (w : WorkerRegistry) : Alike w w := ⟨fun _ => rfl, fun _ => rfl⟩

theorem Alike.symm {w d : WorkerRegistry} (h : Alike w d) : Alike d w :=
  ⟨fun k => (h.ended k).symm, fun worker => (h.current worker).symm⟩

theorem Alike.trans {w d e : WorkerRegistry} (h : Alike w d) (h' : Alike d e) : Alike w e :=
  ⟨fun k => (h.ended k).trans (h'.ended k), fun worker => (h.current worker).trans (h'.current worker)⟩

/-- an incarnation that has not ended is the current boot of its worker, and every known worker has one -/
structure Settled (w : WorkerRegistry) : Prop where
  current : ∀ k, endedAt w k = some false → w.currentBoot.find k.worker = some k.boot
  placed : ∀ k, endedAt w k ≠ none → w.currentBoot.find k.worker ≠ none

theorem Settled.alike {w d : WorkerRegistry} (h : Settled w) (ha : Alike w d) : Settled d where
  current k hk := by
    rw [← ha.current]
    exact h.current k ((ha.ended k).trans hk)
  placed k hk := by
    rw [← ha.current]
    exact h.placed k fun hn => hk ((ha.ended k).symm.trans hn)

/-- records stand under their own keys and were registered in a real epoch -/
def Genuine (w : WorkerRegistry) : Prop :=
  ∀ k r, w.incarnations.find k = some r → r.key = k ∧ r.registeredEpoch.valid = true

/-! ## Worker records -/

/-- the records that are about workers -/
def aboutWorkers (e : Event) : Bool := e.kind = .workerUpsert || e.kind = .workerCurrentBoot

/-- what recovery does to the registry with one record -/
def applyRecord : Event → WorkerRegistry → WorkerRegistry
  | ⟨.workerUpsert, r, _⟩, w => { w with incarnations := w.incarnations.insert r.key r }
  | ⟨.workerCurrentBoot, (worker, boot), _⟩, w => { w with currentBoot := w.currentBoot.insert worker boot }
  | _, w => w

/-- records applied in order -/
def applyRecords (es : List Event) (w : WorkerRegistry) : WorkerRegistry := es.foldl (fun w e => applyRecord e w) w

theorem applyRecords_append (es fs : List Event) (w : WorkerRegistry) :
    applyRecords (es ++ fs) w = applyRecords fs (applyRecords es w) := List.foldl_append

theorem workers_applyEvent (e : Event) (i : Impl) : (applyEvent e i).state.workers = applyRecord e i.state.workers := by
  obtain ⟨kind, body, history⟩ := e
  cases kind
  case history => cases history <;> rfl
  all_goals rfl

theorem workers_applyAll (es : List Event) (i : Impl) : (applyAll es i).state.workers = applyRecords es i.state.workers := by
  induction es generalizing i with
  | nil => rfl
  | cons e es ih => exact (ih (applyEvent e i)).trans (by rw [workers_applyEvent]; rfl)

/-- a record of another kind leaves the registry alone -/
theorem applyRecord_foreign {e : Event} (h : aboutWorkers e = false) (w : WorkerRegistry) : applyRecord e w = w := by
  obtain ⟨kind, body, history⟩ := e
  cases kind
  case workerUpsert => simp [aboutWorkers] at h
  case workerCurrentBoot => simp [aboutWorkers] at h
  all_goals rfl

/-- so only the worker records count -/
theorem applyRecords_filter (es : List Event) (w : WorkerRegistry) :
    applyRecords (es.filter aboutWorkers) w = applyRecords es w := by
  induction es generalizing w with
  | nil => rfl
  | cons e es ih =>
    cases h : aboutWorkers e with
    | true =>
      rw [List.filter_cons_of_pos h]
      exact ih _
    | false =>
      rw [List.filter_cons_of_neg (by rw [h]; exact Bool.false_ne_true), ih]
      exact congrArg (applyRecords es) (applyRecord_foreign h w).symm

/-- an incarnation stored under its own key is stored as its record says -/
theorem upsert_at (w : WorkerRegistry) {k : WorkerKey} {r : WorkerRecord} {h : Option HistoryEvent} (hk : r.key = k) :
    { w with incarnations := w.incarnations.insert k r } = applyRecord ⟨.workerUpsert, r, h⟩ w := by
  rw [← hk]
  rfl

theorem endedAt_upsert (w : WorkerRegistry) (r : WorkerRecord) (h : Option HistoryEvent) (k : WorkerKey) :
    endedAt (applyRecord ⟨.workerUpsert, r, h⟩ w) k = if r.key = k then some (ended r.state) else endedAt w k := by
  unfold endedAt applyRecord
  rw [OrderedMap.find_insert]
  split_ifs <;> rfl

/-- the same record keeps two registries alike -/
theorem Alike.record {w d : WorkerRegistry} (h : Alike w d) (e : Event) : Alike (applyRecord e w) (applyRecord e d) := by
  cases ha : aboutWorkers e with
  | false =>
    rw [applyRecord_foreign ha, applyRecord_foreign ha]
    exact h
  | true =>
    obtain ⟨kind, body, history⟩ := e
    cases kind
    case workerUpsert =>
      refine ⟨fun k => ?_, h.current⟩
      rw [endedAt_upsert, endedAt_upsert, h.ended]
    case workerCurrentBoot =>
      refine ⟨h.ended, fun worker => ?_⟩
      obtain ⟨worker', boot⟩ := body
      change (w.currentBoot.insert worker' boot).find worker = (d.currentBoot.insert worker' boot).find worker
      rw [OrderedMap.find_insert, OrderedMap.find_insert, h.current]
    all_goals simp [aboutWorkers] at ha

theorem Alike.records {w d : WorkerRegistry} (h : Alike w d) (es : List Event) :
    Alike (applyRecords es w) (applyRecords es d) := by
  induction es generalizing w d with
  | nil => exact h
  | cons e es ih => exact ih (h.record e)

/-- a record that stands under its own key and was registered in a real epoch -/
def Honest (e : Event) : Prop :=
  match e with
  | ⟨.workerUpsert, r, _⟩ => r.registeredEpoch.valid = true
  | _ => True

theorem Genuine.records {w : WorkerRegistry} (h : Genuine w) {es : List Event} (hes : ∀ e ∈ es, Honest e) :
    Genuine (applyRecords es w) := by
  induction es generalizing w with
  | nil => exact h
  | cons e es ih =>
    refine ih ?_ fun e' he' => hes e' (List.mem_cons_of_mem _ he')
    have he := hes e List.mem_cons_self
    cases ha : aboutWorkers e with
    | false =>
      show Genuine (applyRecord e w)
      rw [applyRecord_foreign ha]
      exact h
    | true =>
      obtain ⟨kind, body, history⟩ := e
      cases kind
      case workerUpsert =>
        intro k r hr
        change (w.incarnations.insert body.key body).find k = some r at hr
        rw [OrderedMap.find_insert] at hr
        split_ifs at hr with hk
        · obtain rfl := Option.some.inj hr
          exact ⟨hk, he⟩
        · exact h k r hr
      case workerCurrentBoot => exact h
      all_goals simp [aboutWorkers] at ha

/-! ## What an operation does to the registry -/

/-- the same incarnations and the same current boots -/
def Same (w d : WorkerRegistry) : Prop := w.incarnations = d.incarnations ∧ w.currentBoot = d.currentBoot

theorem Same.alike {w d : WorkerRegistry} (h : Same w d) : Alike w d :=
  ⟨fun k => by unfold endedAt; rw [h.1], fun worker => by rw [h.2]⟩

theorem Same.genuine {w d : WorkerRegistry} (h : Same w d) (hg : Genuine d) : Genuine w := by
  intro k r hr
  rw [h.1] at hr
  exact hg k r hr

/-- what the registration of a fresh boot stages about the previous one -/
inductive Revocation (w : WorkerRegistry) (worker : WorkerId) (boot : WorkerBootId) : List Event → Prop where
  | none (h : ∀ current, w.currentBoot.find worker = some current →
      current = boot ∨ w.incarnations.find ⟨worker, current⟩ = .none) : Revocation w worker boot []
  | previous {current : WorkerBootId} {p r : WorkerRecord} {h : Option HistoryEvent}
      (hcurrent : w.currentBoot.find worker = some current) (hne : current ≠ boot)
      (hfind : w.incarnations.find ⟨worker, current⟩ = some p) (hkey : r.key = p.key) (hended : ended r.state = true)
      (hepoch : r.registeredEpoch = p.registeredEpoch) : Revocation w worker boot [⟨.workerUpsert, r, h⟩]

/-- one turn of the registry, from `w` to `w'` in an epoch, and the worker records it stages -/
inductive Turn (epoch : CoordinatorEpoch) (w w' : WorkerRegistry) : List Event → Prop where
  | quiet (halike : Alike w' w) (hgenuine : Genuine w → Genuine w') : Turn epoch w w' []
  | fresh {worker : WorkerId} {boot : WorkerBootId} {revocation : List Event} {r : WorkerRecord}
      {h : Option HistoryEvent} (hnew : w.incarnations.find ⟨worker, boot⟩ = .none) (hkey : r.key = ⟨worker, boot⟩)
      (hepoch : r.registeredEpoch = epoch) (hlive : ended r.state = false)
      (hrevocation : Revocation w worker boot revocation)
      (hsame : Same w' (applyRecords
        (revocation ++ [⟨.workerUpsert, r, h⟩, ⟨.workerCurrentBoot, (worker, boot), .none⟩]) w)) :
      Turn epoch w w' (revocation ++ [⟨.workerUpsert, r, h⟩, ⟨.workerCurrentBoot, (worker, boot), .none⟩])
  | rewritten {p r : WorkerRecord} {h : Option HistoryEvent} (hfind : w.incarnations.find r.key = some p)
      (hepoch : r.registeredEpoch = p.registeredEpoch ∨ r.registeredEpoch = epoch)
      (hended : ended p.state = true → ended r.state = true) (hsame : Same w' (applyRecord ⟨.workerUpsert, r, h⟩ w)) :
      Turn epoch w w' [⟨.workerUpsert, r, h⟩]

/-- the worker records a section stages -/
def records {α : Type} (step : Step α) : List Event := step.staged.filter aboutWorkers

theorem turn_refuse {α : Type} (i : Impl) (e : Error) :
    Turn i.state.epoch i.state.workers (Step.refuse i e : Step α).impl.state.workers (records (.refuse i e : Step α)) :=
  .quiet (.refl _) id

theorem turn_answer {α : Type} (i : Impl) (a : α) :
    Turn i.state.epoch i.state.workers (Step.answer i a).impl.state.workers (records (.answer i a)) :=
  .quiet (.refl _) id

/-- what a registration stages about the previous incarnation, and what it does to it -/
theorem revokePrevious_spec (clk : Clock) (worker : WorkerId) (boot : WorkerBootId) {i : Impl}
    (hg : Genuine i.state.workers) :
    Revocation i.state.workers worker boot (revokePrevious clk worker boot i).2 ∧
      (revokePrevious clk worker boot i).1.state.workers =
        applyRecords (revokePrevious clk worker boot i).2 i.state.workers ∧
      (revokePrevious clk worker boot i).1.state.epoch = i.state.epoch := by
  unfold revokePrevious
  cases hcurrent : i.state.workers.currentBoot.find worker with
  | none => exact ⟨.none (by simp [hcurrent]), rfl, rfl⟩
  | some current =>
    dsimp only
    by_cases hb : current = boot
    · rw [if_pos hb]
      refine ⟨.none fun c hc => .inl ?_, rfl, rfl⟩
      exact (Option.some.inj (hcurrent.symm.trans hc)).symm.trans hb
    · rw [if_neg hb]
      cases hfind : i.state.workers.incarnations.find ⟨worker, current⟩ with
      | none =>
        refine ⟨.none fun c hc => .inr ?_, rfl, rfl⟩
        obtain rfl := Option.some.inj (hcurrent.symm.trans hc)
        exact hfind
      | some p =>
        refine ⟨.previous hcurrent hb hfind rfl rfl rfl, ?_, rfl⟩
        exact upsert_at (h := none) _ (hg _ _ hfind).1

/-- the registration of an incarnation the registry does not know -/
theorem turn_registerFresh (clk : Clock) (worker : WorkerId) (boot : WorkerBootId) (endpoint : Text)
    (sequence : EvidenceSequence) {i : Impl} (hg : Genuine i.state.workers)
    (hnew : i.state.workers.incarnations.find ⟨worker, boot⟩ = none) :
    Turn i.state.epoch i.state.workers (registerFresh clk worker boot endpoint sequence i).impl.state.workers
      (records (registerFresh clk worker boot endpoint sequence i)) := by
  obtain ⟨hrevocation, hworkers, hepoch⟩ := revokePrevious_spec clk worker boot hg
  unfold registerFresh
  rcases hp : revokePrevious clk worker boot i with ⟨j, revocation⟩
  rw [hp] at hrevocation hworkers hepoch
  dsimp only at hrevocation hworkers hepoch ⊢
  have hall : revocation.filter aboutWorkers = revocation := by
    cases hrevocation <;> rfl
  unfold records commit
  rw [List.filter_append, hall]
  refine .fresh hnew ?_ ?_ ?_ hrevocation ?_
  · rfl
  · exact hepoch
  · rfl
  · rw [applyRecords_append, ← hworkers]
    exact ⟨rfl, rfl⟩

/-- a mutation that stores one incarnation under its key and stages it -/
theorem turn_rewritten {i : Impl} {k : WorkerKey} {p r : WorkerRecord} (hg : Genuine i.state.workers)
    (hfind : i.state.workers.incarnations.find k = some p) (hkey : r.key = p.key)
    (hepoch : r.registeredEpoch = p.registeredEpoch ∨ r.registeredEpoch = i.state.epoch)
    (hended : ended p.state = true → ended r.state = true) (h : Option HistoryEvent) :
    Turn i.state.epoch i.state.workers (i.withIncarnations (i.state.workers.incarnations.insert k r)).state.workers
      [⟨.workerUpsert, r, h⟩] := by
  have hk : r.key = k := hkey.trans (hg _ _ hfind).1
  refine .rewritten (hk ▸ hfind) hepoch hended ?_
  rw [← upsert_at i.state.workers hk]
  exact ⟨rfl, rfl⟩

theorem turn_registerWorker (clk : Clock) (worker : WorkerId) (boot : WorkerBootId) (endpoint : Text)
    (sequence : EvidenceSequence) {i : Impl} (hg : Genuine i.state.workers) :
    Turn i.state.epoch i.state.workers (registerWorker clk worker boot endpoint sequence i).impl.state.workers
      (records (registerWorker clk worker boot endpoint sequence i)) := by
  unfold registerWorker
  split_ifs
  · exact turn_refuse _ _
  · exact turn_refuse _ _
  · cases hfind : i.state.workers.incarnations.find ⟨worker, boot⟩ with
    | none => exact turn_registerFresh clk worker boot endpoint sequence hg hfind
    | some existing =>
      dsimp only
      rw [if_neg (not_not.mpr (hg _ _ hfind).2)]
      by_cases hendpoint : existing.endpoint ≠ endpoint
      · rw [if_pos hendpoint]
        exact turn_refuse _ _
      · rw [if_neg hendpoint]
        by_cases hsuspect : existing.state = .suspect ∧ existing.registeredEpoch ≠ i.state.epoch
        · rw [if_pos hsuspect]
          refine turn_rewritten hg hfind ?_ ?_ ?_ _
          · rfl
          · exact .inr rfl
          · rw [hsuspect.1]
            exact fun h => absurd h (by decide)
        · rw [if_neg hsuspect]
          exact turn_answer _ _

theorem turn_retireWorker (clk : Clock) (worker : WorkerId) (boot : WorkerBootId) (reason : Text) {i : Impl}
    (hg : Genuine i.state.workers) :
    Turn i.state.epoch i.state.workers (retireWorker clk worker boot reason i).impl.state.workers
      (records (retireWorker clk worker boot reason i)) := by
  unfold retireWorker
  split
  · exact turn_refuse _ _
  · next w hfind =>
    split_ifs
    · exact turn_answer _ _
    · refine turn_rewritten hg hfind ?_ ?_ ?_ _
      · rfl
      · exact .inl rfl
      · exact fun _ => rfl

theorem editEach_workers (f : ResourceRecord → Option ResourceRecord) (ks : List ResourceId) (i : Impl) :
    (editEach f ks i).1.state.workers = i.state.workers := by
  obtain ⟨g, h⟩ := editEach_frame f ks i
  rw [h]
  rfl

theorem turn_authorityLost (clk : Clock) (worker : WorkerId) (boot : WorkerBootId) (detail : Text) (time : UInt64)
    {i : Impl} (hg : Genuine i.state.workers) :
    Turn i.state.epoch i.state.workers (authorityLost clk worker boot detail time i).impl.state.workers
      (records (authorityLost clk worker boot detail time i)) := by
  unfold authorityLost
  cases hadmitted : admitLoss worker boot i with
  | error e => exact turn_refuse _ _
  | ok w =>
    have hfind : i.state.workers.incarnations.find ⟨worker, boot⟩ = some w := by
      unfold admitLoss at hadmitted
      split at hadmitted
      · simp at hadmitted
      · next w' hw' =>
        split_ifs at hadmitted
        rw [hw', Except.ok.inj hadmitted]
    dsimp only
    split
    · exact turn_answer _ _
    · rw [Impl.withIncarnations_topology]
      by_cases hsubject : (lossSubject (ownedBy boot i.state.topology.resources)).valid = true
      · have hfenced : ∀ f ks j, ((editEach f ks j).2).filter aboutWorkers = [] := by
          intro f ks j
          refine List.filter_eq_nil_iff.mpr fun e he => ?_
          unfold aboutWorkers
          rw [kind_editEach he]
          decide
        rw [if_neg (not_not.mpr hsubject)]
        unfold records commit
        rw [List.nil_append, List.filter_cons_of_pos rfl, List.filter_append, hfenced]
        dsimp only [Impl.addHistory, Impl.pushHistory]
        rw [editEach_workers]
        refine turn_rewritten hg hfind ?_ ?_ ?_ _
        · rfl
        · exact .inl rfl
        · exact fun _ => rfl
      · rw [if_pos hsubject]
        refine turn_rewritten hg hfind ?_ ?_ ?_ _
        · rfl
        · exact .inl rfl
        · exact fun _ => rfl

/-- an epoch advance suspends what is live, and ends nothing -/
theorem endedAt_suspend (w : WorkerRegistry) (k : WorkerKey) :
    endedAt { w with incarnations := w.incarnations.mapVals fun _ r => suspend r } k = endedAt w k := by
  unfold endedAt
  rw [OrderedMap.find_mapVals]
  cases w.incarnations.find k with
  | none => rfl
  | some r =>
    refine congrArg some ?_
    unfold suspend
    cases hs : r.state <;> simp [holdsLiveAuthority, ended, hs]

theorem suspended {i : Impl} (clk : Clock) (nowMs : UInt64) (reason : Text) :
    Alike (beginEpoch clk nowMs reason i).impl.state.workers i.state.workers ∧
      (Genuine i.state.workers → Genuine (beginEpoch clk nowMs reason i).impl.state.workers) := by
  refine ⟨⟨endedAt_suspend _, fun _ => rfl⟩, fun hg k r hr => ?_⟩
  change (i.state.workers.incarnations.mapVals fun _ r => suspend r).find k = some r at hr
  rw [OrderedMap.find_mapVals] at hr
  obtain ⟨p, hp, rfl⟩ := Option.map_eq_some_iff.mp hr
  have hkept : (suspend p).key = p.key ∧ (suspend p).registeredEpoch = p.registeredEpoch := by
    unfold suspend
    split_ifs <;> exact ⟨rfl, rfl⟩
  rw [hkept.1, hkept.2]
  exact hg k p hp

/-- a resource that names a known incarnation is noted there -/
theorem turn_registerResource (clk : Clock) (record : ResourceRecord) (i : Impl) :
    Turn i.state.epoch i.state.workers (registerResource clk record i).impl.state.workers
      (records (registerResource clk record i)) := by
  unfold registerResource
  split
  · exact turn_refuse _ _
  · have hnoted : ∀ (w : WorkerRegistry) k f, (∀ r : WorkerRecord, (f r).key = r.key ∧ (f r).state = r.state ∧
        (f r).registeredEpoch = r.registeredEpoch) →
        Alike { w with incarnations := w.incarnations.update k f } w ∧
          (Genuine w → Genuine { w with incarnations := w.incarnations.update k f }) := by
      intro w k f hf
      refine ⟨⟨fun a => ?_, fun _ => rfl⟩, fun hg a r hr => ?_⟩
      · unfold endedAt
        rw [OrderedMap.find_update]
        split_ifs
        · rw [Option.map_map]
          exact congrArg (fun g => (w.incarnations.find a).map g) (funext fun r => congrArg ended (hf r).2.1)
        · rfl
      · change (w.incarnations.update k f).find a = some r at hr
        rw [OrderedMap.find_update] at hr
        split_ifs at hr
        · obtain ⟨p, hp, rfl⟩ := Option.map_eq_some_iff.mp hr
          rw [(hf p).1, (hf p).2.2]
          exact hg a p hp
        · exact hg a r hr
    by_cases hv : record.ownerBoot.valid = true
    · dsimp only
      rw [if_pos hv]
      obtain ⟨halike, hgenuine⟩ := hnoted i.state.workers ⟨record.ownerWorker, record.ownerBoot⟩
        (fun w => { w with liveAuthority := idSetInsert w.liveAuthority record.id }) fun _ => ⟨rfl, rfl, rfl⟩
      exact .quiet halike hgenuine
    · dsimp only
      rw [if_neg hv]
      exact .quiet (.refl _) id

/-- an operation that neither writes the registry nor stages worker records -/
theorem turn_foreign (c : Call) (i : Impl) (hparts : .workers ∉ c.op.parts)
    (hkinds : ∀ kind ∈ c.op.kinds, kind ≠ .workerUpsert ∧ kind ≠ .workerCurrentBoot) :
    Turn i.state.epoch i.state.workers (c.after i).state.workers (records (c.op.run c.clk i)) := by
  have hnone : records (c.op.run c.clk i) = [] := by
    refine List.filter_eq_nil_iff.mpr fun e he => ?_
    obtain ⟨hu, hb⟩ := hkinds _ (stages_run c i e he)
    simp [aboutWorkers, hu, hb]
  rw [hnone, (frame_run c i).workers hparts]
  exact .quiet (.refl _) id

/-- **One turn.** Every operation takes the registry one turn, and stages the records of that turn. -/
theorem turn_after (c : Call) {i : Impl} (hg : Genuine i.state.workers) :
    Turn i.state.epoch i.state.workers (c.after i).state.workers (records (c.op.run c.clk i)) := by
  obtain ⟨clk, op⟩ := c
  cases op with
  | registerResource record => exact turn_registerResource clk record i
  | registerWorker worker boot endpoint sequence => exact turn_registerWorker clk worker boot endpoint sequence hg
  | retireWorker worker boot reason => exact turn_retireWorker clk worker boot reason hg
  | authorityLost worker boot detail time => exact turn_authorityLost clk worker boot detail time hg
  | beginEpoch nowMs reason =>
    obtain ⟨halike, hgenuine⟩ := suspended (i := i) clk nowMs reason
    exact .quiet halike hgenuine
  | _ => exact turn_foreign _ i (by simp [Op.parts, topologyParts, containmentParts, releaseParts]) (by simp [Op.kinds])

/-! ## What a turn keeps -/

section Turns

variable {epoch : CoordinatorEpoch} {w w' : WorkerRegistry} {es : List Event}

/-- the records of a turn bring the registry where the operation took it -/
theorem Turn.applied (h : Turn epoch w w' es) : Alike w' (applyRecords es w) := by
  cases h with
  | quiet halike _ => exact halike
  | fresh _ _ _ _ _ hsame => exact hsame.alike
  | rewritten _ _ _ hsame => exact hsame.alike

theorem Turn.honest (h : Turn epoch w w' es) (hg : Genuine w) (hv : epoch.valid = true) : ∀ e ∈ es, Honest e := by
  cases h with
  | quiet _ _ => exact fun e he => absurd he List.not_mem_nil
  | fresh hnew hkey hepoch hlive hrevocation hsame =>
    intro e he
    rcases List.mem_append.mp he with he | he
    · cases hrevocation with
      | none _ => exact absurd he List.not_mem_nil
      | previous _ _ hfind _ _ hepoch =>
        rw [List.mem_singleton.mp he]
        exact (congrArg Id.valid hepoch).trans (hg _ _ hfind).2
    · rcases List.mem_cons.mp he with rfl | he
      · exact (congrArg Id.valid hepoch).trans hv
      · rw [List.mem_singleton.mp he]
        trivial
  | rewritten hfind hepoch hended hsame =>
    intro e he
    rw [List.mem_singleton.mp he]
    rcases hepoch with hepoch | hepoch
    · exact (congrArg Id.valid hepoch).trans (hg _ _ hfind).2
    · exact (congrArg Id.valid hepoch).trans hv

theorem Turn.genuine (h : Turn epoch w w' es) (hg : Genuine w) (hv : epoch.valid = true) : Genuine w' := by
  have hes := h.honest hg hv
  cases h with
  | quiet _ hgenuine => exact hgenuine hg
  | fresh _ _ _ _ _ hsame => exact hsame.genuine (hg.records hes)
  | rewritten hfind hepoch hended hsame => exact hsame.genuine (Genuine.records hg hes)

/-- what a registration leaves of the other incarnations -/
theorem endedAt_fresh {worker : WorkerId} {boot : WorkerBootId} {revocation : List Event} {r : WorkerRecord}
    {h : Option HistoryEvent} (hkey : r.key = ⟨worker, boot⟩) (k : WorkerKey) :
    endedAt (applyRecords (revocation ++ [⟨.workerUpsert, r, h⟩, ⟨.workerCurrentBoot, (worker, boot), none⟩]) w) k =
      if (⟨worker, boot⟩ : WorkerKey) = k then some (ended r.state) else endedAt (applyRecords revocation w) k := by
  rw [applyRecords_append, ← hkey]
  exact endedAt_upsert _ r h k

theorem endedAt_revocation {worker : WorkerId} {boot : WorkerBootId} {revocation : List Event}
    (hg : Genuine w) (h : Revocation w worker boot revocation) (k : WorkerKey) :
    (applyRecords revocation w).currentBoot = w.currentBoot ∧
      (endedAt (applyRecords revocation w) k = endedAt w k ∨
        endedAt (applyRecords revocation w) k = some true ∧ endedAt w k ≠ none) ∧
      (endedAt (applyRecords revocation w) k = some false → k.worker = worker →
        w.currentBoot.find worker = some k.boot → k.boot = boot) := by
  cases h with
  | none hnone =>
    refine ⟨rfl, .inl rfl, fun hk hworker hcurrent => (hnone _ hcurrent).resolve_right fun hfind => ?_⟩
    obtain ⟨worker', b⟩ := k
    obtain rfl : worker' = worker := hworker
    change (w.incarnations.find ⟨worker', b⟩).map _ = some false at hk
    rw [hfind] at hk
    exact absurd hk (by simp)
  | @previous current p r history hcurrent hne hfind hkey hended hepoch =>
    have hrevoked : ∀ a, endedAt (applyRecords [⟨.workerUpsert, r, history⟩] w) a =
        if (⟨worker, current⟩ : WorkerKey) = a then some true else endedAt w a := by
      intro a
      rw [← (hg _ _ hfind).1, ← hkey, ← hended]
      exact endedAt_upsert w r history a
    refine ⟨rfl, ?_, fun hk hworker hboot => ?_⟩
    · rw [hrevoked]
      split_ifs with ha
      · refine .inr ⟨rfl, ?_⟩
        rw [← ha, endedAt, hfind]
        exact Option.some_ne_none _
      · exact .inl rfl
    · obtain ⟨worker', b⟩ := k
      obtain rfl : worker' = worker := hworker
      obtain rfl := Option.some.inj (hcurrent.symm.trans hboot)
      rw [hrevoked, if_pos rfl] at hk
      exact absurd hk (by decide)

theorem Turn.settled (h : Turn epoch w w' es) (hg : Genuine w) (hs : Settled w) : Settled w' := by
  cases h with
  | quiet halike _ => exact hs.alike halike.symm
  | @fresh worker boot revocation r history hnew hkey hepoch hlive hrevocation hsame =>
    refine Settled.alike ?_ hsame.alike.symm
    have hended := fun k => @endedAt_fresh w worker boot revocation r history hkey k
    have hcurrent : ∀ a, (applyRecords (revocation ++
        [⟨.workerUpsert, r, history⟩, ⟨.workerCurrentBoot, (worker, boot), none⟩]) w).currentBoot.find a =
        if worker = a then some boot else w.currentBoot.find a := by
      intro a
      rw [applyRecords_append, ← (endedAt_revocation hg hrevocation ⟨worker, boot⟩).1]
      exact OrderedMap.find_insert _ _ _ _
    refine ⟨fun k hk => ?_, fun k hk => ?_⟩
    · obtain ⟨-, hkept, hother⟩ := endedAt_revocation hg hrevocation k
      rw [hended] at hk
      rw [hcurrent]
      split_ifs at hk with hself
      · rw [← hself, if_pos rfl]
      · have hwas : w.currentBoot.find k.worker = some k.boot := by
          rcases hkept with hkept | ⟨hkept, -⟩
          · exact hs.current k (hkept ▸ hk)
          · rw [hkept] at hk
            exact absurd hk (by decide)
        split_ifs with hworker
        · rw [← hworker] at hwas
          rw [hother hk hworker.symm hwas]
        · exact hwas
    · obtain ⟨-, hkept, -⟩ := endedAt_revocation hg hrevocation k
      rw [hended] at hk
      rw [hcurrent]
      split_ifs with hworker
      · exact Option.some_ne_none _
      · rw [if_neg fun hself => hworker (congrArg WorkerKey.worker hself)] at hk
        refine hs.placed k ?_
        rcases hkept with hkept | ⟨-, hknown⟩
        · rwa [← hkept]
        · exact hknown
  | @rewritten p r history hfind hepoch hended hsame =>
    refine Settled.alike ?_ hsame.alike.symm
    have hwas : endedAt w r.key = some (ended p.state) := by
      unfold endedAt
      rw [hfind]
      rfl
    refine ⟨fun k hk => hs.current k ?_, fun k hk => hs.placed k ?_⟩
    · rw [endedAt_upsert] at hk
      split_ifs at hk with hself
      · rw [← hself, hwas]
        refine congrArg some (Bool.eq_false_iff.mpr fun hp => ?_)
        rw [hended hp] at hk
        exact absurd hk (by decide)
      · exact hk
    · rw [endedAt_upsert] at hk
      split_ifs at hk with hself
      · rw [← hself, hwas]
        exact Option.some_ne_none _
      · exact hk

/-- an incarnation that has ended stays ended -/
theorem Turn.ends (h : Turn epoch w w' es) (hg : Genuine w) {k : WorkerKey} (hk : endedAt w k = some true) :
    endedAt w' k = some true := by
  rw [h.applied.ended]
  cases h with
  | quiet _ _ => exact hk
  | @fresh worker boot revocation r history hnew hkey hepoch hlive hrevocation hsame =>
    rw [endedAt_fresh hkey]
    split_ifs with hself
    · rw [← hself, endedAt, hnew] at hk
      exact absurd hk (by simp)
    · rcases (endedAt_revocation hg hrevocation k).2.1 with hkept | ⟨hkept, -⟩
      · rw [hkept, hk]
      · exact hkept
  | @rewritten p r history hfind hepoch hended hsame =>
    refine (endedAt_upsert w r history k).trans ?_
    split_ifs with hself
    · rw [← hself, endedAt, hfind] at hk
      rw [hended (Option.some.inj hk)]
    · exact hk

end Turns

/-! ## Runs with snapshots and recoveries -/

/-- an engine, the registry its last snapshot holds, and the worker records staged since -/
structure Life where
  impl : Impl
  base : WorkerRegistry := {}
  journal : List Event := []

/-- a new engine, nothing recorded -/
def Life.start (clk : Clock) (config : Config) : Life := { impl := construct clk config }

/-- what a recovery would rebuild -/
def Life.durable (l : Life) : WorkerRegistry := applyRecords l.journal l.base

def Life.after : Move → Life → Life
  | .call c, l => { l with impl := c.after l.impl, journal := l.journal ++ records (c.op.run c.clk l.impl) }
  | .snapshot, l => { l with base := l.impl.state.workers, journal := [] }
  | .recover clk io nowMs s, l => { l with impl := (recoverFromStore clk io nowMs s).1.impl }

/-- the files hold every record of the run: the snapshot the registry it was taken of, the journal every worker record
staged since, in order -/
def Holds (l : Life) (s : Sys) : Prop :=
  Finds s fun _ loaded es => loaded.state.workers = l.base ∧ es.filter aboutWorkers = l.journal

/-- recoveries succeed, from files that hold every record of the run -/
def Kept : Move → Life → Prop :=
  Move.Promised fun clk io nowMs s l => Holds l s ∧ (recoverFromStore clk io nowMs s).2.isOk = true

/-- the registry in memory and the one a recovery would rebuild -/
structure Tracked (l : Life) : Prop where
  epoch : l.impl.state.epoch.valid = true
  genuine : Genuine l.impl.state.workers
  settled : Settled l.impl.state.workers
  lasting : Genuine l.durable
  alike : Alike l.impl.state.workers l.durable

theorem genuine_empty : Genuine {} := fun k r h => by simp at h

theorem settled_empty : Settled {} := ⟨fun k hk => by simp [endedAt] at hk, fun k hk => by simp [endedAt] at hk⟩

theorem tracked_start (clk : Clock) (config : Config) : Tracked (.start clk config) where
  epoch := by
    change config.startEpoch.valid = true
    unfold Config.startEpoch
    split_ifs with h
    · exact h
    · decide
  genuine := genuine_empty
  settled := settled_empty
  lasting := genuine_empty
  alike := .refl _

/-- an operation keeps the two registries in agreement -/
theorem Tracked.call {l : Life} (h : Tracked l) (c : Call) : Tracked (l.after (.call c)) := by
  have hturn := turn_after c h.genuine
  have hdurable : (l.after (.call c)).durable = applyRecords (records (c.op.run c.clk l.impl)) l.durable :=
    applyRecords_append _ _ _
  refine ⟨valid_of_le h.epoch (frame_run c l.impl).epoch_le, hturn.genuine h.genuine h.epoch,
    hturn.settled h.genuine h.settled, ?_, ?_⟩
  · rw [hdurable]
    exact h.lasting.records (hturn.honest h.genuine h.epoch)
  · rw [hdurable]
    exact hturn.applied.trans (h.alike.records _)

/-- so does a snapshot, which makes them equal -/
theorem Tracked.snapshot {l : Life} (h : Tracked l) : Tracked (l.after .snapshot) :=
  ⟨h.epoch, h.genuine, h.settled, h.genuine, .refl _⟩

/-! ## Recoveries -/

/-- the safety net leaves a registry alone whose workers all have a current boot -/
theorem deriveWorkers_same {w : WorkerRegistry} (hs : Settled w) : Same (deriveWorkers w) w := by
  have hfold : ∀ (es : List (WorkerKey × WorkerRecord)) (v : WorkerRegistry),
      (∀ e ∈ es, v.currentBoot.find e.1.worker ≠ none) →
      Same (es.foldl (fun w e => { w with
        lastIncarnation := w.lastIncarnation.subscript e.1.worker fun n =>
          if n < e.2.incarnation then e.2.incarnation else n
        currentBoot := w.currentBoot.emplace e.1.worker e.1.boot }) v) v := by
    intro es
    induction es with
    | nil => exact fun v _ => ⟨rfl, rfl⟩
    | cons e es ih =>
      intro v hv
      have hold := OrderedMap.emplace_old v.currentBoot e.1.boot (hv e List.mem_cons_self)
      obtain ⟨hincarnations, hcurrent⟩ := ih { v with
        lastIncarnation := v.lastIncarnation.subscript e.1.worker fun n =>
          if n < e.2.incarnation then e.2.incarnation else n
        currentBoot := v.currentBoot.emplace e.1.worker e.1.boot } fun e' he' => by
          dsimp only
          rw [hold]
          exact hv e' (List.mem_cons_of_mem _ he')
      exact ⟨hincarnations, hcurrent.trans hold⟩
  refine hfold _ _ fun e he => hs.placed e.1 ?_
  rw [endedAt, (OrderedMap.mem_toList _ _ _).mp he]
  exact Option.some_ne_none _

/-- a recovery from files that hold every record rebuilds what was recorded -/
theorem Tracked.recover {l : Life} (h : Tracked l) {clk : ℕ → Clock} {io : ℕ → Io} {nowMs : UInt64} {s : Sys}
    (hkept : Kept (.recover clk io nowMs s) l) : Tracked (l.after (.recover clk io nowMs s)) := by
  obtain ⟨hholds, hok⟩ := hkept
  obtain ⟨r, loaded, es, last, -, -, ⟨hbase, hjournal⟩, -, hresumed⟩ := hholds.resumed clk io nowMs
  have hworkers : (applyAll es loaded).state.workers = l.durable := by
    rw [workers_applyAll, ← applyRecords_filter, hjournal, hbase]
    rfl
  have hsettled : Settled l.durable := h.settled.alike h.alike
  have hsame : Same (takeOver last nowMs (deriveCounters (applyAll es loaded))).state.workers l.durable := by
    rw [← hworkers] at hsettled ⊢
    exact deriveWorkers_same hsettled
  obtain ⟨hgenuine, halike⟩ : Genuine (recoverFromStore clk io nowMs s).1.impl.state.workers ∧
      Alike (recoverFromStore clk io nowMs s).1.impl.state.workers l.durable := by
    rw [hresumed]
    exact resume_keeps (P := fun i => Genuine i.state.workers ∧ Alike i.state.workers l.durable)
      (fun _ _ h => h) (fun _ _ _ h => h) (fun _ _ _ h => h)
      (fun clk nowMs reason i h => ⟨(suspended clk nowMs reason).2 h.1, (suspended clk nowMs reason).1.trans h.2⟩)
      clk io nowMs r ⟨hsame.genuine h.lasting, hsame.alike⟩
  refine ⟨?_, hgenuine, hsettled.alike halike.symm, h.lasting, halike⟩
  obtain ⟨r'', loaded'', j, last', s', -, -, -, -, hfinal⟩ := recoverFromStore_ok hok
  change (recoverFromStore clk io nowMs s).1.impl.state.epoch.valid = true
  rw [hfinal]
  exact perform_keeps (P := fun i => i.state.epoch.valid = true) (fun _ _ h => h) (fun _ _ _ h => h)
    (nextGeneration_valid _)

/-- every move keeps the two registries in agreement -/
theorem Tracked.after {l : Life} (h : Tracked l) (m : Move) (hm : Kept m l) : Tracked (l.after m) :=
  Move.promised_inv Life.after Tracked (fun c _ h => h.call c) (fun _ h => h.snapshot)
    (fun _ _ _ _ _ hkept h => h.recover hkept) m l hm h

/-- no move brings an ended incarnation back -/
theorem ends_after {l : Life} (h : Tracked l) (m : Move) (hm : Kept m l) {k : WorkerKey}
    (hk : endedAt l.impl.state.workers k = some true) : endedAt (l.after m).impl.state.workers k = some true := by
  cases m with
  | call c => exact (turn_after c h.genuine).ends h.genuine hk
  | snapshot => exact hk
  | recover clk io nowMs s =>
    rw [(h.recover hm).alike.ended, show (l.after (.recover clk io nowMs s)).durable = l.durable from rfl,
      ← h.alike.ended]
    exact hk

/-- a run keeps the registries in agreement, and what has ended ended -/
theorem tracked_run (ms : List Move) {l : Life} (h : Tracked l) (hkept : Runs.Along Life.after Kept ms l) :
    Tracked (Runs.run Life.after ms l) ∧ ∀ k, endedAt l.impl.state.workers k = some true →
      endedAt (Runs.run Life.after ms l).impl.state.workers k = some true := by
  induction ms generalizing l with
  | nil => exact ⟨h, fun _ hk => hk⟩
  | cons m ms ih =>
    rw [Runs.along_cons] at hkept
    obtain ⟨htracked, hends⟩ := ih (h.after m hkept.1) hkept.2
    exact ⟨htracked, fun k hk => hends k (ends_after h m hkept.1 hk)⟩

/-! ## At most one live incarnation -/

/-- an incarnation the registry knows and that holds live authority -/
def Live (i : Impl) (k : WorkerKey) : Prop :=
  ∃ r, i.state.workers.incarnations.find k = some r ∧ holdsLiveAuthority r.state = true

/-- an incarnation that was revoked or retired -/
def Ended (i : Impl) (k : WorkerKey) : Prop :=
  ∃ r, i.state.workers.incarnations.find k = some r ∧ (r.state = .authorityRevoked ∨ r.state = .retired)

theorem endedAt_of_live {i : Impl} {k : WorkerKey} (h : Live i k) : endedAt i.state.workers k = some false := by
  obtain ⟨r, hr, hlive⟩ := h
  rw [endedAt, hr]
  refine congrArg some ?_
  cases hs : r.state <;> simp [hs, holdsLiveAuthority, ended] at hlive ⊢

theorem ended_iff (i : Impl) (k : WorkerKey) : Ended i k ↔ endedAt i.state.workers k = some true := by
  simp [Ended, endedAt, ended]

instance decidableEnded (i : Impl) (k : WorkerKey) : Decidable (Ended i k) := decidable_of_iff' _ (ended_iff i k)

/-- **At most one live incarnation.** In every run of operations, snapshots and recoveries from files that hold every
record: of each worker at most one incarnation is live, it is the current boot, and an incarnation that was ever revoked or
retired is never live again. -/
theorem incarnations_run (clk : Clock) (config : Config) (pre post : List Move)
    (hkept : Runs.Along Life.after Kept (pre ++ post) (.start clk config)) :
    let early := (Runs.run Life.after pre (.start clk config)).impl
    let late := (Runs.run Life.after (pre ++ post) (.start clk config)).impl
    (∀ worker boot boot', Live late ⟨worker, boot⟩ → Live late ⟨worker, boot'⟩ → boot = boot') ∧
    (∀ k, Live late k → late.state.workers.currentBoot.find k.worker = some k.boot) ∧
    ∀ k, Ended early k → ¬ Live late k := by
  intro early late
  obtain ⟨hpre, hpost⟩ := (Runs.along_append _ _ _ _ _).mp hkept
  have hearly := (tracked_run pre (tracked_start clk config) hpre).1
  obtain ⟨hlate, hends⟩ := tracked_run post hearly hpost
  rw [← Runs.run_append] at hlate hends
  have hcurrent : ∀ k, Live late k → late.state.workers.currentBoot.find k.worker = some k.boot := fun k hk =>
    hlate.settled.current k (endedAt_of_live hk)
  refine ⟨fun worker boot boot' h h' => ?_, hcurrent, fun k hk hlive => ?_⟩
  · exact Option.some.inj ((hcurrent ⟨worker, boot⟩ h).symm.trans (hcurrent ⟨worker, boot'⟩ h'))
  · have hlost := hends k ((ended_iff _ _).mp hk)
    rw [endedAt_of_live hlive] at hlost
    exact absurd hlost (by decide)

/-- a recovery from an empty store, then two boots of one worker in turn -/
def rebooted : List Move := [
  .recover (fun _ => ticks) (fun _ => {}) 5 { impl := construct ticks {} },
  .call ⟨ticks, .registerWorker ⟨1⟩ ⟨7⟩ [] {}⟩,
  .call ⟨ticks, .registerWorker ⟨1⟩ ⟨8⟩ [] {}⟩]

/-- the first boot again, and an epoch later -/
def replayed : List Move := [
  .snapshot,
  .call ⟨ticks, .beginEpoch 9 []⟩,
  .call ⟨ticks, .registerWorker ⟨1⟩ ⟨7⟩ [] {}⟩]

theorem kept_replayed : Runs.Along Life.after Kept (rebooted ++ replayed) (.start ticks {}) := by
  refine ⟨⟨⟨{}, resetForRecovery (construct ticks {}), [], rfl, rfl, rfl, rfl, rfl⟩, ?_⟩,
    trivial, trivial, trivial, trivial, trivial, trivial⟩
  decide +kernel

/-- a superseded boot that registers again stays revoked -/
theorem incarnations_run_replayed :
    ¬ Live (Runs.run Life.after (rebooted ++ replayed) (.start ticks {})).impl ⟨⟨1⟩, ⟨7⟩⟩ := by
  refine (incarnations_run ticks {} rebooted replayed kept_replayed).2.2 ⟨⟨1⟩, ⟨7⟩⟩ ?_
  decide +kernel

end FaultContainment.Incarnations
