/-
Worker incarnations, replayed.

The records of an operation say what it does to the registry, but for two things that leave none: the resources a
registration of a resource notes on an incarnation, and the suspension of what was live at an epoch advance. A view of the
incarnations as a new epoch finds them, those notes aside, is followed by every operation.

- `follows_workers`: each operation is followed.
-/
import FaultContainment.Incarnations
import FaultContainment.Replay.Views

namespace FaultContainment.Replay

open FaultContainment.Lib FaultContainment.Ids FaultContainment.Enums FaultContainment.Records
open FaultContainment.DurableEvent FaultContainment.Engine
open FaultContainment.Incarnations (Genuine Same aboutWorkers applyRecord applyRecords applyRecords_append
  applyRecords_filter applyRecord_foreign workers_applyEvent workers_applyAll revokePrevious_spec upsert_at
  editEach_workers)

/-! ## Workers -/

/-- an incarnation as a new epoch finds it, apart from the resources noted on it -/
def enrolled (w : WorkerRecord) : WorkerRecord := suspend { w with liveAuthority := [] }

/-- the incarnations and the current boots -/
def roster (w : WorkerRegistry) : OrderedMap WorkerKey WorkerRecord × OrderedMap WorkerId WorkerBootId :=
  (w.incarnations.mapVals fun _ r => enrolled r, w.currentBoot)

def workerView : View (OrderedMap WorkerKey WorkerRecord × OrderedMap WorkerId WorkerBootId) where
  see i := roster i.state.workers
  kinds := [.workerUpsert, .workerCurrentBoot]
  deaf e i h := by
    rw [workers_applyEvent, applyRecord_foreign]
    simpa [aboutWorkers] using h

theorem applyRecords_cons (e : Event) (es : List Event) (w : WorkerRegistry) :
    applyRecords (e :: es) w = applyRecords es (applyRecord e w) := rfl

/-- the same record keeps two rosters the same -/
theorem roster_record {w d : WorkerRegistry} (h : roster w = roster d) (e : Event) :
    roster (applyRecord e w) = roster (applyRecord e d) := by
  have hincarnations : w.incarnations.mapVals (fun _ r => enrolled r) = d.incarnations.mapVals fun _ r => enrolled r :=
    congrArg Prod.fst h
  have hcurrent : w.currentBoot = d.currentBoot := congrArg Prod.snd h
  cases ha : aboutWorkers e with
  | false =>
    rw [applyRecord_foreign ha, applyRecord_foreign ha]
    exact h
  | true =>
    obtain ⟨kind, body, history⟩ := e
    cases kind
    case workerUpsert =>
      refine Prod.ext (OrderedMap.ext fun k => ?_) hcurrent
      have hk := congrArg (OrderedMap.find · k) hincarnations
      rw [OrderedMap.find_mapVals, OrderedMap.find_mapVals] at hk
      dsimp only [roster, applyRecord]
      rw [OrderedMap.find_mapVals, OrderedMap.find_mapVals, OrderedMap.find_insert, OrderedMap.find_insert]
      split_ifs
      · rfl
      · exact hk
    case workerCurrentBoot => exact Prod.ext hincarnations (congrArg (fun m => m.insert body.1 body.2) hcurrent)
    all_goals simp [aboutWorkers] at ha

theorem roster_records {w d : WorkerRegistry} (h : roster w = roster d) (es : List Event) :
    roster (applyRecords es w) = roster (applyRecords es d) := by
  induction es generalizing w d with
  | nil => exact h
  | cons e es ih => exact ih (roster_record h e)

/-- an operation that does to the registry what its records say is followed -/
theorem follows_records {c : Call} {i : Impl}
    (h : roster (c.after i).state.workers = roster (applyRecords (events c i) i.state.workers)) :
    workerView.Follows c i := by
  intro j hj
  show roster (applyAll (events c i) j).state.workers = roster (c.after i).state.workers
  rw [workers_applyAll, h]
  exact roster_records hj _

theorem enrolled_suspend (w : WorkerRecord) : enrolled (suspend w) = enrolled w := by
  unfold enrolled suspend
  cases hs : w.state <;> simp [holdsLiveAuthority, hs]

/-- a registration does to the registry what its records say -/
theorem workers_registerFresh (clk : Clock) (worker : WorkerId) (boot : WorkerBootId) (endpoint : Text)
    (sequence : EvidenceSequence) {i : Impl} (hg : Genuine i.state.workers) :
    Same (registerFresh clk worker boot endpoint sequence i).impl.state.workers
      (applyRecords (registerFresh clk worker boot endpoint sequence i).staged i.state.workers) := by
  obtain ⟨-, hworkers, -⟩ := revokePrevious_spec clk worker boot hg
  unfold registerFresh
  rcases hp : revokePrevious clk worker boot i with ⟨j, revocation⟩
  rw [hp] at hworkers
  dsimp only at hworkers ⊢
  unfold commit
  rw [applyRecords_append, ← hworkers]
  exact ⟨rfl, rfl⟩

theorem roster_same {w d : WorkerRegistry} (h : Same w d) : roster w = roster d := by
  unfold roster
  rw [h.1, h.2]

/-- one incarnation rewritten in place -/
theorem same_upsert {i : Impl} {k : WorkerKey} {p r : WorkerRecord} (hg : Genuine i.state.workers)
    (hfind : i.state.workers.incarnations.find k = some p) (hkey : r.key = p.key) (h : Option HistoryEvent) :
    (i.withIncarnations (i.state.workers.incarnations.insert k r)).state.workers =
      applyRecord ⟨.workerUpsert, r, h⟩ i.state.workers :=
  upsert_at i.state.workers (hkey.trans (hg _ _ hfind).1)

theorem follows_workers (c : Call) {i : Impl} (hg : Genuine i.state.workers) : workerView.Follows c i := by
  have hframe := frame_run c i
  obtain ⟨clk, op⟩ := c
  cases op
  case registerResource record =>
    refine workerView.follows_foreign (by simp [workerView, Op.kinds]) ?_
    show roster (registerResource clk record i).impl.state.workers = roster i.state.workers
    have hnoted : ∀ (w : WorkerRegistry) (k : WorkerKey) (id : ResourceId), roster { w with
        incarnations := w.incarnations.update k fun r => { r with liveAuthority := idSetInsert r.liveAuthority id } } =
        roster w := by
      intro w k id
      refine Prod.ext (OrderedMap.ext fun a => ?_) rfl
      dsimp only [roster]
      rw [OrderedMap.find_mapVals, OrderedMap.find_mapVals, OrderedMap.find_update]
      split_ifs
      · rw [Option.map_map]
        rfl
      · rfl
    unfold registerResource
    split
    · rfl
    · by_cases hv : record.ownerBoot.valid = true
      · dsimp only
        rw [if_pos hv]
        exact hnoted _ _ _
      · dsimp only
        rw [if_neg hv]
        rfl
  case registerWorker worker boot endpoint sequence =>
    refine follows_records ?_
    show roster (registerWorker clk worker boot endpoint sequence i).impl.state.workers =
      roster (applyRecords (registerWorker clk worker boot endpoint sequence i).staged i.state.workers)
    unfold registerWorker
    split
    · rfl
    split
    · rfl
    cases hfind : i.state.workers.incarnations.find ⟨worker, boot⟩ with
    | none => exact roster_same (workers_registerFresh clk worker boot endpoint sequence hg)
    | some existing =>
      dsimp only
      rw [if_neg (not_not.mpr (hg _ _ hfind).2)]
      split
      · rfl
      split
      · refine congrArg roster (same_upsert hg hfind ?_ none)
        rfl
      · rfl
  case retireWorker worker boot reason =>
    refine follows_records ?_
    show roster (retireWorker clk worker boot reason i).impl.state.workers =
      roster (applyRecords (retireWorker clk worker boot reason i).staged i.state.workers)
    unfold retireWorker
    split
    · rfl
    · next w hfind =>
      split
      · rfl
      · refine congrArg roster (same_upsert hg hfind ?_ none)
        rfl
  case beginEpoch nowMs reason =>
    refine workerView.follows_foreign (by simp [workerView, Op.kinds]) ?_
    refine Prod.ext (OrderedMap.ext fun k => ?_) rfl
    show ((i.state.workers.incarnations.mapVals fun _ w => suspend w).mapVals fun _ r => enrolled r).find k =
      (i.state.workers.incarnations.mapVals fun _ r => enrolled r).find k
    rw [OrderedMap.find_mapVals, OrderedMap.find_mapVals, OrderedMap.find_mapVals, Option.map_map]
    exact congrArg (fun f => Option.map f (i.state.workers.incarnations.find k)) (funext enrolled_suspend)
  case authorityLost worker boot detail time =>
    refine follows_records ?_
    show roster (authorityLost clk worker boot detail time i).impl.state.workers =
      roster (applyRecords (authorityLost clk worker boot detail time i).staged i.state.workers)
    unfold authorityLost
    split
    · rfl
    · next w hadmit =>
      have hfind : i.state.workers.incarnations.find ⟨worker, boot⟩ = some w := by
        unfold admitLoss at hadmit
        split at hadmit
        · simp at hadmit
        · next w' hw' =>
          split_ifs at hadmit
          rw [hw', Except.ok.inj hadmit]
      split
      · rfl
      · have hquiet : ∀ f ks (k : Impl) (d : WorkerRegistry), applyRecords (editEach f ks k).2 d = d := by
          intro f ks k d
          rw [← applyRecords_filter, List.filter_eq_nil_iff.mpr]
          · rfl
          · intro e he
            unfold aboutWorkers
            rw [kind_editEach he]
            decide
        dsimp only
        rw [Impl.withIncarnations_topology]
        by_cases hsubject : (lossSubject (ownedBy boot i.state.topology.resources)).valid = true
        · rw [if_neg (not_not.mpr hsubject)]
          unfold commit
          rw [List.nil_append, applyRecords_cons, applyRecords_append, hquiet]
          dsimp only [Impl.addHistory, Impl.pushHistory]
          rw [editEach_workers]
          refine congrArg roster (same_upsert hg hfind ?_ none)
          rfl
        · rw [if_pos hsubject]
          refine congrArg roster (same_upsert hg hfind ?_ none)
          rfl
  all_goals
    exact workerView.follows_foreign (by simp [workerView, Op.kinds])
      (congrArg roster (hframe.workers (by simp [Op.parts, topologyParts, containmentParts, releaseParts])))

end FaultContainment.Replay
