/-
Who may report on an action.

A connection that completes its handshake becomes the session of one incarnation (W,B). `ACTION_ACK` and `ACTION_RESULT`
frames are decoded and handed to the engine if the connection has completed some handshake; neither the handler nor the
engine compares the incarnation a message names with the session or with the action's envelope, and `accepted` is not read.
The coordinator also reports on actions itself, naming no incarnation.

- `quiet_after`: no other operation moves an action to ACKNOWLEDGED or RESULT_RECORDED.
- `mechanismOf_delivery_ne_iff`: when a report changes the mechanism recorded for a resource.
- `authentic_iff`: one step is authentic exactly when it is not a forged report that the engine admits.
- `authentic_run_iff`: the same along every run.
-/
import FaultContainment.Dispatching.Reports
import FaultContainment.Protocol

namespace FaultContainment.Dispatching

open FaultContainment.Lib FaultContainment.Ids FaultContainment.Enums FaultContainment.Records
open FaultContainment.DurableEvent FaultContainment.Engine FaultContainment.Protocol

/-! ## Operations that report nothing -/

/-- the statuses a report moves an action to -/
def isReported : ActionStatus → Bool
  | .acknowledged | .resultRecorded => true
  | _ => false

/-- an action that is ACKNOWLEDGED or RESULT_RECORDED was so before -/
def Quiet (i j : Impl) : Prop :=
  ∀ id a', j.state.actions.find id = some a' → isReported a'.status = true →
    ∃ a, i.state.actions.find id = some a ∧ a.status = a'.status

theorem Quiet.refl (i : Impl) : Quiet i i := fun _ a' h _ => ⟨a', h, rfl⟩

theorem Quiet.trans {i j k : Impl} (h : Quiet i j) (h' : Quiet j k) : Quiet i k := by
  intro id c hc hr
  obtain ⟨b, hb, hbc⟩ := h' id c hc hr
  rw [← hbc] at hr ⊢
  exact h id b hb hr

theorem Quiet.of_eq {i j : Impl} (h : j.state.actions = i.state.actions) : Quiet i j := by
  intro id a' ha' _
  exact ⟨a', h ▸ ha', rfl⟩

theorem Quiet.insert {i : Impl} {id : ActionId} {a : ContainmentAction} (h : isReported a.status = false) :
    Quiet i (i.withActions (i.state.actions.insert id a)) := by
  intro k b hb hr
  have hb : (i.state.actions.insert id a).find k = some b := hb
  by_cases hk : id = k
  · rw [hk, OrderedMap.find_insert_self] at hb
    obtain rfl := Option.some.inj hb
    rw [h] at hr
    simp at hr
  · rw [OrderedMap.find_insert_ne _ _ hk] at hb
    exact ⟨b, hb, rfl⟩

theorem Quiet.emplace {i : Impl} {id : ActionId} {a : ContainmentAction} (h : isReported a.status = false) :
    Quiet i (i.withActions (i.state.actions.emplace id a)) := by
  intro k b hb hr
  have hb : (i.state.actions.emplace id a).find k = some b := hb
  rw [OrderedMap.find_emplace] at hb
  split_ifs at hb with hk
  · obtain rfl := Option.some.inj hb
    rw [h] at hr
    simp at hr
  · exact ⟨b, hb, rfl⟩

theorem quiet_planActions (time : UInt64) (budget : ℕ) (record : ContainmentRecord) (ks : List ResourceId)
    (planned : List ActionId) {i j : Impl} (h : Quiet i j) :
    Quiet i (planActions time budget record ks planned j).1 := by
  induction ks generalizing planned j with
  | nil => exact h
  | cons k ks ih =>
    unfold planActions
    split
    · exact h
    · split
      · exact ih planned h
      · have hnext : Quiet j { j with nextAction := j.nextAction + 1 } := .of_eq rfl
        exact ih _ (h.trans (hnext.trans (Quiet.emplace rfl)))

theorem quiet_authorizeContainment (clk : Clock) (id : FaultId) (expected : FaultGeneration) (i : Impl) :
    Quiet i (authorizeContainment clk id expected i).impl := by
  unfold authorizeContainment
  split
  · exact .refl i
  split
  · exact .refl i
  · next fault _ _ radius _ =>
    have hedit : ∀ {j : Impl} (f ks), Quiet i j → Quiet i (editEach f ks j).1 := fun {j} f ks h => h.trans
      (.of_eq ((Frame.editEach (S := topologyParts) (by simp) (by simp) f ks (.refl _ j)).actions (by simp)))
    have hfault : Quiet i (i.withFaults (i.state.faults.insert id { fault with
        state := .containmentInProgress, containmentGeneration := radius.generation, lastUpdatedMs := clk 0 })) :=
      .of_eq rfl
    have hplanned := fun budget => quiet_planActions (clk 0) budget (newContainment (clk 0) id fault radius i)
      radius.mandatory [] (hedit (drain (clk 0)) radius.precautionary (hedit (fun r => some (fence (clk 0)
        i.state.workers radius.generation (outcomeQuarantines radius.recommended) r)) radius.mandatory hfault))
    unfold commitContainment
    exact hplanned _

theorem quiet_dispatchBegin (clk : Clock) (generation : ContainmentGeneration) (executorAttached : Bool) (i : Impl) :
    Quiet i (dispatchBegin clk generation executorAttached i).impl := by
  unfold dispatchBegin
  split
  · exact .refl i
  · next record _ =>
    have hone : ∀ d id, Quiet i d.impl → Quiet i (dispatchOne clk record d id).impl := by
      intro d id h
      unfold dispatchOne
      split
      · exact h
      · split_ifs
        · exact h
        · exact h.trans ((Quiet.insert rfl).trans (.of_eq rfl))
        · exact h.trans ((Quiet.insert rfl).trans (.of_eq rfl))
    have hloop : ∀ (ids : List ActionId) (d : Dispatch), Quiet i d.impl →
        Quiet i (ids.foldl (dispatchOne clk record) d).impl := by
      intro ids
      induction ids with
      | nil => exact fun _ h => h
      | cons id ids ih => exact fun d h => ih _ (hone d id h)
    exact hloop _ _ (.refl i)

theorem quiet_dispatchEnd (clk : Clock) (attempts : List Attempt) (summary : DispatchSummary) (i : Impl) :
    Quiet i (dispatchEnd clk attempts summary i).impl := by
  have hone : ∀ d t, Quiet i d.impl → Quiet i (settleOne clk d t).impl := by
    intro d t h
    unfold settleOne
    split
    · exact h
    · split_ifs
      · exact h
      · split
        · exact h.trans ((Quiet.insert rfl).trans (.of_eq rfl))
        · exact h.trans ((Quiet.insert rfl).trans (.of_eq rfl))
  have hloop : ∀ (ts : List Attempt) (d : Dispatch), Quiet i d.impl → Quiet i (ts.foldl (settleOne clk) d).impl := by
    intro ts
    induction ts with
    | nil => exact fun _ h => h
    | cons t ts ih => exact fun d h => ih _ (hone d t h)
  exact hloop _ _ (.refl i)

theorem quiet_beginEpoch (clk : Clock) (nowMs : UInt64) (reason : Text) (i : Impl) :
    Quiet i (beginEpoch clk nowMs reason i).impl := by
  intro id a' ha' hr
  have ha' : (i.state.actions.mapVals fun _ a => makeAmbiguous a).find id = some a' := ha'
  rw [OrderedMap.find_mapVals] at ha'
  obtain ⟨a, ha, rfl⟩ := Option.map_eq_some_iff.mp ha'
  refine ⟨a, ha, ?_⟩
  unfold makeAmbiguous at hr ⊢
  split_ifs at hr ⊢
  · simp [isReported] at hr
  · rfl

/-- the section takes a report -/
def isReport : Op → Bool
  | .recordActionAck _ | .recordActionResult _ => true
  | _ => false

/-- no other operation moves an action to ACKNOWLEDGED or RESULT_RECORDED -/
theorem quiet_after (c : Call) (i : Impl) (h : isReport c.op = false) : Quiet i (c.after i) := by
  have hframe := frame_run c i
  obtain ⟨clk, op⟩ := c
  cases op
  case authorizeContainment id expected => exact quiet_authorizeContainment clk id expected i
  case dispatchBegin generation executorAttached => exact quiet_dispatchBegin clk generation executorAttached i
  case dispatchEnd attempts summary => exact quiet_dispatchEnd clk attempts summary i
  case beginEpoch nowMs reason => exact quiet_beginEpoch clk nowMs reason i
  case recordActionAck => simp [isReport] at h
  case recordActionResult => simp [isReport] at h
  all_goals exact .of_eq (hframe.actions (by simp [Op.parts]))

/-! ## Connections -/

/-- what `serve` remembers of a connection -/
structure Session where
  worker : WorkerId := {}
  boot : WorkerBootId := {}
  helloDone : Bool := false

inductive ReportKind where
  | ack | result

def decodeReport : ReportKind → Bytes → Except Error Report
  | .ack, payload => (decodeActionAck payload).map .ack
  | .result, payload => (decodeActionResult payload).map .result

/-- a rejected frame: code and detail -/
abbrev Rejection := ErrorCode × Text

def unhandshaken : ReportKind → Rejection
  | .ack => (.staleWorkerBoot, lit "acknowledgment from an unhandshaken connection")
  | .result => (.staleWorkerBoot, lit "result from an unhandshaken connection")

/-- the `HELLO` case of `handle_frame` -/
def handleHello (clk : Clock) (m : HelloMessage) (session : Session) (i : Impl) : Impl × Session :=
  let step := registerWorker clk m.worker m.boot m.endpoint m.sequence i
  (step.impl, match step.result with
    | .ok _ => { worker := m.worker, boot := m.boot, helloDone := true }
    | .error _ => session)

/-- the `ACTION_ACK` and `ACTION_RESULT` cases of `handle_frame` -/
def handleReport (kind : ReportKind) (clk : Clock) (session : Session) (payload : Bytes) (i : Impl) :
    Impl × Option Rejection :=
  match decodeReport kind payload with
  | .error e => (i, some (e.code, errorText e))
  | .ok r =>
    if ¬ session.helloDone then (i, some (unhandshaken kind))
    else
      let d : Delivery := { clk := clk, report := r }
      (d.after i, match (d.call.op.run d.call.clk i).result with
        | .ok _ => none
        | .error e => some (e.code, errorText e))

/-- the engine and the sessions of its connections -/
structure Fabric where
  impl : Impl
  sessions : ℕ → Session := fun _ => {}

/-- one step: a section of the engine, a frame on a connection, or a report of the coordinator's own -/
inductive Input where
  | operation (c : Call)
  | hello (n : ℕ) (clk : Clock) (m : HelloMessage)
  | frame (n : ℕ) (kind : ReportKind) (clk : Clock) (payload : Bytes)
  | enforcement (d : Delivery)

def Input.after : Input → Fabric → Fabric
  | .operation c, s => if isReport c.op then s else { s with impl := c.after s.impl }
  | .hello n clk m, s =>
    let (i, session) := handleHello clk m (s.sessions n) s.impl
    { impl := i, sessions := Function.update s.sessions n session }
  | .frame n kind clk payload, s => { s with impl := (handleReport kind clk (s.sessions n) payload s.impl).1 }
  | .enforcement d, s => { s with impl := d.after s.impl }

/-! ## Authenticity -/

/-- the report a step hands to the engine -/
def delivered : Input → Fabric → Option Delivery
  | .frame n kind clk payload, s =>
    if (s.sessions n).helloDone then (decodeReport kind payload).toOption.map fun r => ⟨clk, r⟩ else none
  | .enforcement d, _ => some d
  | _, _ => none

/-- the envelope of the action names an incarnation that holds live authority -/
def Live (a : ContainmentAction) (i : Impl) : Prop :=
  a.envelope.workerBoot.valid ∧ ∃ w, i.state.workers.incarnations.find ⟨a.envelope.worker, a.envelope.workerBoot⟩ =
    some w ∧ holdsLiveAuthority w.state = true

/-- a message that names exactly the action's incarnation, on a connection whose handshake was that incarnation's -/
def Vouched (a : ContainmentAction) (e : Input) (s : Fabric) : Prop :=
  ∃ n kind clk payload r, e = .frame n kind clk payload ∧ decodeReport kind payload = .ok r ∧
    s.sessions n = { worker := a.envelope.worker, boot := a.envelope.workerBoot, helloDone := true } ∧
    r.claim.worker = a.envelope.worker ∧ r.claim.boot = a.envelope.workerBoot

/-- not an acknowledgment that turns the action down -/
def Report.accepts : Report → Prop
  | .ack m => m.accepted = true
  | .result _ => True

/-- the mechanism recorded for a resource -/
def mechanismOf (id : ResourceId) (i : Impl) : Option ContainmentMechanism :=
  (i.state.topology.resources.find id).map (·.mechanism)

/-- the mechanism a message claims for the target of the action it names, if it claims one -/
def Report.mechanism : Report → Option ContainmentMechanism
  | .ack _ => none
  | .result m => if m.success = true ∧ m.mechanism ≠ .none then some m.mechanism else none

/-- the actions of a live incarnation are reported on by that incarnation alone, no other message changes the mechanism of
their targets, and they are acknowledged only by acceptance -/
structure Authentic (e : Input) (s : Fabric) : Prop where
  moved : ∀ id a a', s.impl.state.actions.find id = some a → Live a s.impl →
    (e.after s).impl.state.actions.find id = some a' → isReported a'.status = true → a'.status ≠ a.status → Vouched a e s
  mechanism : ∀ d id a, delivered e s = some d → s.impl.state.actions.find id = some a → Live a s.impl →
    mechanismOf a.target (e.after s).impl ≠ mechanismOf a.target s.impl → Vouched a e s
  accepted : ∀ d id a a', delivered e s = some d → s.impl.state.actions.find id = some a →
    (e.after s).impl.state.actions.find id = some a' → a'.status = .acknowledged → a.status ≠ .acknowledged →
    d.report.accepts

/-- the message claims a mechanism for the resource that is not the one recorded -/
def Report.remeasures (r : Report) (id : ResourceId) (i : Impl) : Prop :=
  ∃ claimed recorded, r.mechanism = some claimed ∧ mechanismOf id i = some recorded ∧ claimed ≠ recorded

/-- a report that the engine admits and that finds its action open comes from the action's incarnation, if that is live, and
is no refusal; and if it claims another mechanism for the target, it comes from every live incarnation with an action there -/
def Unforged (e : Input) (s : Fabric) : Prop :=
  ∀ d b, delivered e s = some d → Admits d.report s.impl b → d.report.opens b.status →
    (Live b s.impl → Vouched b e s) ∧ d.report.accepts ∧
      (d.report.remeasures b.target s.impl → ∀ id a, s.impl.state.actions.find id = some a → a.target = b.target →
        Live a s.impl → Vouched a e s)

/-- a result that is taken edits its target, if it reports success -/
theorem recordActionResult_resources (clk : Clock) (m : ActionResult) (i : Impl) {b : ContainmentAction}
    (hb : Admits (.result m) i b) (hopen : b.status = .dispatched ∨ b.status = .acknowledged) :
    (recordActionResult clk m i).impl.state.topology.resources = if m.success then
      i.state.topology.resources.update b.target (withResult m.mechanism) else i.state.topology.resources := by
  have hadmitted := (admitReport_iff "action.result" "result epoch is not current"
    "the reporting incarnation holds no live authority" (.result m) i b).mpr hb
  simp only [Report.claim] at hadmitted
  unfold recordActionResult
  rw [hadmitted]
  dsimp only
  rw [if_neg (by rcases hopen with h | h <;> simp [h]), if_neg (by rcases hopen with h | h <;> simp [h])]
  cases m.success with
  | false => rfl
  | true =>
    rw [if_pos rfl, ← editMap_single]
    exact editEach_resources _ _ _

/-- **What a report does to mechanisms.** -/
theorem mechanismOf_delivery (d : Delivery) (i : Impl) {b : ContainmentAction} (hb : Admits d.report i b)
    (ho : d.report.opens b.status) (id : ResourceId) : mechanismOf id (d.after i) =
      if b.target = id then (mechanismOf id i).map fun recorded => d.report.mechanism.getD recorded
      else mechanismOf id i := by
  obtain ⟨clk, report⟩ := d
  cases report with
  | ack m =>
    have htopology : (recordActionAck clk m i).impl.state.topology = i.state.topology :=
      (frame_recordActionAck clk m i).topology (by simp)
    show mechanismOf id (recordActionAck clk m i).impl = _
    simp only [mechanismOf, htopology, Report.mechanism, Option.getD_none, Option.map_id', ite_self]
  | result m =>
    have hresources := recordActionResult_resources clk m i hb (ho.imp_right And.right)
    show ((recordActionResult clk m i).impl.state.topology.resources.find id).map (·.mechanism) = _
    rw [hresources]
    cases hsuccess : m.success with
    | false => simp [mechanismOf, Report.mechanism, hsuccess, Function.comp_def]
    | true =>
      rw [if_pos rfl, OrderedMap.find_update]
      split_ifs with hid
      · rw [mechanismOf, Option.map_map, Option.map_map]
        congr 1
        funext r
        by_cases hnone : m.mechanism = .none <;> simp [withResult, Report.mechanism, hsuccess, hnone]
      · rfl

/-- a taken report changes a mechanism exactly when it claims another one for the target of its action -/
theorem mechanismOf_delivery_ne_iff (d : Delivery) (i : Impl) {b : ContainmentAction} (hb : Admits d.report i b)
    (ho : d.report.opens b.status) (id : ResourceId) : mechanismOf id (d.after i) ≠ mechanismOf id i ↔
      b.target = id ∧ d.report.remeasures id i := by
  rw [mechanismOf_delivery d i hb ho]
  unfold Report.remeasures
  split_ifs with hid
  · cases hrecorded : mechanismOf id i with
    | none => simp
    | some recorded =>
      cases hclaimed : d.report.mechanism with
      | none => simp
      | some claimed => simp [hid]
  · simp [hid]

theorem after_delivered {e : Input} {s : Fabric} {d : Delivery} (h : delivered e s = some d) :
    (e.after s).impl = d.after s.impl := by
  cases e with
  | operation c => simp [delivered] at h
  | hello n clk m => simp [delivered] at h
  | enforcement d' =>
    obtain rfl := Option.some.inj h
    rfl
  | frame n kind clk payload =>
    simp only [delivered] at h
    split_ifs at h with hdone
    obtain ⟨r, hr, rfl⟩ := Option.map_eq_some_iff.mp h
    cases hdecoded : decodeReport kind payload with
    | error e => simp [hdecoded, Except.toOption] at hr
    | ok r' =>
      rw [hdecoded] at hr
      obtain rfl := Option.some.inj hr
      simp only [Input.after, handleReport, hdecoded]
      rw [if_neg (not_not.mpr hdone)]

/-- a step that hands the engine no report moves no action to ACKNOWLEDGED or RESULT_RECORDED -/
theorem quiet_undelivered {e : Input} {s : Fabric} (h : delivered e s = none) : Quiet s.impl (e.after s).impl := by
  cases e with
  | operation c =>
    simp only [Input.after]
    split_ifs with hr
    · exact .refl _
    · exact quiet_after c s.impl (Bool.eq_false_of_not_eq_true hr)
  | hello n clk m => exact .of_eq ((frame_registerWorker clk m.worker m.boot m.endpoint m.sequence s.impl).actions (by simp))
  | enforcement d => simp [delivered] at h
  | frame n kind clk payload =>
    simp only [delivered] at h
    simp only [Input.after, handleReport]
    split
    · exact .refl _
    · next r hr =>
      rw [hr] at h
      split_ifs at h with hdone
      · simp [Except.toOption] at h
      · rw [if_pos hdone]
        exact .refl _

theorem Report.target_reported (r : Report) : isReported r.target = true := by
  unfold Report.target
  split_ifs <;> rfl

/-- a report moves an action on -/
theorem Report.opens_ne {r : Report} {st : ActionStatus} (h : r.opens st) : r.target ≠ st := by
  rcases h with rfl | ⟨hr, rfl⟩
  · unfold Report.target
    split_ifs <;> simp
  · unfold Report.target
    rw [if_pos hr]
    simp

/-- an action whose status a report changed is the one it names, admitted and open -/
theorem delivered_moved {d : Delivery} {i : Impl} {id : ActionId} {a a' : ContainmentAction}
    (ha : i.state.actions.find id = some a) (ha' : (d.after i).state.actions.find id = some a')
    (hne : a'.status ≠ a.status) : Admits d.report i a ∧ d.report.opens a.status ∧ a'.status = d.report.target := by
  rcases delivery_cases d i with hsame | ⟨b, b', hb, ho, -, hst, hstored⟩
  · rw [hsame, ha] at ha'
    exact absurd (congrArg _ (Option.some.inj ha'.symm)) hne
  · by_cases hid : d.report.claim.action = id
    · subst hid
      obtain rfl := Option.some.inj (ha.symm.trans hb.stored)
      rw [hstored, OrderedMap.find_insert_self] at ha'
      obtain rfl := Option.some.inj ha'
      exact ⟨hb, ho, hst⟩
    · rw [hstored, OrderedMap.find_insert_ne _ _ hid, ha] at ha'
      exact absurd (congrArg _ (Option.some.inj ha'.symm)) hne

/-- **Step.** A step is authentic exactly when it hands the engine no forged report. -/
theorem authentic_iff (e : Input) (s : Fabric) : Authentic e s ↔ Unforged e s := by
  constructor
  · intro h d b hd hb ho
    obtain ⟨b', -, hst, hstored⟩ := delivery_stores d s.impl hb ho
    have hb' : (e.after s).impl.state.actions.find d.report.claim.action = some b' := by
      rw [after_delivered hd, hstored, OrderedMap.find_insert_self]
    have hne : b'.status ≠ b.status := by
      rw [hst]
      exact Report.opens_ne ho
    have hreported : isReported b'.status = true := by
      rw [hst]
      exact d.report.target_reported
    refine ⟨fun hlive => h.moved _ b b' hb.stored hlive hb' hreported hne, ?_, fun hother id a ha htarget hlive => ?_⟩
    · cases hr : d.report with
      | result m => trivial
      | ack m =>
        have hacknowledged : b'.status = .acknowledged := by
          rw [hst, hr]
          rfl
        have haccepted := h.accepted d _ b b' hd hb.stored hb' hacknowledged (hacknowledged ▸ hne.symm)
        rwa [hr] at haccepted
    · refine h.mechanism d id a hd ha hlive ?_
      rw [after_delivered hd, htarget]
      exact (mechanismOf_delivery_ne_iff d s.impl hb ho _).mpr ⟨rfl, hother⟩
  · intro h
    refine ⟨fun id a a' ha hlive ha' hreported hne => ?_, fun d id a hd ha hlive hne => ?_,
      fun d id a a' hd ha ha' hacknowledged hne => ?_⟩
    · cases hd : delivered e s with
      | none =>
        obtain ⟨a₀, ha₀, hst⟩ := quiet_undelivered hd id a' ha' hreported
        obtain rfl := Option.some.inj (ha.symm.trans ha₀)
        exact absurd hst.symm hne
      | some d =>
        rw [after_delivered hd] at ha'
        obtain ⟨hadmits, hopens, -⟩ := delivered_moved ha ha' hne
        exact (h d a hd hadmits hopens).1 hlive
    · rw [after_delivered hd] at hne
      rcases delivery_cases d s.impl with hsame | ⟨b, b', hb, ho, -⟩
      · rw [hsame] at hne
        exact absurd rfl hne
      · obtain ⟨htarget, hother⟩ := (mechanismOf_delivery_ne_iff d s.impl hb ho _).mp hne
        exact (h d b hd hb ho).2.2 (htarget ▸ hother) id a ha htarget.symm hlive
    · rw [after_delivered hd] at ha'
      obtain ⟨hadmits, hopens, -⟩ := delivered_moved ha ha' (by rw [hacknowledged]; exact hne.symm)
      exact (h d a hd hadmits hopens).2.1

/-- **Authentic reports.** In a run of frames, operations and reports of the coordinator's own, every step is authentic
exactly when no step hands the engine a forged report. -/
theorem authentic_run_iff (inputs : List Input) (s : Fabric) :
    Runs.Along Input.after Authentic inputs s ↔ Runs.Along Input.after Unforged inputs s :=
  Runs.along_congr authentic_iff inputs s

/-- incarnation (1,11) owns resource 5 and has its containment dispatched; (2,22) is connected too -/
def twoWorkers : List Input := [
  .hello 1 ticks { worker := ⟨1⟩, boot := ⟨11⟩ },
  .hello 2 ticks { worker := ⟨2⟩, boot := ⟨22⟩ },
  .operation ⟨ticks, .registerResource { id := ⟨5⟩, ownerWorker := ⟨1⟩, ownerBoot := ⟨11⟩ }⟩,
  .operation ⟨ticks, .publishFault { subject := ⟨5⟩, kind := .processDeath }⟩,
  .operation ⟨ticks, .authorizeContainment ⟨1⟩ {}⟩,
  .operation ⟨ticks, .dispatchBegin ⟨1⟩ true⟩,
  .operation ⟨ticks, .dispatchEnd [({ id := ⟨1⟩ }, .ok [])] {}⟩]

/-- the payload of an acknowledgment of action 1 that names no incarnation and says `accepted = false` -/
def forgedPayload : Bytes :=
  leBytes 4 1 ++ leBytes 8 1 ++ leBytes 8 1 ++ leBytes 8 1 ++ leBytes 8 0 ++ leBytes 8 0 ++ [0] ++ leBytes 4 0 ++ leBytes 4 0

/-- the forged acknowledgment, on the other worker's connection -/
def forgery : Input := .frame 2 .ack ticks forgedPayload

/-- the state the forged acknowledgment finds -/
def beforeForgery : Fabric := Runs.run Input.after twoWorkers { impl := (Start.fresh ticks {}).impl }

theorem beforeForgery_action : ∃ a, beforeForgery.impl.state.actions.find ⟨1⟩ = some a ∧ a.status = .dispatched ∧
    a.envelope.worker = ⟨1⟩ ∧ Live a beforeForgery.impl := by
  have hbefore : (beforeForgery.impl.state.actions.find ⟨1⟩).map
      (fun a => (a.status, a.envelope.worker, a.envelope.workerBoot)) = some (.dispatched, ⟨1⟩, ⟨11⟩) := by decide +kernel
  have hlive : (beforeForgery.impl.state.workers.incarnations.find ⟨⟨1⟩, ⟨11⟩⟩).map
      (fun w => holdsLiveAuthority w.state) = some true := by decide +kernel
  obtain ⟨a, ha, hfields⟩ := Option.map_eq_some_iff.mp hbefore
  obtain ⟨w, hw, hwlive⟩ := Option.map_eq_some_iff.mp hlive
  simp only [Prod.mk.injEq] at hfields
  obtain ⟨hst, hworker, hboot⟩ := hfields
  refine ⟨a, ha, hst, hworker, by rw [hboot]; decide, w, ?_, hwlive⟩
  rw [hworker, hboot]
  exact hw

/-- another worker acknowledges the action, with an empty boot and without accepting it -/
theorem forged_acknowledgment :
    ¬ ∀ (start : Start) (inputs : List Input), start.succeeds →
      Runs.Along Input.after Authentic inputs { impl := start.impl } := by
  intro h
  have hall := h (.fresh ticks {}) (twoWorkers ++ [forgery]) trivial
  rw [Runs.along_append] at hall
  have hauthentic : Authentic forgery beforeForgery := hall.2.1
  have hafter : ((forgery.after beforeForgery).impl.state.actions.find ⟨1⟩).map (·.status) = some .acknowledged := by
    decide +kernel
  have hsession : (beforeForgery.sessions 2).worker = ⟨2⟩ := by decide +kernel
  obtain ⟨a, ha, hst, hworker, hlive⟩ := beforeForgery_action
  obtain ⟨a', ha', hst'⟩ := Option.map_eq_some_iff.mp hafter
  obtain ⟨n, kind, clk, payload, r, he, -, hn, -⟩ :=
    hauthentic.moved ⟨1⟩ a a' ha hlive ha' (by rw [hst']; rfl) (by rw [hst', hst]; simp)
  obtain rfl : 2 = n := (Input.frame.inj he).1
  have hsame : (⟨2⟩ : WorkerId) = ⟨1⟩ := by rw [← hsession, hn, ← hworker]
  exact absurd hsame (by decide)

end FaultContainment.Dispatching
