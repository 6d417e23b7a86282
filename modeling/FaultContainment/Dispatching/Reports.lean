/-
Acknowledgments and results around one dispatch.

The executor answers as soon as it is called, so its messages may be delivered between the two locked sections of
`dispatch_containment` (`early`) or after the second one (`late`). An action is AUTHORIZED until the second section settles
it, and only a DISPATCHED or ACKNOWLEDGED action takes a report.

- `delivery_cases`: what a message may do to the actions.
- `early_answered_iff`: before the second section no genuine message about an authorised action is taken.
- `reports_recorded_iff`: the messages of an action are recorded exactly when none of them comes early.
-/
import FaultContainment.Dispatching.HandOff

namespace FaultContainment.Dispatching

open FaultContainment.Lib FaultContainment.Ids FaultContainment.Enums FaultContainment.Records
open FaultContainment.DurableEvent FaultContainment.Engine

/-! ## Messages -/

/-- a message of the executor about an action -/
inductive Report where
  | ack (message : ActionAcknowledgment)
  | result (message : ActionResult)

/-- what a message claims -/
structure Claim where
  action : ActionId
  generation : ActionGeneration
  epoch : CoordinatorEpoch
  worker : WorkerId
  boot : WorkerBootId

def Report.claim : Report → Claim
  | .ack m => ⟨m.action, m.actionGeneration, m.epoch, m.worker, m.workerBoot⟩
  | .result m => ⟨m.action, m.actionGeneration, m.epoch, m.worker, m.workerBoot⟩

def Report.isResult : Report → Bool
  | .ack _ => false
  | .result _ => true

/-- a message with the clock readings of the section that takes it -/
structure Delivery where
  clk : Clock
  report : Report

/-- the section that takes the message -/
def Delivery.call (d : Delivery) : Call :=
  match d.report with
  | .ack m => ⟨d.clk, .recordActionAck m⟩
  | .result m => ⟨d.clk, .recordActionResult m⟩

/-- the engine after a message -/
def Delivery.after (d : Delivery) (i : Impl) : Impl := d.call.after i

/-- the message was taken -/
def Delivery.answered (d : Delivery) (i : Impl) : Prop := d.call.succeeds i

/-- the message carries the current epoch, the action's generation and the addressed incarnation, which is live -/
structure Genuine (a : ContainmentAction) (r : Report) (i : Impl) : Prop where
  action : r.claim.action = a.id
  generation : r.claim.generation = a.generation
  epoch : r.claim.epoch = i.state.epoch
  worker : r.claim.worker = a.envelope.worker
  boot : r.claim.boot = a.envelope.workerBoot
  live : r.claim.boot.valid → ∃ w, i.state.workers.incarnations.find ⟨r.claim.worker, r.claim.boot⟩ = some w ∧
    holdsLiveAuthority w.state = true

/-! ## What a message does -/

/-- the checks a message has to pass about the action it names -/
structure Admits (r : Report) (i : Impl) (b : ContainmentAction) : Prop where
  stored : i.state.actions.find r.claim.action = some b
  epoch : r.claim.epoch = i.state.epoch
  generation : r.claim.generation = b.generation
  live : r.claim.boot.valid → ∃ w, i.state.workers.incarnations.find ⟨r.claim.worker, r.claim.boot⟩ = some w ∧
    holdsLiveAuthority w.state = true

/-- the statuses a message moves an action from -/
def Report.opens (r : Report) (st : ActionStatus) : Prop := st = .dispatched ∨ r.isResult = true ∧ st = .acknowledged

/-- the status a message moves an action to -/
def Report.target (r : Report) : ActionStatus := if r.isResult then .resultRecorded else .acknowledged

theorem admitReport_iff (stage epochMessage authorityMessage : String) (r : Report) (i : Impl) (b : ContainmentAction) :
    admitReport stage epochMessage authorityMessage r.claim.action r.claim.generation r.claim.epoch r.claim.worker
      r.claim.boot i = .ok b ↔ Admits r i b := by
  constructor
  · intro h
    have hb := admitReport_find h
    unfold admitReport at h
    rw [hb] at h
    dsimp only at h
    split_ifs at h with hepoch hgeneration hvalid
    · split at h
      · simp at h
      · next w hw =>
        split_ifs at h with hlive
        exact ⟨hb, not_not.mp hepoch, not_not.mp hgeneration, fun _ => ⟨w, hw, hlive⟩⟩
    · exact ⟨hb, not_not.mp hepoch, not_not.mp hgeneration, fun hv => absurd hv hvalid⟩
  · rintro ⟨hb, hepoch, hgeneration, hlive⟩
    unfold admitReport
    rw [hb]
    dsimp only
    rw [if_neg (not_not.mpr hepoch), if_neg (not_not.mpr hgeneration)]
    split_ifs with hvalid
    · obtain ⟨w, hw, hl⟩ := hlive hvalid
      rw [hw]
      simp [hl]
    · rfl

/-- the action as an acknowledgment leaves it -/
def acknowledgedBy (clk : Clock) (m : ActionAcknowledgment) (b : ContainmentAction) : ContainmentAction :=
  { b with status := .acknowledged, acknowledgedAtMs := clk 0, executorToken := m.executorToken }

/-- the action as a result leaves it -/
def recordedBy (clk : Clock) (m : ActionResult) (b : ContainmentAction) : ContainmentAction :=
  { b with
    status := .resultRecorded, completedAtMs := clk 0
    mechanism := if m.mechanism ≠ .none then m.mechanism else b.mechanism }

/-- an admitted acknowledgment of a dispatched action is stored -/
theorem recordActionAck_stores (clk : Clock) (m : ActionAcknowledgment) (i : Impl) {b : ContainmentAction}
    (hb : Admits (.ack m) i b) (hs : b.status = .dispatched) :
    (recordActionAck clk m i).impl.state.actions = i.state.actions.insert m.action (acknowledgedBy clk m b) := by
  have hadmitted := (admitReport_iff "action.ack" "acknowledgment epoch is not current"
    "the acknowledging incarnation holds no live authority" (.ack m) i b).mpr hb
  simp only [Report.claim] at hadmitted
  unfold recordActionAck
  rw [hadmitted]
  dsimp only
  rw [if_neg (by simp [hs]), if_neg (by simp [hs])]
  rfl

/-- an admitted result of an open action is stored -/
theorem recordActionResult_stores (clk : Clock) (m : ActionResult) (i : Impl) {b : ContainmentAction}
    (hb : Admits (.result m) i b) (hopen : b.status = .dispatched ∨ b.status = .acknowledged) :
    (recordActionResult clk m i).impl.state.actions = i.state.actions.insert m.action (recordedBy clk m b) := by
  have hadmitted := (admitReport_iff "action.result" "result epoch is not current"
    "the reporting incarnation holds no live authority" (.result m) i b).mpr hb
  simp only [Report.claim] at hadmitted
  unfold recordActionResult
  rw [hadmitted]
  dsimp only
  rw [if_neg (by rcases hopen with h | h <;> simp [h]), if_neg (by rcases hopen with h | h <;> simp [h])]
  cases m.success with
  | false => rfl
  | true => exact (Frame.editEach (S := topologyParts) (by simp) (by simp) _ _ (.refl _ _)).actions (by simp)

/-- a message that is admitted and finds its action open moves it on -/
theorem delivery_stores (d : Delivery) (i : Impl) {b : ContainmentAction} (hb : Admits d.report i b)
    (ho : d.report.opens b.status) : ∃ b', b'.generation = b.generation ∧ b'.status = d.report.target ∧
      (d.after i).state.actions = i.state.actions.insert d.report.claim.action b' := by
  obtain ⟨clk, report⟩ := d
  cases report with
  | ack m =>
    rcases ho with ho | ⟨hr, -⟩
    · exact ⟨acknowledgedBy clk m b, rfl, rfl, recordActionAck_stores clk m i hb ho⟩
    · simp [Report.isResult] at hr
  | result m => exact ⟨recordedBy clk m b, rfl, rfl, recordActionResult_stores clk m i hb (ho.imp_right And.right)⟩

/-- any other message changes nothing -/
theorem delivery_refused (d : Delivery) (i : Impl) (h : ∀ b, Admits d.report i b → ¬ d.report.opens b.status) :
    d.after i = i := by
  obtain ⟨clk, report⟩ := d
  cases report with
  | ack m =>
    show (recordActionAck clk m i).impl = i
    unfold recordActionAck
    split
    · rfl
    · next b hb =>
      have hclosed := h b ((admitReport_iff _ _ _ (.ack m) i b).mp hb)
      split_ifs with hdone hstatus
      · rfl
      · rfl
      · exact absurd (.inl (not_not.mp hstatus)) hclosed
  | result m =>
    show (recordActionResult clk m i).impl = i
    unfold recordActionResult
    split
    · rfl
    · next b hb =>
      have hclosed := h b ((admitReport_iff _ _ _ (.result m) i b).mp hb)
      obtain ⟨hnd, hna⟩ := not_or.mp hclosed
      split
      · rfl
      split
      · rfl
      · next hstatus => exact absurd ⟨fun ha => hna ⟨rfl, ha⟩, hnd⟩ hstatus

/-- a message changes nothing, or moves on the open action that it names -/
theorem delivery_cases (d : Delivery) (i : Impl) : d.after i = i ∨
    ∃ b b', Admits d.report i b ∧ d.report.opens b.status ∧ b'.generation = b.generation ∧
      b'.status = d.report.target ∧ (d.after i).state.actions = i.state.actions.insert d.report.claim.action b' := by
  by_cases h : ∃ b, Admits d.report i b ∧ d.report.opens b.status
  · obtain ⟨b, hb, ho⟩ := h
    obtain ⟨b', hb'⟩ := delivery_stores d i hb ho
    exact .inr ⟨b, b', hb, ho, hb'⟩
  · exact .inl (delivery_refused d i fun b hb ho => h ⟨b, hb, ho⟩)

theorem delivery_frame (d : Delivery) (i : Impl) : Frame (.actions :: topologyParts) i (d.after i) := by
  obtain ⟨clk, report⟩ := d
  cases report with
  | ack m => exact (frame_recordActionAck clk m i).mono (by simp)
  | result m => exact frame_recordActionResult clk m i

/-- a message leaves epoch and incarnations alone -/
theorem genuine_after (d : Delivery) (i : Impl) (a : ContainmentAction) (r : Report) :
    Genuine a r (d.after i) ↔ Genuine a r i := by
  have he := (delivery_frame d i).epoch (by simp)
  have hw := (delivery_frame d i).workers (by simp)
  constructor
  · rintro ⟨h1, h2, h3, h4, h5, h6⟩
    exact ⟨h1, h2, he ▸ h3, h4, h5, hw ▸ h6⟩
  · rintro ⟨h1, h2, h3, h4, h5, h6⟩
    exact ⟨h1, h2, he ▸ h3, h4, h5, hw ▸ h6⟩

/-- a genuine message about a stored action is admitted -/
theorem Genuine.admits {a b : ContainmentAction} {r : Report} {i : Impl} (h : Genuine a r i)
    (hb : i.state.actions.find a.id = some b) (hg : b.generation = a.generation) : Admits r i b :=
  ⟨h.action ▸ hb, h.epoch, h.generation.trans hg.symm, h.live⟩

/-! ## Before the second section -/

/-- the action is stored as it was handed over -/
abbrev Stored (a : ContainmentAction) (i : Impl) : Prop := i.state.actions.find a.id = some a

/-- an authorised action is not moved by any message -/
theorem authorized_after {a : ContainmentAction} (hs : a.status = .authorized) (d : Delivery) (i : Impl)
    (ha : Stored a i) : Stored a (d.after i) := by
  rcases delivery_cases d i with h | ⟨b, b', hb, ho, -, -, h⟩
  · rwa [h]
  · unfold Stored at ha ⊢
    rw [h]
    by_cases hid : d.report.claim.action = a.id
    · have hstored := hb.stored
      rw [hid, ha] at hstored
      obtain rfl := Option.some.inj hstored
      rw [hs] at ho
      simp [Report.opens] at ho
    · rw [OrderedMap.find_insert_ne _ _ hid, ha]

/-- a genuine message about an authorised action is refused -/
theorem authorized_refuses {d : Delivery} {i : Impl} {a : ContainmentAction} (ha : Stored a i)
    (hs : a.status = .authorized) (h : Genuine a d.report i) : ¬ d.answered i := by
  have hadmits := h.admits ha rfl
  obtain ⟨clk, report⟩ := d
  cases report with
  | ack m =>
    have hadmitted := (admitReport_iff "action.ack" "acknowledgment epoch is not current"
      "the acknowledging incarnation holds no live authority" (.ack m) i a).mpr hadmits
    simp only [Report.claim] at hadmitted
    simp [Delivery.answered, Delivery.call, Call.succeeds, Op.run, recordActionAck, hadmitted, hs, Step.refuse]
  | result m =>
    have hadmitted := (admitReport_iff "action.result" "result epoch is not current"
      "the reporting incarnation holds no live authority" (.result m) i a).mpr hadmits
    simp only [Report.claim] at hadmitted
    simp [Delivery.answered, Delivery.call, Call.succeeds, Op.run, recordActionResult, hadmitted, hs, Step.refuse]

/-- before the second section, no genuine message about an authorised action is taken -/
theorem early_answered_iff {a : ContainmentAction} (hs : a.status = .authorized) (early : List Delivery) (i : Impl)
    (ha : Stored a i) :
    Runs.Along Delivery.after (fun d s => Genuine a d.report s → d.answered s) early i ↔
      ∀ d ∈ early, ¬ Genuine a d.report i := by
  induction early generalizing i with
  | nil => simp
  | cons d early ih =>
    rw [Runs.along_cons, ih _ (authorized_after hs d i ha), List.forall_mem_cons]
    refine and_congr ?_ (forall_congr' fun d' => imp_congr_right fun _ => not_congr (genuine_after d i a d'.report))
    exact ⟨fun h hg => authorized_refuses ha hs hg (h hg), fun h hg => absurd hg h⟩

theorem authorized_run {a : ContainmentAction} (hs : a.status = .authorized) (early : List Delivery) {i : Impl}
    (ha : Stored a i) : Stored a (Runs.run Delivery.after early i) :=
  Runs.run_keeps (authorized_after hs) early ha

/-! ## After the second section -/

/-- the statuses an accepted action goes through -/
def isAccepted : ActionStatus → Bool
  | .dispatched | .acknowledged | .resultRecorded => true
  | _ => false

/-- the action was accepted by its executor, and is recorded if `done` -/
def Accepted (a : ContainmentAction) (done : Prop) (i : Impl) : Prop :=
  ∃ b, i.state.actions.find a.id = some b ∧ b.generation = a.generation ∧ isAccepted b.status = true ∧
    (done → b.status = .resultRecorded)

/-- no message undoes what was accepted or recorded -/
theorem accepted_after (d : Delivery) {i : Impl} {a : ContainmentAction} {done : Prop} (h : Accepted a done i) :
    Accepted a done (d.after i) := by
  rcases delivery_cases d i with hsame | ⟨c, c', hc, ho, hgen, hst, hstored⟩
  · rwa [hsame]
  · obtain ⟨b, hb, hg, hs, hdone⟩ := h
    by_cases hid : d.report.claim.action = a.id
    · have hfound := hc.stored
      rw [hid, hb] at hfound
      obtain rfl := Option.some.inj hfound
      refine ⟨c', by rw [hstored, hid, OrderedMap.find_insert_self], hgen.trans hg, ?_, fun hd => ?_⟩
      · rw [hst]
        unfold Report.target
        split_ifs <;> rfl
      · rw [hdone hd] at ho
        simp [Report.opens] at ho
    · exact ⟨b, by rw [hstored, OrderedMap.find_insert_ne _ _ hid, hb], hg, hs, hdone⟩

/-- a genuine message about an accepted action is answered -/
theorem accepted_answers {d : Delivery} {i : Impl} {a : ContainmentAction} (h : Accepted a False i)
    (hg : Genuine a d.report i) : d.answered i := by
  obtain ⟨b, hb, hgen, hs, -⟩ := h
  have hadmits := hg.admits hb hgen
  obtain ⟨clk, report⟩ := d
  cases report with
  | ack m =>
    have hadmitted := (admitReport_iff "action.ack" "acknowledgment epoch is not current"
      "the acknowledging incarnation holds no live authority" (.ack m) i b).mpr hadmits
    simp only [Report.claim] at hadmitted
    simp only [Delivery.answered, Delivery.call, Call.succeeds, Op.run, recordActionAck, hadmitted]
    cases hst : b.status <;> simp [isAccepted, hst, Step.answer, commit] at hs ⊢
  | result m =>
    have hadmitted := (admitReport_iff "action.result" "result epoch is not current"
      "the reporting incarnation holds no live authority" (.result m) i b).mpr hadmits
    simp only [Report.claim] at hadmitted
    simp only [Delivery.answered, Delivery.call, Call.succeeds, Op.run, recordActionResult, hadmitted]
    cases hst : b.status <;> simp [isAccepted, hst, Step.answer, commit] at hs ⊢

/-- a genuine result of an accepted action is recorded -/
theorem accepted_records {d : Delivery} {i : Impl} {a : ContainmentAction} (h : Accepted a False i)
    (hg : Genuine a d.report i) (hr : d.report.isResult = true) : Accepted a True (d.after i) := by
  obtain ⟨b, hb, hgen, hs, -⟩ := h
  by_cases hst : b.status = .resultRecorded
  · exact accepted_after d ⟨b, hb, hgen, hs, fun _ => hst⟩
  · have hopen : d.report.opens b.status := by
      unfold Report.opens
      cases hst' : b.status <;> simp [isAccepted, hst', hr] at hs hst ⊢
    obtain ⟨b', hgen', hst', hstored⟩ := delivery_stores d i (hg.admits hb hgen) hopen
    rw [hg.action] at hstored
    have htarget : b'.status = .resultRecorded := by rw [hst', Report.target, if_pos hr]
    exact ⟨b', by rw [hstored, OrderedMap.find_insert_self], hgen'.trans hgen, by rw [htarget]; rfl, fun _ => htarget⟩

/-- after the second section every genuine message is taken -/
theorem late_answered {a : ContainmentAction} (late : List Delivery) {i : Impl} (h : Accepted a False i) :
    Runs.Along Delivery.after (fun d s => Genuine a d.report s → d.answered s) late i := by
  induction late generalizing i with
  | nil => trivial
  | cons d late ih => exact ⟨accepted_answers h, ih (accepted_after d h)⟩

/-- a genuine result that comes after the second section is recorded at the end -/
theorem late_recorded {a : ContainmentAction} (late : List Delivery) {i : Impl} (h : Accepted a False i) {d : Delivery}
    (hd : d ∈ late) (hg : Genuine a d.report i) (hr : d.report.isResult = true) :
    Accepted a True (Runs.run Delivery.after late i) := by
  induction late generalizing i with
  | nil => simp at hd
  | cons d' late ih =>
    rcases List.mem_cons.mp hd with rfl | hd
    · exact Runs.run_keeps (fun d _ h => accepted_after d h) late (accepted_records h hg hr)
    · exact ih (accepted_after d' h) hd ((genuine_after d' i a d.report).mpr hg)

/-! ## The second section -/

/-- the attempts of a call whose executor answers as `executor` does -/
def attemptsOf (executor : ContainmentAction → Except Error Text) (todo : List ContainmentAction) : List Attempt :=
  todo.map fun a => (a, executor a)

theorem settleOne_other (clk : Clock) (d : Dispatch) {t : Attempt} {k : ActionId} (h : t.1.id ≠ k) :
    (settleOne clk d t).impl.state.actions.find k = d.impl.state.actions.find k := by
  unfold settleOne
  split
  · rfl
  · split_ifs
    · rfl
    · split
      · exact OrderedMap.find_insert_ne _ _ h
      · exact OrderedMap.find_insert_ne _ _ h

theorem settleOne_settled (clk : Clock) (d : Dispatch) {t : Attempt} {b : ContainmentAction}
    (hb : d.impl.state.actions.find t.1.id = some b) (hs : b.status ≠ .authorized) : settleOne clk d t = d := by
  unfold settleOne
  rw [hb]
  exact if_pos hs

theorem settleOne_accepted (clk : Clock) (d : Dispatch) {t : Attempt} {b : ContainmentAction} {token : Text}
    (hb : d.impl.state.actions.find t.1.id = some b) (hs : b.status = .authorized) (ht : t.2 = .ok token) :
    (settleOne clk d t).impl.state.actions.find t.1.id =
      some { b with status := .dispatched, executorToken := token, dispatchedAtMs := clk 0 } := by
  unfold settleOne
  rw [hb]
  dsimp only
  rw [if_neg (not_not.mpr hs), ht]
  exact OrderedMap.find_insert_self _ _ _

/-- the second section marks an authorised action that its executor accepted -/
theorem settle_loop (clk : Clock) {a : ContainmentAction} (attempts : List Attempt)
    (hok : ∀ t ∈ attempts, t.1.id = a.id → ∃ token, t.2 = .ok token) {d : Dispatch}
    (h : (Stored a d.impl ∧ a.status = .authorized ∧ ∃ t ∈ attempts, t.1.id = a.id) ∨
      ∃ b, d.impl.state.actions.find a.id = some b ∧ b.generation = a.generation ∧ b.status = .dispatched) :
    ∃ b, (attempts.foldl (settleOne clk) d).impl.state.actions.find a.id = some b ∧ b.generation = a.generation ∧
      b.status = .dispatched := by
  induction attempts generalizing d with
  | nil =>
    rcases h with ⟨-, -, t, ht, -⟩ | h
    · simp at ht
    · exact h
  | cons t attempts ih =>
    refine ih (fun t' ht' => hok t' (List.mem_cons_of_mem _ ht')) ?_
    by_cases hid : t.1.id = a.id
    · refine .inr ?_
      rw [← hid] at h ⊢
      rcases h with ⟨hstored, hs, -⟩ | ⟨b, hb, hg, hs⟩
      · obtain ⟨token, ht⟩ := hok t List.mem_cons_self hid
        exact ⟨_, settleOne_accepted clk d (hid ▸ hstored) hs ht, rfl, rfl⟩
      · exact ⟨b, by rw [settleOne_settled clk d hb (by simp [hs]), hb], hg, hs⟩
    · have hother := settleOne_other clk d hid
      rcases h with ⟨hstored, hs, t', ht', hid'⟩ | ⟨b, hb, hg, hs⟩
      · rcases List.mem_cons.mp ht' with rfl | ht'
        · exact absurd hid' hid
        · exact .inl ⟨hother.trans hstored, hs, t', ht', hid'⟩
      · exact .inr ⟨b, hother.trans hb, hg, hs⟩

/-! ## The first section -/

/-- what revalidation looks at is not written by a dispatch -/
theorem revalidate_frame {i j : Impl} (h : Frame [.actions] i j) (record : ContainmentRecord) (a : ContainmentAction) :
    revalidateAction j.state record a = revalidateAction i.state record a := by
  unfold revalidateAction
  rw [h.epoch (by simp), h.policyGeneration (by simp), h.topologyGeneration (by simp), h.topology (by simp),
    h.faults (by simp)]

/-- every entry of the hand-off list is stored as it is, authorised now, and would be taken again -/
structure Listed (clk : Clock) (i : Impl) (record : ContainmentRecord) (d : Dispatch) : Prop where
  frame : Frame [.actions] i d.impl
  keyed : ActionsKeyed d.impl
  stored : ∀ a ∈ d.toDispatch, Stored a d.impl
  now : ∀ a ∈ d.toDispatch, authorizedAt (clk 0) a = a
  valid : ∀ a ∈ d.toDispatch, revalidateAction i.state record a = .ok

theorem listed_dispatchOne (clk : Clock) {i : Impl} {record : ContainmentRecord} {d : Dispatch}
    (h : Listed clk i record d) (id : ActionId) : Listed clk i record (dispatchOne clk record d id) := by
  have hframe := Frame.dispatchOne (S := [.actions]) (by simp) clk record h.frame id
  have hkeyed := h.keyed.moves (moves_dispatchOne clk record (.refl d.impl) id)
  revert hframe hkeyed
  unfold dispatchOne
  split
  · exact fun _ _ => h
  · next b hb =>
    have hid : b.id = id := h.keyed id b hb
    split_ifs with hstatus hrefused
    · exact fun _ _ => h
    · intro hframe hkeyed
      refine ⟨hframe, hkeyed, fun a ha => ?_, h.now, h.valid⟩
      -- an entry of the list would not be refused
      have hne : id ≠ a.id := by
        rintro rfl
        obtain rfl := Option.some.inj (hb.symm.trans (h.stored a ha))
        rw [revalidate_frame h.frame, h.valid _ ha] at hrefused
        exact hrefused rfl
      exact (OrderedMap.find_insert_ne _ _ hne).trans (h.stored a ha)
    · intro hframe hkeyed
      have hvalid : revalidateAction i.state record (authorizedAt (clk 0) b) = .ok :=
        (revalidate_frame h.frame record b).symm.trans (not_not.mp hrefused)
      refine ⟨hframe, hkeyed, fun a ha => ?_, fun a ha => ?_, fun a ha => ?_⟩
      · rcases List.mem_append.mp ha with hold | hnew
        · by_cases hne : id = a.id
          · -- an entry of the list is authorised a second time
            subst hne
            obtain rfl := Option.some.inj (hb.symm.trans (h.stored a hold))
            exact (authorize_find d _ _ record _ _).trans (congrArg some (h.now _ hold))
          · exact (OrderedMap.find_insert_ne _ _ hne).trans (h.stored a hold)
        · obtain rfl := List.mem_singleton.mp hnew
          subst hid
          exact authorize_find d _ _ record _ _
      · rcases List.mem_append.mp ha with hold | hnew
        · exact h.now a hold
        · obtain rfl := List.mem_singleton.mp hnew
          rfl
      · rcases List.mem_append.mp ha with hold | hnew
        · exact h.valid a hold
        · obtain rfl := List.mem_singleton.mp hnew
          exact hvalid

/-- the hand-off list of a first section -/
theorem listed_dispatchBegin {clk : Clock} {generation : ContainmentGeneration} {i : Impl} (hk : ActionsKeyed i)
    {todo : List ContainmentAction} {summary : DispatchSummary}
    (hok : (dispatchBegin clk generation true i).result = .ok (todo, summary)) :
    ∃ record d, admitDispatch generation true i = .ok record ∧ Listed clk i record d ∧ d.toDispatch = todo ∧
      (dispatchBegin clk generation true i).impl = d.impl ∧
      d = record.actions.foldl (dispatchOne clk record)
        { impl := i, summary := { containmentGeneration := generation } } := by
  unfold dispatchBegin at hok ⊢
  split at hok
  · simp [Step.refuse] at hok
  · next record hadmitted =>
    have hloop : ∀ (ids : List ActionId) (d : Dispatch), Listed clk i record d →
        Listed clk i record (ids.foldl (dispatchOne clk record) d) := by
      intro ids
      induction ids with
      | nil => exact fun _ h => h
      | cons id ids ih => exact fun d h => ih _ (listed_dispatchOne clk h id)
    rw [hadmitted]
    exact ⟨record, _, rfl, hloop record.actions { impl := i, summary := { containmentGeneration := generation } }
      ⟨.refl _ i, hk, by simp, by simp, by simp⟩, congrArg Prod.fst (Except.ok.inj hok), rfl, rfl⟩

/-- what the first section hands over is stored as it is, and authorised -/
theorem dispatchBegin_stored {clk : Clock} {generation : ContainmentGeneration} {i : Impl} (hk : ActionsKeyed i)
    {todo : List ContainmentAction} {summary : DispatchSummary}
    (hok : (dispatchBegin clk generation true i).result = .ok (todo, summary)) {a : ContainmentAction} (ha : a ∈ todo) :
    Stored a (dispatchBegin clk generation true i).impl ∧ a.status = .authorized := by
  obtain ⟨record, d, -, hlisted, rfl, himpl, -⟩ := listed_dispatchBegin hk hok
  rw [himpl]
  refine ⟨hlisted.stored a ha, ?_⟩
  rw [← hlisted.now a ha]
  rfl

/-! ## One dispatch and its messages -/

/-- a call of `dispatch_containment` with the messages delivered before and after its second section -/
structure Exchange where
  generation : ContainmentGeneration
  executor : ContainmentAction → Except Error Text
  clkBegin : Clock
  clkEnd : Clock
  early : List Delivery
  late : List Delivery

namespace Exchange

variable (x : Exchange) (i : Impl)

/-- the engine after the first section, as the executor is entered -/
def opened : Impl := (dispatchBegin x.clkBegin x.generation true i).impl

/-- the engine after the second section -/
def closed (todo : List ContainmentAction) (summary : DispatchSummary) : Impl :=
  (dispatchEnd x.clkEnd (attemptsOf x.executor todo) summary (Runs.run Delivery.after x.early (x.opened i))).impl

/-- the engine once everything is delivered -/
def final (todo : List ContainmentAction) (summary : DispatchSummary) : Impl :=
  Runs.run Delivery.after x.late (x.closed i todo summary)

/-- no message of an accepted action is lost: each genuine one is taken when it is delivered, and once both an
acknowledgment and a result are, the action is RESULT_RECORDED -/
def Records (todo : List ContainmentAction) (summary : DispatchSummary) (a : ContainmentAction) : Prop :=
  Runs.Along Delivery.after (fun d s => Genuine a d.report s → d.answered s) x.early (x.opened i) ∧
  Runs.Along Delivery.after (fun d s => Genuine a d.report s → d.answered s) x.late (x.closed i todo summary) ∧
  ((∃ d ∈ x.early ++ x.late, Genuine a d.report (x.opened i) ∧ d.report.isResult = false) →
    (∃ d ∈ x.early ++ x.late, Genuine a d.report (x.opened i) ∧ d.report.isResult = true) →
    Recorded a.id (x.final i todo summary))

end Exchange

/-- no genuine message of an accepted action comes before the second section -/
def NoneEarly (x : Exchange) (i : Impl) (a : ContainmentAction) : Prop :=
  ∀ d ∈ x.early, ¬ Genuine a d.report (x.opened i)

theorem genuine_run (ds : List Delivery) (i : Impl) (a : ContainmentAction) (r : Report) :
    Genuine a r (Runs.run Delivery.after ds i) ↔ Genuine a r i := by
  induction ds generalizing i with
  | nil => rfl
  | cons d ds ih => rw [Runs.run_cons, ih, genuine_after]

/-- what is genuine as the executor is entered is genuine after the second section -/
theorem genuine_closed {x : Exchange} {i : Impl} {todo : List ContainmentAction} {summary : DispatchSummary}
    {a : ContainmentAction} {r : Report} (h : Genuine a r (x.opened i)) : Genuine a r (x.closed i todo summary) := by
  obtain ⟨h1, h2, h3, h4, h5, h6⟩ := (genuine_run x.early (x.opened i) a r).mpr h
  have hframe := frame_dispatchEnd x.clkEnd (attemptsOf x.executor todo) summary
    (Runs.run Delivery.after x.early (x.opened i))
  exact ⟨h1, h2, h3.trans (hframe.epoch (by simp)).symm, h4, h5, (hframe.workers (by simp)).symm ▸ h6⟩

/-- an action its executor accepted is open after the second section -/
theorem accepted_closed {x : Exchange} {i : Impl} (hk : ActionsKeyed i) {todo : List ContainmentAction}
    {summary : DispatchSummary} (hok : (dispatchBegin x.clkBegin x.generation true i).result = .ok (todo, summary))
    {a : ContainmentAction} (ha : a ∈ todo) {token : Text} (htoken : x.executor a = .ok token) :
    Accepted a False (x.closed i todo summary) := by
  obtain ⟨hstored, hs⟩ := dispatchBegin_stored hk hok ha
  have haccepted : ∀ t ∈ attemptsOf x.executor todo, t.1.id = a.id → ∃ token, t.2 = .ok token := by
    intro t ht hid
    obtain ⟨b, hb, rfl⟩ := List.mem_map.mp ht
    have hstored' := (dispatchBegin_stored hk hok hb).1
    unfold Stored at hstored'
    rw [show b.id = a.id from hid] at hstored'
    obtain rfl : a = b := Option.some.inj (hstored.symm.trans hstored')
    exact ⟨token, htoken⟩
  obtain ⟨b, hb, hg, hst⟩ := settle_loop x.clkEnd (attemptsOf x.executor todo) haccepted
    (d := { impl := Runs.run Delivery.after x.early (x.opened i), summary := summary })
    (.inl ⟨authorized_run hs x.early hstored, hs, (a, x.executor a), List.mem_map.mpr ⟨a, ha, rfl⟩, rfl⟩)
  exact ⟨b, hb, hg, by rw [hst]; rfl, False.elim⟩

/-- **No report is lost, unless it comes early.** Around a dispatch in any reachable state, the messages of an accepted
action are all taken, and leave it RESULT_RECORDED, exactly when none of them is delivered before the second section. -/
theorem reports_recorded_iff (start : Start) (hstart : start.succeeds) (pre : List Call) (x : Exchange)
    {todo : List ContainmentAction} {summary : DispatchSummary}
    (hok : (dispatchBegin x.clkBegin x.generation true (Runs.run Call.after pre start.impl)).result =
      .ok (todo, summary))
    {a : ContainmentAction} (ha : a ∈ todo) {token : Text} (htoken : x.executor a = .ok token) :
    x.Records (Runs.run Call.after pre start.impl) todo summary a ↔
      NoneEarly x (Runs.run Call.after pre start.impl) a := by
  have hk : ActionsKeyed (Runs.run Call.after pre start.impl) :=
    Runs.run_keeps (fun c _ h => actionsKeyed_after c h) pre (actionsKeyed_start start hstart)
  generalize Runs.run Call.after pre start.impl = i at hok hk ⊢
  obtain ⟨hstored, hs⟩ := dispatchBegin_stored hk hok ha
  have hclosed := accepted_closed hk hok ha htoken
  have hearly := early_answered_iff hs x.early (x.opened i) hstored
  constructor
  · exact fun h => hearly.mp h.1
  · intro hnone
    refine ⟨hearly.mpr hnone, late_answered x.late hclosed, ?_⟩
    rintro - ⟨d, hd, hg, hr⟩
    have hlate : d ∈ x.late := by
      rcases List.mem_append.mp hd with hd | hd
      · exact absurd hg (hnone d hd)
      · exact hd
    obtain ⟨b, hb, -, -, hrecorded⟩ := late_recorded x.late hclosed hlate (genuine_closed hg) hr
    exact ⟨b, hb, hrecorded trivial⟩

/-- the state with one action planned -/
def plannedState : Impl := Runs.run Call.after planning (Start.fresh ticks {}).impl

/-- the planned action's result, as an executor that enforces a containment reports it -/
def resultMessage : Delivery := ⟨ticks, .result { action := ⟨1⟩, actionGeneration := ⟨1⟩, epoch := ⟨1⟩, success := true }⟩

/-- a dispatch of the planned action, its result delivered before or after the second section -/
def exchange (early late : List Delivery) : Exchange where
  generation := ⟨1⟩
  executor _ := .ok []
  clkBegin := ticks
  clkEnd := ticks
  early := early
  late := late

/-- the planned action is the hand-off list of a first section -/
theorem planned_todo : ∃ a summary, (dispatchBegin ticks ⟨1⟩ true plannedState).result = .ok ([a], summary) ∧
    Genuine a resultMessage.report (dispatchBegin ticks ⟨1⟩ true plannedState).impl := by
  have htodo : ((dispatchBegin ticks ⟨1⟩ true plannedState).result.toOption.map fun p => p.1.map fun a =>
      (a.id, a.generation, a.envelope.worker, a.envelope.workerBoot)) = some [(⟨1⟩, ⟨1⟩, ⟨0⟩, ⟨0⟩)] := by decide +kernel
  have hepoch : (dispatchBegin ticks ⟨1⟩ true plannedState).impl.state.epoch = ⟨1⟩ := by decide +kernel
  cases hr : (dispatchBegin ticks ⟨1⟩ true plannedState).result with
  | error e => simp [hr, Except.toOption] at htodo
  | ok p =>
    obtain ⟨todo, summary⟩ := p
    rw [hr] at htodo
    obtain ⟨a, rfl, ha⟩ : ∃ a, todo = [a] ∧
        (a.id, a.generation, a.envelope.worker, a.envelope.workerBoot) = ((⟨1⟩ : ActionId), ⟨1⟩, ⟨0⟩, ⟨0⟩) := by
      simpa [Except.toOption, List.map_eq_singleton_iff] using htodo
    simp only [Prod.mk.injEq] at ha
    obtain ⟨hid, hg, hw, hb⟩ := ha
    exact ⟨a, summary, rfl, hid.symm, hg.symm, hepoch.symm, hw.symm, hb.symm, fun hv => absurd hv (by decide)⟩

/-- a result delivered after the second section is recorded -/
theorem reports_recorded_late : ∃ a summary, (exchange [] [resultMessage]).Records plannedState [a] summary a := by
  obtain ⟨a, summary, hok, -⟩ := planned_todo
  exact ⟨a, summary, (reports_recorded_iff (.fresh ticks {}) trivial planning (exchange [] [resultMessage]) hok
    List.mem_cons_self rfl).mpr (fun d hd => absurd hd List.not_mem_nil)⟩

/-- a result delivered before the second section is lost -/
theorem reports_lost :
    ¬ ∀ (start : Start) (pre : List Call) (x : Exchange) (todo : List ContainmentAction) (summary : DispatchSummary)
      (a : ContainmentAction) (token : Text), start.succeeds →
      (dispatchBegin x.clkBegin x.generation true (Runs.run Call.after pre start.impl)).result = .ok (todo, summary) →
      a ∈ todo → x.executor a = .ok token → x.Records (Runs.run Call.after pre start.impl) todo summary a := by
  intro h
  obtain ⟨a, summary, hok, hgenuine⟩ := planned_todo
  obtain ⟨hearly, -⟩ := h (.fresh ticks {}) planning (exchange [resultMessage] []) [a] summary a [] trivial hok
    List.mem_cons_self rfl
  have hk : ActionsKeyed plannedState :=
    Runs.run_keeps (fun c _ h => actionsKeyed_after c h) planning (actionsKeyed_construct ticks {})
  obtain ⟨hstored, hs⟩ := dispatchBegin_stored hk hok List.mem_cons_self
  exact (early_answered_iff hs [resultMessage] _ hstored).mp hearly resultMessage List.mem_cons_self hgenuine

end FaultContainment.Dispatching
