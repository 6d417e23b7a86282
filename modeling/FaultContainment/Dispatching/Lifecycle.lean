/-
The lifecycle of an action.

A status moves forward along planned, authorised, dispatched, acknowledged, recorded, or leaves that line for one of three
ends; what happens to an action is read off the operations that store one. Every operation is a section of its own here, so
the two halves of a dispatch, acknowledgments, results and epoch advances are interleaved in every order.

- `moves_after`: an operation moves every action forward, and plans new ones.
- `inFlightCurrent_after`: an action in flight carries the current epoch.
- `lifecycle_run`: both hold in every run, and the effects of a result are applied at most once.
-/
import FaultContainment.Engine.Frame
import FaultContainment.Engine.Recovery

namespace FaultContainment.Dispatching

open FaultContainment.Lib FaultContainment.Ids FaultContainment.Enums FaultContainment.Records
open FaultContainment.DurableEvent FaultContainment.Engine FaultContainment.Persistence

/-! ## The order of statuses -/

/-- one move of an action -/
inductive Forward : ActionStatus → ActionStatus → Prop where
  | authorize : Forward .planned .authorized
  | dispatch : Forward .authorized .dispatched
  | acknowledge : Forward .dispatched .acknowledged
  | record : Forward .acknowledged .resultRecorded
  | recordUnacknowledged : Forward .dispatched .resultRecorded
  | supersedePlanned : Forward .planned .superseded
  | supersedeAuthorized : Forward .authorized .superseded
  | decline : Forward .authorized .rejectedInfeasible
  | loseAuthorized : Forward .authorized .ambiguous
  | loseDispatched : Forward .dispatched .ambiguous
  | loseAcknowledged : Forward .acknowledged .ambiguous

/-- any number of moves -/
abbrev Reaches : ActionStatus → ActionStatus → Prop := Relation.ReflTransGen Forward

/-- the statuses an action stays in -/
def isFinal : ActionStatus → Bool
  | .resultRecorded | .superseded | .rejectedInfeasible | .ambiguous => true
  | _ => false

/-- handed to the executor, or about to be, and not settled -/
def inFlight : ActionStatus → Bool
  | .authorized | .dispatched | .acknowledged => true
  | _ => false

/-- a final status is never left -/
theorem reaches_final {st st' : ActionStatus} (h : Reaches st st') (hf : isFinal st = true) : st' = st := by
  rcases Relation.ReflTransGen.cases_head h with rfl | ⟨mid, hmove, -⟩
  · rfl
  · cases hmove <;> simp [isFinal] at hf

/-! ## One operation -/

/-- what an action was planned against: its envelope, but for the time it was issued -/
def plan (a : ContainmentAction) : AuthorityEnvelope := { a.envelope with issuedAtMs := 0 }

/-- what may become of an action while the epoch stands still -/
def Advances (epoch : CoordinatorEpoch) (a a' : ContainmentAction) : Prop :=
  Reaches a.status a'.status ∧ a'.id = a.id ∧ plan a' = plan a ∧
    (inFlight a'.status = true → a'.envelope.epoch = epoch ∨ inFlight a.status = true ∧ a'.envelope = a.envelope)

/-- every action advances, and a new one starts as planned -/
structure Moves (i j : Impl) : Prop where
  epoch : j.state.epoch = i.state.epoch
  old : ∀ id a, i.state.actions.find id = some a → ∃ a', j.state.actions.find id = some a' ∧ Advances i.state.epoch a a'
  new : ∀ id a', i.state.actions.find id = none → j.state.actions.find id = some a' → Reaches .planned a'.status ∧
    a'.id = id ∧ (inFlight a'.status = true → a'.envelope.epoch = i.state.epoch)

theorem Advances.refl (epoch : CoordinatorEpoch) (a : ContainmentAction) : Advances epoch a a :=
  ⟨.refl, rfl, rfl, fun h => .inr ⟨h, rfl⟩⟩

theorem Advances.trans {epoch : CoordinatorEpoch} {a b c : ContainmentAction} (h : Advances epoch a b)
    (h' : Advances epoch b c) : Advances epoch a c := by
  obtain ⟨hreach, hid, hplan, hflight⟩ := h
  obtain ⟨hreach', hid', hplan', hflight'⟩ := h'
  refine ⟨hreach.trans hreach', hid'.trans hid, hplan'.trans hplan, fun hc => ?_⟩
  rcases hflight' hc with he | ⟨hb, henv⟩
  · exact .inl he
  · rw [henv]
    exact hflight hb

theorem Moves.refl (i : Impl) : Moves i i :=
  ⟨rfl, fun _ a h => ⟨a, h, .refl _ a⟩, fun id a h h' => by rw [h] at h'; simp at h'⟩

theorem Moves.trans {i j k : Impl} (h : Moves i j) (h' : Moves j k) : Moves i k := by
  refine ⟨h'.epoch.trans h.epoch, fun id a ha => ?_, fun id c hnone hc => ?_⟩
  · obtain ⟨b, hb, hab⟩ := h.old id a ha
    obtain ⟨c, hc, hbc⟩ := h'.old id b hb
    rw [h.epoch] at hbc
    exact ⟨c, hc, hab.trans hbc⟩
  · cases hb : j.state.actions.find id with
    | none =>
      have hnew := h'.new id c hb hc
      rwa [h.epoch] at hnew
    | some b =>
      obtain ⟨hreach, hid, hinflight⟩ := h.new id b hnone hb
      obtain ⟨c', hc', hbc, hid', -, henv⟩ := h'.old id b hb
      obtain rfl : c' = c := Option.some.inj (hc'.symm.trans hc)
      refine ⟨hreach.trans hbc, hid'.trans hid, fun hf => ?_⟩
      rcases henv hf with he | ⟨hb', he⟩
      · rw [he, h.epoch]
      · rw [he]
        exact hinflight hb'

/-- actions and epoch as they were -/
theorem Moves.of_eq {i j : Impl} (ha : j.state.actions = i.state.actions) (he : j.state.epoch = i.state.epoch) :
    Moves i j := by
  refine ⟨he, fun id a h => ⟨a, ha ▸ h, .refl _ a⟩, fun id a h h' => ?_⟩
  rw [ha, h] at h'
  simp at h'

/-- an operation that writes neither actions nor the epoch moves nothing -/
theorem Moves.of_frame {S : List Part} {i j : Impl} (h : Frame S i j) (ha : .actions ∉ S) (he : .epoch ∉ S) :
    Moves i j := .of_eq (h.actions ha) (h.epoch he)

/-- one action stored -/
theorem Moves.insert {i : Impl} {id : ActionId} {a a' : ContainmentAction} (h : i.state.actions.find id = some a)
    (hadv : Advances i.state.epoch a a') : Moves i (i.withActions (i.state.actions.insert id a')) := by
  refine ⟨rfl, fun k b hb => ?_, fun k b hnone hb => ?_⟩
  · by_cases hk : id = k
    · subst hk
      obtain rfl := Option.some.inj (h.symm.trans hb)
      exact ⟨a', OrderedMap.find_insert_self _ _ _, hadv⟩
    · exact ⟨b, (OrderedMap.find_insert_ne _ _ hk).trans hb, .refl _ b⟩
  · have hb : (i.state.actions.insert id a').find k = some b := hb
    by_cases hk : id = k
    · subst hk
      rw [h] at hnone
      simp at hnone
    · rw [OrderedMap.find_insert_ne _ _ hk, hnone] at hb
      simp at hb

/-- one action planned, unless its identity is taken -/
theorem Moves.emplace {i : Impl} {a : ContainmentAction} (h : a.status = .planned) :
    Moves i (i.withActions (i.state.actions.emplace a.id a)) := by
  refine ⟨rfl, fun k b hb => ⟨b, ?_, .refl _ b⟩, fun k b hnone hb => ?_⟩
  · have hkept : ¬ (a.id = k ∧ i.state.actions.find a.id = none) := by
      rintro ⟨rfl, hn⟩
      rw [hn] at hb
      simp at hb
    exact (OrderedMap.find_emplace _ _ _ _).trans (by rw [if_neg hkept, hb])
  · have hb : (i.state.actions.emplace a.id a).find k = some b := hb
    rw [OrderedMap.find_emplace] at hb
    split_ifs at hb with hk
    · obtain rfl := Option.some.inj hb
      rw [h]
      exact ⟨.refl, hk.1, by simp [inFlight]⟩
    · rw [hnone] at hb
      simp at hb

/-- the audit record of a move -/
theorem Moves.addHistory {i j : Impl} (h : Moves i j) (time : UInt64) (entry : HistoryEvent) :
    Moves i (j.addHistory time entry) := h.trans (.of_eq rfl rfl)

theorem moves_planActions (time : UInt64) (budget : ℕ) (record : ContainmentRecord) (ks : List ResourceId)
    (planned : List ActionId) {i j : Impl} (h : Moves i j) :
    Moves i (planActions time budget record ks planned j).1 := by
  induction ks generalizing planned j with
  | nil => exact h
  | cons k ks ih =>
    unfold planActions
    split
    · exact h
    · split
      · exact ih planned h
      · next r hr =>
        have hnext : Moves j { j with nextAction := j.nextAction + 1 } := .of_eq rfl rfl
        exact ih _ (h.trans (hnext.trans (Moves.emplace rfl)))

/-- a commitment moves nothing but plans actions -/
theorem moves_authorizeContainment (clk : Clock) (id : FaultId) (expected : FaultGeneration) (i : Impl) :
    Moves i (authorizeContainment clk id expected i).impl := by
  unfold authorizeContainment
  split
  · exact .refl i
  split
  · exact .refl i
  · next fault _ _ radius _ =>
    have hfault : Moves i (i.withFaults (i.state.faults.insert id { fault with
        state := .containmentInProgress, containmentGeneration := radius.generation, lastUpdatedMs := clk 0 })) :=
      .of_eq rfl rfl
    have hedit : ∀ {j : Impl} (f ks), Moves i j → Moves i (editEach f ks j).1 := fun {j} f ks h =>
      h.trans (Moves.of_frame (Frame.editEach (S := topologyParts) (by simp) (by simp) f ks (.refl _ j)) (by simp) (by simp))
    have hplanned := fun budget => moves_planActions (clk 0) budget (newContainment (clk 0) id fault radius i)
      radius.mandatory [] (hedit (drain (clk 0)) radius.precautionary (hedit (fun r => some (fence (clk 0)
        i.state.workers radius.generation (outcomeQuarantines radius.recommended) r)) radius.mandatory hfault))
    unfold commitContainment
    exact ⟨(hplanned _).epoch, (hplanned _).old, (hplanned _).new⟩

/-- an action that was revalidated carries the current epoch -/
theorem epoch_of_revalidated {s : RuntimeSnapshot} {record : ContainmentRecord} {a : ContainmentAction}
    (h : revalidateAction s record a = .ok) : a.envelope.epoch = s.epoch := by
  by_contra hne
  unfold revalidateAction at h
  rw [if_pos hne] at h
  simp at h

theorem moves_dispatchOne (clk : Clock) (record : ContainmentRecord) {i : Impl} {d : Dispatch} (h : Moves i d.impl)
    (id : ActionId) : Moves i (dispatchOne clk record d id).impl := by
  unfold dispatchOne
  split
  · exact h
  · next a ha =>
    split_ifs with hstatus hrefused
    · exact h
    · refine h.trans (Moves.addHistory (Moves.insert ha ?_) _ _)
      refine ⟨?_, rfl, rfl, by simp [inFlight]⟩
      rcases not_and_or.mp hstatus with hs | hs
      · rw [not_not.mp hs]
        exact .single .supersedePlanned
      · rw [not_not.mp hs]
        exact .single .supersedeAuthorized
    · refine h.trans (Moves.addHistory (Moves.insert ha ?_) _ _)
      refine ⟨?_, rfl, rfl, fun _ => .inl ?_⟩
      · rcases not_and_or.mp hstatus with hs | hs
        · rw [not_not.mp hs]
          exact .single .authorize
        · rw [not_not.mp hs]
      · exact epoch_of_revalidated (not_not.mp hrefused)

theorem moves_dispatchLoop (clk : Clock) (record : ContainmentRecord) (ids : List ActionId) {i : Impl} {d : Dispatch}
    (h : Moves i d.impl) : Moves i (ids.foldl (dispatchOne clk record) d).impl := by
  induction ids generalizing d with
  | nil => exact h
  | cons id ids ih => exact ih (moves_dispatchOne clk record h id)

theorem moves_dispatchBegin (clk : Clock) (generation : ContainmentGeneration) (executorAttached : Bool) (i : Impl) :
    Moves i (dispatchBegin clk generation executorAttached i).impl := by
  unfold dispatchBegin
  split
  · exact .refl i
  · next record _ => exact moves_dispatchLoop clk record record.actions (.refl i)

theorem moves_settleOne (clk : Clock) {i : Impl} {d : Dispatch} (h : Moves i d.impl) (attempt : Attempt) :
    Moves i (settleOne clk d attempt).impl := by
  unfold settleOne
  split
  · exact h
  · next a ha =>
    split_ifs with hstatus
    · exact h
    · have hs := not_not.mp hstatus
      split
      · refine h.trans (Moves.addHistory (Moves.insert ha ?_) _ _)
        refine ⟨?_, rfl, rfl, fun _ => .inr ⟨by rw [hs]; rfl, rfl⟩⟩
        rw [hs]
        exact .single .dispatch
      · refine h.trans (Moves.addHistory (Moves.insert ha ?_) _ _)
        refine ⟨?_, rfl, rfl, by simp [inFlight]⟩
        rw [hs]
        exact .single .decline

theorem moves_dispatchEnd (clk : Clock) (attempts : List Attempt) (summary : DispatchSummary) (i : Impl) :
    Moves i (dispatchEnd clk attempts summary i).impl := by
  have hfold : ∀ (attempts : List Attempt) (d : Dispatch), Moves i d.impl →
      Moves i (attempts.foldl (settleOne clk) d).impl := by
    intro attempts
    induction attempts with
    | nil => exact fun _ h => h
    | cons a attempts ih => exact fun d h => ih _ (moves_settleOne clk h a)
  exact hfold _ _ (.refl i)

/-- an admitted report is about the action that is stored -/
theorem admitReport_find {stage epochMessage authorityMessage : String} {id : ActionId} {generation : ActionGeneration}
    {epoch : CoordinatorEpoch} {worker : WorkerId} {boot : WorkerBootId} {i : Impl} {a : ContainmentAction}
    (h : admitReport stage epochMessage authorityMessage id generation epoch worker boot i = .ok a) :
    i.state.actions.find id = some a := by
  unfold admitReport at h
  split at h
  · simp at h
  · next b hb =>
    rw [hb]
    split_ifs at h
    · split at h
      · simp at h
      · split_ifs at h
        exact congrArg some (Except.ok.inj h)
    · exact congrArg some (Except.ok.inj h)

theorem moves_recordActionAck (clk : Clock) (ack : ActionAcknowledgment) (i : Impl) :
    Moves i (recordActionAck clk ack i).impl := by
  unfold recordActionAck
  split
  · exact .refl i
  · next a ha =>
    split_ifs with hdone hstatus
    · exact .refl i
    · exact .refl i
    · have hs := not_not.mp hstatus
      refine Moves.addHistory (Moves.insert (admitReport_find ha) ?_) _ _
      refine ⟨?_, rfl, rfl, fun _ => .inr ⟨by rw [hs]; rfl, rfl⟩⟩
      rw [hs]
      exact .single .acknowledge

theorem moves_recordActionResult (clk : Clock) (result : ActionResult) (i : Impl) :
    Moves i (recordActionResult clk result i).impl := by
  unfold recordActionResult
  split
  · exact .refl i
  · next a ha =>
    split
    · exact .refl i
    split
    · exact .refl i
    · next hstatus =>
      have hreach : Reaches a.status .resultRecorded := by
        rcases not_and_or.mp hstatus with hs | hs
        · rw [not_not.mp hs]
          exact .single .record
        · rw [not_not.mp hs]
          exact .single .recordUnacknowledged
      have hadv : Advances i.state.epoch a { a with
          status := .resultRecorded, completedAtMs := clk 0
          mechanism := if result.mechanism ≠ .none then result.mechanism else a.mechanism } :=
        ⟨hreach, rfl, rfl, by simp [inFlight]⟩
      have hstored := Moves.insert (admitReport_find ha) hadv
      dsimp only
      refine Moves.addHistory ?_ _ _
      cases result.success with
      | false => exact hstored
      | true => exact hstored.trans (Moves.of_frame (Frame.editEach (S := topologyParts) (by simp) (by simp) _ _
          (.refl _ _)) (by simp) (by simp))

/-! ## Every operation -/

/-- an epoch advance leaves nothing in flight -/
theorem inFlight_makeAmbiguous (a : ContainmentAction) : inFlight (makeAmbiguous a).status = false := by
  unfold makeAmbiguous
  split_ifs with h
  · rfl
  · cases hs : a.status <;> simp [inFlight, hs] at h ⊢

theorem reaches_makeAmbiguous (a : ContainmentAction) : Reaches a.status (makeAmbiguous a).status := by
  unfold makeAmbiguous
  split_ifs with h
  · rcases h with hs | hs | hs
    · rw [hs]
      exact .single .loseDispatched
    · rw [hs]
      exact .single .loseAcknowledged
    · rw [hs]
      exact .single .loseAuthorized
  · exact .refl

/-- every operation but an epoch advance -/
theorem moves_after (c : Call) (i : Impl) (h : ∀ nowMs reason, c.op ≠ .beginEpoch nowMs reason) :
    Moves i (c.after i) := by
  have hframe := frame_run c i
  obtain ⟨clk, op⟩ := c
  cases op
  case beginEpoch nowMs reason => exact absurd rfl (h nowMs reason)
  case authorizeContainment id expected => exact moves_authorizeContainment clk id expected i
  case dispatchBegin generation executorAttached => exact moves_dispatchBegin clk generation executorAttached i
  case dispatchEnd attempts summary => exact moves_dispatchEnd clk attempts summary i
  case recordActionAck ack => exact moves_recordActionAck clk ack i
  case recordActionResult result => exact moves_recordActionResult clk result i
  all_goals exact .of_frame hframe (by simp [Op.parts]) (by simp [Op.parts])

/-- what every operation does to an action -/
theorem reaches_after (c : Call) (i : Impl) (id : ActionId) :
    (∀ a, i.state.actions.find id = some a →
      ∃ a', (c.after i).state.actions.find id = some a' ∧ Reaches a.status a'.status) ∧
    ∀ a', i.state.actions.find id = none → (c.after i).state.actions.find id = some a' → Reaches .planned a'.status := by
  by_cases h : ∃ nowMs reason, c.op = .beginEpoch nowMs reason
  · obtain ⟨nowMs, reason, hop⟩ := h
    obtain ⟨clk, op⟩ := c
    subst hop
    have hfind : ((⟨clk, .beginEpoch nowMs reason⟩ : Call).after i).state.actions.find id =
        (i.state.actions.find id).map makeAmbiguous := OrderedMap.find_mapVals _ _ _
    rw [hfind]
    refine ⟨fun a ha => ⟨makeAmbiguous a, by rw [ha]; rfl, reaches_makeAmbiguous a⟩, fun a' hnone ha' => ?_⟩
    rw [hnone] at ha'
    simp at ha'
  · have hmoves := moves_after c i fun nowMs reason hop => h ⟨nowMs, reason, hop⟩
    refine ⟨fun a ha => ?_, fun a' hnone ha' => (hmoves.new id a' hnone ha').1⟩
    obtain ⟨a', ha', hadv⟩ := hmoves.old id a ha
    exact ⟨a', ha', hadv.1⟩

/-- an action in flight carries the current epoch -/
def InFlightCurrent (i : Impl) : Prop :=
  ∀ id a, i.state.actions.find id = some a → inFlight a.status = true → a.envelope.epoch = i.state.epoch

theorem inFlightCurrent_beginEpoch (clk : Clock) (nowMs : UInt64) (reason : Text) (i : Impl) :
    InFlightCurrent (beginEpoch clk nowMs reason i).impl := by
  intro id a ha hf
  have hfind : (beginEpoch clk nowMs reason i).impl.state.actions.find id =
      (i.state.actions.find id).map makeAmbiguous := OrderedMap.find_mapVals _ _ _
  rw [hfind] at ha
  obtain ⟨b, -, rfl⟩ := Option.map_eq_some_iff.mp ha
  rw [inFlight_makeAmbiguous] at hf
  simp at hf

/-- **Step.** Every operation keeps the actions in flight in the current epoch. -/
theorem inFlightCurrent_after (c : Call) (i : Impl) (h : InFlightCurrent i) : InFlightCurrent (c.after i) := by
  by_cases hop : ∃ nowMs reason, c.op = .beginEpoch nowMs reason
  · obtain ⟨nowMs, reason, hop⟩ := hop
    obtain ⟨clk, op⟩ := c
    subst hop
    exact inFlightCurrent_beginEpoch clk nowMs reason i
  · have hmoves := moves_after c i fun nowMs reason he => hop ⟨nowMs, reason, he⟩
    intro id a' ha' hf
    rw [hmoves.epoch]
    cases ha : i.state.actions.find id with
    | none => exact (hmoves.new id a' ha ha').2.2 hf
    | some a =>
      obtain ⟨b, hb, -, -, -, hadv⟩ := hmoves.old id a ha
      obtain rfl : b = a' := Option.some.inj (hb.symm.trans ha')
      rcases hadv hf with he | ⟨hinflight, henv⟩
      · exact he
      · rw [henv]
        exact h id a ha hinflight

/-! ## The effects of a result -/

/-- an operation delivers a result for an action and changes the topology or its generation -/
def AppliesResult (id : ActionId) (c : Call) (i : Impl) : Prop :=
  (∃ r, c.op = .recordActionResult r ∧ r.action = id) ∧
    ((c.after i).state.topology ≠ i.state.topology ∨
      (c.after i).state.topologyGeneration ≠ i.state.topologyGeneration)

/-- the action's result has been recorded -/
def Recorded (id : ActionId) (i : Impl) : Prop :=
  ∃ a, i.state.actions.find id = some a ∧ a.status = .resultRecorded

theorem recorded_after (c : Call) (i : Impl) {id : ActionId} (h : Recorded id i) : Recorded id (c.after i) := by
  obtain ⟨a, ha, hs⟩ := h
  obtain ⟨a', ha', hreach⟩ := (reaches_after c i id).1 a ha
  refine ⟨a', ha', (reaches_final hreach ?_).trans hs⟩
  rw [hs]
  rfl

/-- a result changes the topology only as it is recorded, of an action that was still open -/
theorem recordActionResult_effect (clk : Clock) (r : ActionResult) (i : Impl)
    (h : (recordActionResult clk r i).impl.state.topology ≠ i.state.topology ∨
      (recordActionResult clk r i).impl.state.topologyGeneration ≠ i.state.topologyGeneration) :
    ¬ Recorded r.action i ∧ Recorded r.action (recordActionResult clk r i).impl := by
  unfold recordActionResult at h ⊢
  split at h
  · exact absurd h (by simp [Step.refuse])
  · next a ha =>
    split at h
    · exact absurd h (by simp [Step.answer])
    split at h
    · exact absurd h (by simp [Step.refuse])
    · next hdone hopen =>
      rw [if_neg hdone, if_neg hopen]
      have hfind := admitReport_find ha
      refine ⟨?_, ?_⟩
      · rintro ⟨b, hb, hs⟩
        obtain rfl := Option.some.inj (hfind.symm.trans hb)
        exact hdone (.inl hs)
      · dsimp only
        let stored : ContainmentAction := { a with
          status := .resultRecorded, completedAtMs := clk 0
          mechanism := if r.mechanism ≠ .none then r.mechanism else a.mechanism }
        have hstored : (i.state.actions.insert r.action stored).find r.action = some stored :=
          OrderedMap.find_insert_self _ _ _
        cases r.success with
        | false => exact ⟨stored, hstored, rfl⟩
        | true =>
          have hframe := Frame.editEach (S := topologyParts) (by simp) (by simp)
            (fun q => some (withResult r.mechanism q)) [a.target]
            (.refl _ (i.withActions (i.state.actions.insert r.action stored)))
          exact ⟨stored, (congrArg (·.find r.action) (hframe.actions (by simp))).trans hstored, rfl⟩

/-- the effects of a result are applied at most once for each action -/
theorem result_atMostOnce (id : ActionId) (calls : List Call) (i : Impl) :
    Runs.AtMostOnce Call.after (AppliesResult id) calls i := by
  refine Runs.atMostOnce_of_latch (D := Recorded id) ?_ (fun c s h => recorded_after c s h) ?_ calls i
  · rintro ⟨clk, op⟩ s ⟨⟨r, hop, rfl⟩, heffect⟩
    obtain rfl : op = _ := hop
    exact (recordActionResult_effect clk r s heffect).2
  · rintro ⟨clk, op⟩ s hdone ⟨⟨r, hop, rfl⟩, heffect⟩
    obtain rfl : op = _ := hop
    exact (recordActionResult_effect clk r s heffect).1 hdone

/-! ## Runs -/

/-- where a run of the engine starts: a new engine, or one that has just recovered from some files -/
inductive Start where
  | fresh (clk : Clock) (config : Config)
  | recovered (clk : ℕ → Clock) (io : ℕ → Io) (nowMs : UInt64) (s : Sys)

/-- the engine a run starts with -/
def Start.impl : Start → Impl
  | .fresh clk config => construct clk config
  | .recovered clk io nowMs s => (recoverFromStore clk io nowMs s).1.impl

/-- the recovery, if the run starts with one, succeeded -/
def Start.succeeds : Start → Prop
  | .fresh _ _ => True
  | .recovered clk io nowMs s => (recoverFromStore clk io nowMs s).2.isOk = true

theorem inFlightCurrent_start (start : Start) (h : start.succeeds) : InFlightCurrent start.impl := by
  cases start with
  | fresh clk config =>
    intro id a ha
    have hnone : (construct clk config).state.actions.find id = none := OrderedMap.find_empty id
    have ha : (construct clk config).state.actions.find id = some a := ha
    rw [hnone] at ha
    simp at ha
  | recovered clk io nowMs s =>
    simp only [Start.impl, Start.succeeds] at h ⊢
    unfold recoverFromStore at h ⊢
    split at h
    · simp [Except.isOk, Except.toBool] at h
    dsimp only at h ⊢
    split at h
    · simp [Except.isOk, Except.toBool] at h
    split at h
    · simp [Except.isOk, Except.toBool] at h
    · unfold resume at h ⊢
      split at h
      · simp [Except.isOk, Except.toBool] at h
      · exact perform_keeps (fun _ _ h => h) (fun _ _ _ h => h) (inFlightCurrent_beginEpoch _ _ _ _)

/-- what a run does to an action -/
theorem reaches_run (calls : List Call) (i : Impl) (id : ActionId) :
    (∀ a, i.state.actions.find id = some a →
      ∃ a', (Runs.run Call.after calls i).state.actions.find id = some a' ∧ Reaches a.status a'.status) ∧
    ∀ a', i.state.actions.find id = none → (Runs.run Call.after calls i).state.actions.find id = some a' →
      Reaches .planned a'.status := by
  induction calls generalizing i with
  | nil =>
    refine ⟨fun a ha => ⟨a, ha, .refl⟩, fun a' hnone ha' => ?_⟩
    rw [Runs.run_nil, hnone] at ha'
    simp at ha'
  | cons c calls ih =>
    obtain ⟨hold, hnew⟩ := reaches_after c i id
    obtain ⟨ihold, ihnew⟩ := ih (c.after i)
    refine ⟨fun a ha => ?_, fun a' hnone ha' => ?_⟩
    · obtain ⟨b, hb, hab⟩ := hold a ha
      obtain ⟨a', ha', hba⟩ := ihold b hb
      exact ⟨a', ha', hab.trans hba⟩
    · cases hb : (c.after i).state.actions.find id with
      | none => exact ihnew a' hb ha'
      | some b =>
        obtain ⟨c', hc', hbc⟩ := ihold b hb
        obtain rfl : c' = a' := Option.some.inj (hc'.symm.trans ha')
        exact (hnew b hnone hb).trans hbc

/-- **Action lifecycle.** In every run of the engine, from a new engine or from one that has just recovered: an action only
moves forward and never leaves a final status, the effects of a result are applied at most once for each action, and an
action in flight carries the current epoch. -/
theorem lifecycle_run (start : Start) (hstart : start.succeeds) (pre post : List Call) :
    (∀ id a, (Runs.run Call.after pre start.impl).state.actions.find id = some a →
      ∃ a', (Runs.run Call.after (pre ++ post) start.impl).state.actions.find id = some a' ∧
        Reaches a.status a'.status ∧ (isFinal a.status = true → a'.status = a.status)) ∧
    (∀ id a', (Runs.run Call.after pre start.impl).state.actions.find id = none →
      (Runs.run Call.after (pre ++ post) start.impl).state.actions.find id = some a' → Reaches .planned a'.status) ∧
    (∀ id, Runs.AtMostOnce Call.after (AppliesResult id) (pre ++ post) start.impl) ∧
    InFlightCurrent (Runs.run Call.after (pre ++ post) start.impl) := by
  refine ⟨fun id a ha => ?_, fun id a' hnone ha' => ?_, fun id => result_atMostOnce id _ _, ?_⟩
  · obtain ⟨a', ha', hab⟩ := (reaches_run post _ id).1 a ha
    rw [← Runs.run_append] at ha'
    exact ⟨a', ha', hab, reaches_final hab⟩
  · rw [Runs.run_append] at ha'
    exact (reaches_run post _ id).2 a' hnone ha'
  · exact Runs.run_keeps inFlightCurrent_after _ (inFlightCurrent_start start hstart)

/-- a containment of resource 5 with its one action planned -/
def planning : List Call := [
  ⟨ticks, .registerResource { id := ⟨5⟩ }⟩,
  ⟨ticks, .publishFault { subject := ⟨5⟩, kind := .processDeath }⟩,
  ⟨ticks, .authorizeContainment ⟨1⟩ {}⟩]

/-- the action is dispatched, and its result delivered twice -/
def settling : List Call := [
  ⟨ticks, .dispatchBegin ⟨1⟩ true⟩,
  ⟨ticks, .dispatchEnd [({ id := ⟨1⟩ }, .ok [])] {}⟩,
  ⟨ticks, .recordActionResult { action := ⟨1⟩, actionGeneration := ⟨1⟩, epoch := ⟨1⟩, success := true }⟩,
  ⟨ticks, .recordActionResult { action := ⟨1⟩, actionGeneration := ⟨1⟩, epoch := ⟨1⟩, success := true }⟩]

/-- the planned action reaches its result, and the second delivery changes nothing -/
theorem lifecycle_run_settling :
    (∃ a, (Runs.run Call.after (planning ++ settling) (construct ticks {})).state.actions.find ⟨1⟩ = some a ∧
      Reaches .planned a.status) ∧
    Runs.AtMostOnce Call.after (AppliesResult ⟨1⟩) (planning ++ settling) (construct ticks {}) := by
  obtain ⟨hold, -, honce, -⟩ := lifecycle_run (.fresh ticks {}) trivial planning settling
  have hplanned : ((Runs.run Call.after planning (construct ticks {})).state.actions.find ⟨1⟩).map (·.status) =
      some .planned := by decide +kernel
  obtain ⟨a, ha, hs⟩ := Option.map_eq_some_iff.mp hplanned
  obtain ⟨a', ha', hreach, -⟩ := hold ⟨1⟩ a ha
  rw [hs] at hreach
  exact ⟨⟨a', ha', hreach⟩, honce ⟨1⟩⟩

end FaultContainment.Dispatching
