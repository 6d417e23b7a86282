/-
Dispatch of planned actions, acknowledgments and results.

`dispatchBegin` and `dispatchEnd` are the two locked sections of `dispatch_containment`; the executor runs between them with
no lock held. An acknowledgment or a result changes the action, never the fence around its target.
-/
import FaultContainment.Engine.Containment

namespace FaultContainment.Engine

open FaultContainment.Lib FaultContainment.Ids FaultContainment.Enums FaultContainment.Records
open FaultContainment.DurableEvent

/-- `Error::to_string` -/
def errorText (e : Error) : Text :=
  (if e.stage = [] then [] else e.stage ++ lit ":") ++ Coded.name e.code ++
    (if e.context = [] then [] else lit " " ++ e.context) ++ (if e.message = [] then [] else lit ": " ++ e.message)

/-! ## Revalidation -/

/-- `revalidate_action` -/
def revalidateAction (s : RuntimeSnapshot) (record : ContainmentRecord) (action : ContainmentAction) : ErrorCode :=
  let e := action.envelope
  if e.epoch ≠ s.epoch then .staleEpoch
  else if e.actionGeneration ≠ action.generation then .staleActionGeneration
  else if e.containmentGeneration ≠ record.generation then .staleContainmentGeneration
  else if e.policyGeneration ≠ s.policyGeneration then .stalePolicyGeneration
  else if e.topologyGeneration.valid ∧ e.topologyGeneration ≠ s.topologyGeneration then .staleTopologyGeneration
  else
    match s.topology.resources.find action.target with
    | none => .unknownResource
    | some r =>
      if e.targetGeneration ≠ r.generation then .staleResourceGeneration
      else if e.workerBoot.valid ∧ r.ownerBoot ≠ e.workerBoot then .staleWorkerBoot
      else
        match s.faults.find record.fault with
        | none => .unknownFault
        | some f =>
          if f.evidence.generation ≠ e.faultGeneration then .staleFaultGeneration
          else if ¬ isFaultCurrent f.state then .faultNotCurrent
          else
            match e.requiredResourceGenerations.toList.find? fun q =>
                ((s.topology.resources.find q.1).map (·.generation)) ≠ some q.2 with
            | none => .ok
            | some q => if s.topology.resources.has q.1 then .staleResourceGeneration else .unknownResource

/-! ## Dispatch -/

/-- the checks of `dispatch_containment`; the containment to dispatch -/
def admitDispatch (generation : ContainmentGeneration) (executorAttached : Bool) (i : Impl) :
    Except Error ContainmentRecord :=
  if i.shuttingDown then
    .error (makeError .shuttingDown "containment.dispatch"
      "the runtime is shutting down and will not dispatch new actions")
  else
    match i.state.containments.find generation with
    | none => .error (makeError .unknownContainment "containment.dispatch" "containment not found" generation.text)
    | some record =>
      if ¬ containmentIsLive record.status then
        .error (makeError .staleContainmentGeneration "containment.dispatch" "containment is no longer live"
          (Coded.name record.status))
      else if ¬ executorAttached then
        .error (makeError .executorUnavailable "containment.dispatch" "no executor is attached")
      else .ok record

/-- what a dispatch loop carries: the state, the staged events, the summary, and the actions for the executor -/
structure Dispatch where
  impl : Impl
  staged : List Event := []
  summary : DispatchSummary := {}
  toDispatch : List ContainmentAction := []

/-- stores an action and stages it with an audit record -/
def Dispatch.stage (d : Dispatch) (time : UInt64) (key : ActionId) (action : ContainmentAction) (entry : HistoryEvent) :
    Dispatch :=
  let i := d.impl.withActions (d.impl.state.actions.insert key action)
  { d with
    impl := i.addHistory time entry
    staged := d.staged ++ [⟨.actionUpsert, action, some (i.stamped time entry)⟩] }

/-- an action that failed revalidation -/
def Dispatch.reject (d : Dispatch) (time : UInt64) (record : ContainmentRecord) (key : ActionId)
    (action : ContainmentAction) (refusal : ErrorCode) : Dispatch :=
  let stored := { action with
    status := .superseded, rejectionCode := refusal
    rejectionDetail := lit "revalidation refused immediately before dispatch" }
  let d := { d with summary := { d.summary with
    refused := d.summary.refused ++ [action.id]
    refusals := d.summary.refusals ++ [action.id.text ++ lit ": " ++ Coded.name refusal] } }
  d.stage time key stored
    { type := .actionRejected, detail := lit "action " ++ action.id.text ++ lit " refused: " ++ Coded.name refusal
      authority := lit "ActionGeneration " ++ action.generation.text, resource := action.target, fault := record.fault
      action := action.id, containment := record.generation }

/-- an action authorised for dispatch -/
def Dispatch.authorize (d : Dispatch) (nowMs time : UInt64) (record : ContainmentRecord) (key : ActionId)
    (action : ContainmentAction) : Dispatch :=
  let stored := { action with status := .authorized, envelope := { action.envelope with issuedAtMs := nowMs } }
  let d := { d with toDispatch := d.toDispatch ++ [stored] }
  d.stage time key stored
    { type := .actionAuthorized
      detail := lit "action " ++ action.id.text ++ lit " " ++ Coded.name action.kind ++ lit " authorised for " ++
        action.target.text
      authority := lit "CoordinatorEpoch " ++ action.envelope.epoch.text ++ lit "; ActionGeneration " ++
        action.generation.text
      resource := action.target, fault := record.fault, action := action.id, containment := record.generation }

/-- one action of the containment -/
def dispatchOne (clk : Clock) (record : ContainmentRecord) (d : Dispatch) (id : ActionId) : Dispatch :=
  match d.impl.state.actions.find id with
  | none => d
  | some action =>
    if action.status ≠ .planned ∧ action.status ≠ .authorized then d
    else if revalidateAction d.impl.state record action ≠ .ok then
      d.reject (clk (d.staged.length + 1)) record id action (revalidateAction d.impl.state record action)
    else d.authorize (clk 0) (clk (d.staged.length + 1)) record id action

/-- the first section of `dispatch_containment` -/
def dispatchBegin (clk : Clock) (generation : ContainmentGeneration) (executorAttached : Bool) (i : Impl) :
    Step (List ContainmentAction × DispatchSummary) :=
  match admitDispatch generation executorAttached i with
  | .error e => .refuse i e
  | .ok record =>
    let d := record.actions.foldl (dispatchOne clk record)
      { impl := i, summary := { containmentGeneration := generation } }
    { impl := d.impl, staged := d.staged ++ [d.impl.countersEvent], result := .ok (d.toDispatch, d.summary) }

/-- what the executor made of one action -/
abbrev Attempt := ContainmentAction × Except Error Text

/-- an action the executor took -/
def Dispatch.accept (d : Dispatch) (nowMs time : UInt64) (key : ActionId) (action : ContainmentAction) (token : Text) :
    Dispatch :=
  let stored := { action with status := .dispatched, executorToken := token, dispatchedAtMs := nowMs }
  let d := { d with summary := { d.summary with dispatched := d.summary.dispatched ++ [action.id] } }
  d.stage time key stored
    { type := .actionDispatched, detail := lit "action " ++ action.id.text ++ lit " dispatched to the executor"
      authority := lit "ActionGeneration " ++ action.generation.text, resource := action.target, action := action.id }

/-- an action the executor turned down -/
def Dispatch.decline (d : Dispatch) (time : UInt64) (key : ActionId) (action : ContainmentAction) (e : Error) :
    Dispatch :=
  let stored := { action with
    status := .rejectedInfeasible, rejectionCode := e.code, rejectionDetail := errorText e }
  let d := { d with summary := { d.summary with
    refused := d.summary.refused ++ [action.id]
    refusals := d.summary.refusals ++ [action.id.text ++ lit ": " ++ errorText e] } }
  d.stage time key stored
    { type := .actionRejected, detail := lit "action " ++ action.id.text ++ lit " not accepted by the executor"
      authority := lit "ActionGeneration " ++ action.generation.text, resource := action.target, action := action.id }

/-- one attempt; an action superseded while the executor was running is left alone -/
def settleOne (clk : Clock) (d : Dispatch) (attempt : Attempt) : Dispatch :=
  match d.impl.state.actions.find attempt.1.id with
  | none => d
  | some action =>
    if action.status ≠ .authorized then d
    else
      match attempt.2 with
      | .ok token => d.accept (clk 0) (clk (d.staged.length + 1)) attempt.1.id action token
      | .error e => d.decline (clk (d.staged.length + 1)) attempt.1.id action e

/-- the second section of `dispatch_containment` -/
def dispatchEnd (clk : Clock) (attempts : List Attempt) (summary : DispatchSummary) (i : Impl) : Step DispatchSummary :=
  let d := attempts.foldl (settleOne clk) { impl := i, summary := summary }
  { impl := d.impl, staged := d.staged ++ [d.impl.countersEvent]
    result := .ok { d.summary with budgetRemaining := 0 } }

/-! ## Acknowledgments and results -/

/-- the checks an acknowledgment and a result share; the action they are about -/
def admitReport (stage epochMessage authorityMessage : String) (id : ActionId) (generation : ActionGeneration)
    (epoch : CoordinatorEpoch) (worker : WorkerId) (boot : WorkerBootId) (i : Impl) : Except Error ContainmentAction :=
  match i.state.actions.find id with
  | none => .error (makeError .unknownAction stage "action not found" id.text)
  | some action =>
    if epoch ≠ i.state.epoch then
      .error (makeError .staleEpoch stage epochMessage (epoch.text ++ lit " != " ++ i.state.epoch.text))
    else if generation ≠ action.generation then
      .error (makeError .staleActionGeneration stage "action generation has advanced" action.generation.text)
    else if boot.valid then
      match i.state.workers.incarnations.find ⟨worker, boot⟩ with
      | none => .error (makeError .staleWorkerBoot stage "unknown worker incarnation" boot.text)
      | some w =>
        if ¬ holdsLiveAuthority w.state then .error (makeError .staleWorkerBoot stage authorityMessage boot.text)
        else .ok action
    else .ok action

/-- `record_action_ack`: acknowledged is not contained, so no resource changes -/
def recordActionAck (clk : Clock) (ack : ActionAcknowledgment) (i : Impl) : Step Unit :=
  match admitReport "action.ack" "acknowledgment epoch is not current"
      "the acknowledging incarnation holds no live authority" ack.action ack.actionGeneration ack.epoch ack.worker
      ack.workerBoot i with
  | .error e => .refuse i e
  | .ok action =>
    if action.status = .acknowledged ∨ action.status = .resultRecorded ∨ action.status = .verifiedEffective ∨
        action.status = .verifiedIneffective then .answer i ()
    else if action.status ≠ .dispatched then
      .refuse i (makeError .actionRevalidationFailed "action.ack" "only a dispatched action may be acknowledged"
        (Coded.name action.status))
    else
      let stored := { action with
        status := .acknowledged, acknowledgedAtMs := clk 0, executorToken := ack.executorToken }
      let i := i.withActions (i.state.actions.insert ack.action stored)
      commit i (clk 1)
        { type := .actionAcknowledged
          detail := lit "action " ++ stored.id.text ++ lit " acknowledged (not yet contained): " ++ ack.detail
          authority := lit "ActionGeneration " ++ stored.generation.text, resource := stored.target
          action := stored.id }
        [] (⟨.actionUpsert, stored, ·⟩) [] ()

/-- the record of a target whose executor claims success: its mechanism and generation, nothing else -/
def withResult (mechanism : ContainmentMechanism) (r : ResourceRecord) : ResourceRecord :=
  { r with
    mechanism := if mechanism ≠ .none then mechanism else r.mechanism
    generation := nextGeneration r.generation }

/-- `record_action_result` -/
def recordActionResult (clk : Clock) (result : ActionResult) (i : Impl) : Step Unit :=
  match admitReport "action.result" "result epoch is not current" "the reporting incarnation holds no live authority"
      result.action result.actionGeneration result.epoch result.worker result.workerBoot i with
  | .error e => .refuse i e
  | .ok action =>
    if action.status = .resultRecorded ∨ action.status = .verifiedEffective ∨ action.status = .verifiedIneffective then
      .answer i ()
    else if action.status ≠ .acknowledged ∧ action.status ≠ .dispatched then
      .refuse i (makeError .actionRevalidationFailed "action.result"
        "only a dispatched or acknowledged action may report a result" (Coded.name action.status))
    else
      let stored := { action with
        status := .resultRecorded, completedAtMs := clk 0
        mechanism := if result.mechanism ≠ .none then result.mechanism else action.mechanism }
      let i := i.withActions (i.state.actions.insert result.action stored)
      let (i, claimed) := if result.success then
          editEach (fun r => some (withResult result.mechanism r)) [action.target] i
        else (i, [])
      commit i (clk 1)
        { type := .actionResultRecorded
          detail := lit "action " ++ stored.id.text ++
            lit (if result.success then " reported success" else " reported failure") ++ lit ": " ++ result.detail
          authority := lit "ActionGeneration " ++ stored.generation.text, resource := stored.target
          action := stored.id }
        claimed (⟨.actionUpsert, stored, ·⟩) [] ()

end FaultContainment.Engine
