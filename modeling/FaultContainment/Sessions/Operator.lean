/-
What a control request does to the coordinator, as a program of its connection (`Coordinator::Impl::execute`).

The commands are those of the control plane: their arguments, what they ask the engine and the lines they answer with are
taken from there. Here every look at the engine, every section of it and every frame is an access of its own, and the other
connections go on in between.

- `controls_handleControl`: a control request enters sections as the operator's, replies, and polls, and does nothing else.
-/
import FaultContainment.Sessions.Outline

namespace FaultContainment.Sessions

open FaultContainment.Lib FaultContainment.Ids FaultContainment.Enums FaultContainment.Records FaultContainment.Engine
open FaultContainment.Persistence FaultContainment.Protocol FaultContainment.Coordinator FaultContainment.Transport
open FaultContainment.OperatorReports FaultContainment.Lib.Threads FaultContainment.Control
open FaultContainment.Answers (Socket)

/-! ## Shapes of commands -/

section Shapes

variable {α β γ δ : Type} (arguments : Arguments β)

/-- a command that looks at the engine and leaves it alone -/
def lookCommand (query : β → Impl → Except Error γ) (lines : γ → List Text) (next : ControlResponse → Program α) : Program α :=
  match arguments with
  | .error e => next (failure e.1 e.2)
  | .ok b => Sessions.look (fun h => query b h.impl) fun found => next (Control.reply lines found)

/-- a command that calls the engine once -/
def callCommand (op : β → Op) (body : β → Clock → Impl → Step γ) (lines : γ → List Text)
    (next : ControlResponse → Program α) : Program α :=
  match arguments with
  | .error e => next (failure e.1 e.2)
  | .ok b => call .operator (op b) (body b) fun result => next (Control.reply lines result)

/-- a command that calls the engine with what a first look found -/
def lookThenCallCommand (query : β → Impl → Except ControlResponse δ) (op : δ → Op) (body : δ → Clock → Impl → Step γ)
    (lines : γ → List Text) (next : ControlResponse → Program α) : Program α :=
  match arguments with
  | .error e => next (failure e.1 e.2)
  | .ok b => Sessions.look (fun h => query b h.impl) fun
    | .error response => next response
    | .ok d => call .operator (op d) (body d) fun result => next (Control.reply lines result)

end Shapes

/-! ## Commands -/

/-- `set-resource-owner` -/
def setResourceOwner {α : Type} (args : List Text) (next : ControlResponse → Program α) : Program α :=
  match ownerArguments args with
  | .error response => next response
  | .ok (resource, worker, boot) =>
    lookThenCallCommand (.ok resource) resourceToOwn (fun r => .updateResource (ownedRecord worker boot r) r.generation)
      (fun r clk => updateResource clk (ownedRecord worker boot r) r.generation) storedResourceLines next

/-- `publish_fault`, again while the identity of the fault is taken and no retry was numbered; the thread is followed for at
most so many retries -/
def publishReports (next : Except Error (FaultRecord × Bool) → Program Unit) (retries : ℕ) (evidence : FaultEvidence)
    (sequence : EvidenceSequence) : Program Unit :=
  call .operator (.publishFault evidence) (publishFlagged evidence) fun
    | .ok published => next (.ok published)
    | .error e =>
      if e.code = .duplicateConflict ∧ sequence.valid = false then
        match retries with
        | 0 => .done ()
        | retries + 1 => Sessions.look (fun h => nextObservation h.impl.state evidence) fun sequence =>
          publishReports next retries { evidence with observationSequence := sequence } sequence
      else next (.error e)

/-- `publish-fault` -/
def publishReport (retries : ℕ) (args : List Text) (next : ControlResponse → Program Unit) : Program Unit :=
  match faultArguments args with
  | .error response => next response
  | .ok request => Sessions.look (fun h => h.impl.state.epoch) fun epoch =>
    publishReports (fun published => next (respondFault (published.mapError fun e => failure e.code (errorText e)))) retries
      (operatorEvidence epoch request) {}

/-- `worker-lost` -/
def workerLost {α : Type} (args : List Text) (next : ControlResponse → Program α) : Program α :=
  match lossArguments args with
  | .error e => next (failure e.1 e.2)
  | .ok (worker, boot, kind) =>
    workerAuthorityLost .operator worker boot kind (lit "operator-observed authority loss") 0 fun lost =>
      next (Control.reply lostLines lost)

/-- `release` -/
def release {α : Type} (args : List Text) (next : ControlResponse → Program α) : Program α :=
  match releaseArguments args with
  | .error e => next (failure e.1 e.2)
  | .ok request => Sessions.look (fun h => h.impl.state.epoch) fun epoch =>
    Sessions.look (fun h => requestAsItStands { request with epoch := epoch } h.impl) fun request =>
      call .operator (.authorizeRelease request) (authorizeRelease · request) fun released =>
        next (Control.reply releaseLines released)

/-- `snapshot-info` -/
def snapshotInfo {α : Type} (next : ControlResponse → Program α) : Program α :=
  Sessions.look (fun h => h.impl.state) fun snapshot => Sessions.look (fun h => h.impl.durabilityHealthy) fun healthy =>
    next { ok := true, lines := snapshotLines snapshot healthy }

/-- the commands of `execute_engine_control` -/
def runCommand (retries : ℕ) (args : List Text) (next : ControlResponse → Program Unit) : Command → Program Unit
  | .status => lookCommand (.ok ()) (fun _ i => .ok (querySystemStatus i)) statusLines next
  | .faults => lookCommand (.ok ()) (fun _ i => .ok i.state.faults.toList)
      (fun faults => faults.map fun e => faultLine e.1 e.2) next
  | .containments => lookCommand (.ok ()) (fun _ i => .ok i.state.containments.vals)
      (fun records => records.map containmentLine) next
  | .workers => lookCommand (.ok ()) (fun _ i => .ok i.state.workers.incarnations.toList)
      (fun incarnations => incarnations.map fun e => workerLine e.1 e.2) next
  | .history => lookCommand (historyArguments args) (fun range i => .ok (historyFrom range.1 range.2 i))
      (fun events => events.map historyLine) next
  | .registerDomain => callCommand (domainArguments args) .registerDomain (fun domain clk => registerDomain clk domain)
      storedDomainLines next
  | .registerIsolationDomain => callCommand (isolationDomainArguments args) .registerIsolationDomain
      (fun domain clk => registerIsolationDomain clk domain) storedIsolationDomainLines next
  | .registerFailureDomain => callCommand (failureDomainArguments args) .registerFailureDomain
      (fun domain clk => registerFailureDomain clk domain) storedFailureDomainLines next
  | .registerResource => callCommand (resourceArguments args) .registerResource (fun record clk => registerResource clk record)
      storedResourceLines next
  | .setResourceOwner => setResourceOwner args next
  | .registerDependency => callCommand (dependencyArguments args) .registerDependency
      (fun edge clk => registerDependency clk edge) storedDependencyLines next
  | .publishFault => publishReport retries args next
  | .workerLost => workerLost args next
  | .evaluate => lookCommand (oneId .faultId "evaluate <fault>" "evaluate: bad fault identity" args)
      (fun fault => Preview.evaluateContainment fault {}) radiusLines next
  | .contain => lookThenCallCommand (oneId .faultId "contain <fault>" "contain: bad fault identity" args) faultToContain
      (fun fault => .authorizeContainment fault.1 fault.2) (fun fault clk => authorizeContainment clk fault.1 fault.2)
      committedLines next
  | .containment => lookCommand (oneId .containmentGeneration "containment <generation>" "containment: bad generation" args)
      queryContainment containmentLines next
  | .explain => lookCommand (oneId .containmentGeneration "explain <containment>" "explain: bad generation" args) explain
      explanationLines next
  | .dispatch => lookCommand (oneId .containmentGeneration "dispatch <containment>" "dispatch: bad generation" args)
      (fun _ _ => .ok ()) (fun _ => [lit "dispatch_requires_executor=1"]) next
  | .verify => callCommand (oneId .containmentGeneration "verify <containment>" "verify: bad generation" args)
      .verifyContainment (fun generation clk => verifyContainment clk generation) verificationLines next
  | .resource => lookCommand (oneId .resourceId "resource <id>" "resource: bad identity" args) queryResourceStatus
      resourceLines next
  | .action => lookCommand (oneId .actionId "action <id>" "action: bad identity" args) queryAction actionLines next
  | .degraded => lookThenCallCommand (oneId .containmentGeneration "degraded <containment>" "degraded: bad generation" args)
      contractToAuthorize .authorizeDegradedMode (fun contract clk => authorizeDegradedMode clk contract) degradedLines next
  | .release => release args next
  | .snapshotInfo => snapshotInfo next
  | .shutdown => next shutdownResponse

/-! ## Requests -/

/-- each connection that completed a handshake is asked for evidence; how many frames were taken is counted -/
def pollAll {α : Type} (next : ℕ → Program α) : List Socket → ℕ → Program α
  | [], polled => next polled
  | peer :: peers, polled => sendFrame peer .queryRequest [] fun
    | .ok () => pollAll next peers (polled + 1)
    | .error _ => pollAll next peers polled

/-- `Coordinator::Impl::execute`; the flag a `shutdown` sets is read by no connection -/
def execute (retries : ℕ) (request : ControlRequest) (next : ControlResponse → Program Unit) : Program Unit :=
  if request.command = lit "shutdown" then next shutdownResponse
  else if request.command = lit "poll-workers" then
    Sessions.look (fun h => h.peers.vals) fun peers =>
      pollAll (fun polled => next { ok := true, lines := [lit "polled=" ++ decimal polled] }) peers 0
  else match parseCommand request.command with
    | some command => runCommand retries request.arguments next command
    | none => next (failure .notFound (lit "unknown control command: " ++ request.command))

/-- `CONTROL_REQUEST` -/
def handleControl (retries : ℕ) (own : Socket) (payload : Bytes) : Program Unit :=
  match decodeControlRequest payload with
  | .error e => reject own e.code (errorText e) (.done ())
  | .ok request => execute retries request fun response =>
    Sessions.reply own .controlResponse (encodeControlResponse response) (.done ())

/-! ## What a request does -/

section Operated

variable {α β γ δ : Type} {own : Socket}

theorem operates_look {read : Hub → β} {next : β → Program α} (h : ∀ b, (next b).All (Operates own)) :
    (Sessions.look read next).All (Operates own) := ⟨.look, fun _ s => h (read s)⟩

theorem operates_flush (ws : List (ℕ × Bytes)) {next : Except Error Unit → Program α}
    (h : ∀ r, (next r).All (Operates own)) : (flush ws next).All (Operates own) := by
  induction ws with
  | nil => exact h _
  | cons record ws ih =>
    refine ⟨.append _ _, fun w s => ?_⟩
    dsimp only
    split
    · exact ih
    · next e _ => exact ⟨.failure e, fun _ _ => h _⟩

/-- a call in the operator's name -/
theorem operates_call {op : Op} {body : Clock → Impl → Step β} {next : Except Error β → Program α}
    (h : ∀ r, (next r).All (Operates own)) : (call .operator op body next).All (Operates own) :=
  ⟨.command op, fun _ _ => operates_flush _ fun _ => h _⟩

theorem operates_sendFrame {kind : MessageKind} (hkind : kind ≠ .actionDispatch) (payload : Bytes)
    {next : Except Error Unit → Program α} (h : ∀ r, (next r).All (Operates own)) :
    (sendFrame own kind payload next).All (Operates own) := by
  unfold sendFrame
  split
  · exact h _
  · next hframe => exact ⟨.reply hkind hframe, fun _ _ => h _⟩

theorem operates_reject (code : ErrorCode) (detail : Text) : (reject own code detail (.done ())).All (Operates own) := by
  unfold reject
  split
  · exact operates_sendFrame (by decide) _ fun _ => trivial
  · trivial

theorem operates_reply (encoded : Except Error Bytes) :
    (Sessions.reply own .controlResponse encoded (.done ())).All (Operates own) := by
  unfold Sessions.reply
  split
  · exact operates_sendFrame (by decide) _ fun _ => trivial
  · exact operates_reject _ _

section Shapes

variable {arguments : Arguments β} {next : ControlResponse → Program α} (h : ∀ r, (next r).All (Operates own))

include h

theorem operates_lookCommand {query : β → Impl → Except Error γ} {lines : γ → List Text} :
    (lookCommand arguments query lines next).All (Operates own) := by
  unfold lookCommand
  split
  · exact h _
  · exact operates_look fun _ => h _

theorem operates_callCommand {op : β → Op} {body : β → Clock → Impl → Step γ} {lines : γ → List Text} :
    (callCommand arguments op body lines next).All (Operates own) := by
  unfold callCommand
  split
  · exact h _
  · exact operates_call fun _ => h _

theorem operates_lookThenCallCommand {query : β → Impl → Except ControlResponse δ} {op : δ → Op}
    {body : δ → Clock → Impl → Step γ} {lines : γ → List Text} :
    (lookThenCallCommand arguments query op body lines next).All (Operates own) := by
  unfold lookThenCallCommand
  split
  · exact h _
  · refine operates_look fun found => ?_
    split
    · exact h _
    · exact operates_call fun _ => h _

end Shapes

theorem operates_workerAuthorityLost {worker : WorkerId} {boot : WorkerBootId} {kind : FaultKind} {detail : Text}
    {time : UInt64} {next : Except Error ContainmentRecord → Program α} (h : ∀ r, (next r).All (Operates own)) :
    (workerAuthorityLost .operator worker boot kind detail time next).All (Operates own) := by
  unfold workerAuthorityLost
  refine operates_call fun lost => ?_
  split
  · exact h _
  · exact h _
  · refine operates_look fun epoch => operates_call fun published => ?_
    split
    · exact h _
    · exact operates_call fun _ => operates_call fun _ => h _

theorem operates_publishReports {next : Except Error (FaultRecord × Bool) → Program Unit}
    (h : ∀ r, (next r).All (Operates own)) (retries : ℕ) (evidence : FaultEvidence) (sequence : EvidenceSequence) :
    (publishReports next retries evidence sequence).All (Operates own) := by
  induction retries generalizing evidence sequence with
  | zero =>
    unfold publishReports
    refine operates_call fun published => ?_
    split
    · exact h _
    · split_ifs
      · trivial
      · exact h _
  | succ retries ih =>
    unfold publishReports
    refine operates_call fun published => ?_
    split
    · exact h _
    · split_ifs
      · exact operates_look fun sequence => ih _ _
      · exact h _

theorem operates_pollAll {next : ℕ → Program α} (h : ∀ n, (next n).All (Operates own)) (peers : List Socket) (polled : ℕ) :
    (pollAll next peers polled).All (Operates own) := by
  induction peers generalizing polled with
  | nil => exact h _
  | cons peer peers ih =>
    unfold pollAll sendFrame
    split
    · exact ih _
    · next hframe =>
      refine ⟨.poll peer hframe, fun w s => ?_⟩
      dsimp only
      split
      · exact ih _
      · exact ih _

section Commands

variable {next : ControlResponse → Program Unit} (h : ∀ r, (next r).All (Operates own)) (args : List Text)

include h

theorem operates_setResourceOwner : (setResourceOwner args next).All (Operates own) := by
  unfold setResourceOwner
  split
  · exact h _
  · exact operates_lookThenCallCommand h

theorem operates_publishReport (retries : ℕ) : (publishReport retries args next).All (Operates own) := by
  unfold publishReport
  split
  · exact h _
  · exact operates_look fun _ => operates_publishReports (fun _ => h _) _ _ _

theorem operates_workerLost : (workerLost args next).All (Operates own) := by
  unfold workerLost
  split
  · exact h _
  · exact operates_workerAuthorityLost fun _ => h _

theorem operates_release : (release args next).All (Operates own) := by
  unfold release
  split
  · exact h _
  · exact operates_look fun _ => operates_look fun _ => operates_call fun _ => h _

/-- whatever the command, what it does is the operator's -/
theorem operates_runCommand (retries : ℕ) (command : Command) : (runCommand retries args next command).All (Operates own) := by
  cases command with
  | status | faults | containments | workers | history | evaluate | containment | explain | dispatch | resource | action =>
    simp only [runCommand]
    exact operates_lookCommand h
  | registerDomain | registerIsolationDomain | registerFailureDomain | registerResource | registerDependency | verify =>
    simp only [runCommand]
    exact operates_callCommand h
  | contain | degraded =>
    simp only [runCommand]
    exact operates_lookThenCallCommand h
  | setResourceOwner =>
    simp only [runCommand]
    exact operates_setResourceOwner h args
  | publishFault =>
    simp only [runCommand]
    exact operates_publishReport h args retries
  | workerLost =>
    simp only [runCommand]
    exact operates_workerLost h args
  | release =>
    simp only [runCommand]
    exact operates_release h args
  | snapshotInfo =>
    simp only [runCommand, snapshotInfo]
    exact operates_look fun _ => operates_look fun _ => h _
  | shutdown =>
    simp only [runCommand]
    exact h _

theorem operates_execute (retries : ℕ) (request : ControlRequest) : (execute retries request next).All (Operates own) := by
  unfold execute
  split
  · exact h _
  · split
    · exact operates_look fun peers => operates_pollAll (fun _ => h _) peers 0
    · split
      · exact operates_runCommand h _ _ _
      · exact h _

end Commands

end Operated

/-- **A control request does nothing else.** Its sections are the operator's; besides, it replies to its connection and polls. -/
theorem controls_handleControl (retries : ℕ) : Controls (handleControl retries) := by
  intro own payload
  unfold handleControl
  split
  · exact operates_reject _ _
  · exact operates_execute (fun _ => operates_reply _) retries _

end FaultContainment.Sessions
