/-
The control plane of the coordinator: what `execute_engine_control` answers a request with.

A command takes its arguments apart, looks at the engine or calls it, and writes the outcome as lines of text. Before each look
and each call other threads may have run sections of their own, and the flush of a call may fail; `Surroundings` is all that
goes on around a command. Everything but `publish-fault` ends after at most three sections: that one tries again as long as the
identity of the fault is taken and no retry had a valid sequence number.

- `loop_iff`: when `publish-fault` is answered at all.
- `engineControl_iff`: so for every command.
-/
import FaultContainment.OperatorReports
import FaultContainment.Preview
import FaultContainment.Rejections

namespace FaultContainment.Control

open FaultContainment.Lib FaultContainment.Ids FaultContainment.Enums FaultContainment.Records FaultContainment.BlastRadius
open FaultContainment.Engine FaultContainment.Observations FaultContainment.Protocol FaultContainment.Coordinator
open FaultContainment.OperatorReports

/-! ## Surroundings -/

/-- what goes on around a command: the sections of other threads before each of its looks at the engine, the clocks of its own
calls and how their writes end -/
structure Surroundings where
  others : ℕ → List Section := fun _ => []
  clk : ℕ → Clock := fun _ => ticks
  io : ℕ → Io := fun _ => {}

/-- the engine a command meets at its look number `n` -/
def Surroundings.met (w : Surroundings) (n : ℕ) (s : Sys) : Sys := Runs.run Section.after (w.others n) s

/-- a call of the engine at look number `n` -/
def Surroundings.call {α : Type} (w : Surroundings) (n : ℕ) (op : Clock → Impl → Step α) (s : Sys) : Sys × Except Error α :=
  (w.met n s).perform (w.io n) (op (w.clk n) (w.met n s).impl)

/-! ## Arguments and answers -/

/-- an argument that is refused carries its code and its message -/
abbrev Arguments (α : Type) := Except (ErrorCode × Text) α

/-- an argument that has to parse -/
def required {α : Type} (value : Option α) (code : ErrorCode) (message : String) : Arguments α :=
  match value with
  | some a => .ok a
  | none => .error (code, lit message)

/-- too few arguments -/
def usage {α : Type} (message : String) : Arguments α := .error (.invalidArgument, lit message)

/-- `parse_u64` -/
def parseU64 (text : Text) : Option ℕ := if text = [] then none else parseDigits text 0

/-- `parse_flag` -/
def parseFlag (text : Text) : Option Bool :=
  if text = lit "1" ∨ text = lit "true" ∨ text = lit "yes" then some true
  else if text = lit "0" ∨ text = lit "false" ∨ text = lit "no" then some false
  else none

/-- `split_csv` -/
def splitCsv (text : Text) : List Text := if text = lit "-" ∨ text = [] then [] else text.splitOn 44

/-- the members that are named, in ascending order -/
def parseMembers : List Text → IdSet .resourceId → Option (IdSet .resourceId)
  | [], members => some members
  | member :: rest, members =>
    match parseIdArgument .resourceId member with
    | some id => if id.valid then parseMembers rest (idSetInsert members id) else none
    | none => none

/-- the optional last argument of a registration -/
def memberArguments (rest : List Text) : Option (IdSet .resourceId) := parseMembers (splitCsv (rest.headD [])) []

/-- the arguments of a command about one thing -/
def oneId (t : IdTag) (use bad : String) : List Text → Arguments (Id t)
  | id :: _ => required (parseIdArgument t id) .invalidId bad
  | [] => usage use

/-- `join_ids` -/
def joinIds {t : IdTag} (ids : IdSet t) : Text := (lit ",").intercalate (ids.map Id.text)

/-- how a flag is written -/
def flagText (b : Bool) : Text := lit (if b then "1" else "0")

/-- the response to a call -/
def reply {α : Type} (lines : α → List Text) : Except Error α → ControlResponse
  | .ok a => { ok := true, lines := lines a }
  | .error e => failure e.code (errorText e)

section Shapes

variable {α β : Type} (w : Surroundings) (arguments : Arguments β)

/-- a command that looks at the engine and leaves it alone -/
def look (query : β → Impl → Except Error α) (lines : α → List Text) (s : Sys) : Sys × ControlResponse :=
  match arguments with
  | .error e => (s, failure e.1 e.2)
  | .ok b => (w.met 0 s, reply lines (query b (w.met 0 s).impl))

/-- a command that calls the engine once -/
def once (op : β → Clock → Impl → Step α) (lines : α → List Text) (s : Sys) : Sys × ControlResponse :=
  match arguments with
  | .error e => (s, failure e.1 e.2)
  | .ok b => ((w.call 0 (op b) s).1, reply lines (w.call 0 (op b) s).2)

/-- a command that calls the engine with what a first look found -/
def lookThenCall {γ : Type} (query : β → Impl → Except ControlResponse γ) (op : γ → Clock → Impl → Step α) (lines : α → List Text)
    (s : Sys) : Sys × ControlResponse :=
  match arguments with
  | .error e => (s, failure e.1 e.2)
  | .ok b =>
    match query b (w.met 0 s).impl with
    | .error response => (w.met 0 s, response)
    | .ok c => ((w.call 1 (op c) (w.met 0 s)).1, reply lines (w.call 1 (op c) (w.met 0 s)).2)

end Shapes

/-! ## Queries -/

/-- `query_fault` -/
def queryFault (id : FaultId) (i : Impl) : Except Error FaultRecord :=
  match i.state.faults.find id with
  | some f => .ok f
  | none => .error (makeError .unknownFault "fault.query" "fault not found" id.text)

/-- `query_containment` -/
def queryContainment (generation : ContainmentGeneration) (i : Impl) : Except Error ContainmentRecord :=
  match i.state.containments.find generation with
  | some c => .ok c
  | none => .error (makeError .unknownContainment "containment.query" "containment not found" generation.text)

/-- `explain` -/
def explain (generation : ContainmentGeneration) (i : Impl) : Except Error ContainmentExplanation :=
  match i.state.containments.find generation with
  | some c => .ok c.explanation
  | none => .error (makeError .unknownContainment "containment.explain" "containment not found" generation.text)

/-- `query_action` -/
def queryAction (id : ActionId) (i : Impl) : Except Error ContainmentAction :=
  match i.state.actions.find id with
  | some a => .ok a
  | none => .error (makeError .unknownAction "action.query" "action not found" id.text)

/-- `ResourceStatusView`, as far as it is reported -/
structure ResourceStatusView where
  resource : ResourceRecord
  contained : Bool
  quarantined : Bool
  operable : Bool
  containmentGeneration : ContainmentGeneration

/-- `query_resource_status` -/
def queryResourceStatus (id : ResourceId) (i : Impl) : Except Error ResourceStatusView :=
  match i.state.topology.resources.find id with
  | none => .error (makeError .unknownResource "resource.status" "resource not found" id.text)
  | some r => .ok
    { resource := r, contained := isContained r.state, quarantined := r.quarantined
      operable := isOperable r.state && !r.quarantined, containmentGeneration := r.containmentGeneration }

/-- `history`: from a sequence number on, at most that many; no limit when it is 0 -/
def historyFrom (start limit : ℕ) (i : Impl) : List HistoryEvent :=
  let kept := i.state.history.filter fun e => start ≤ e.sequence.value.toNat
  if limit = 0 then kept else kept.take limit

/-- `SystemStatus`, as far as it is reported -/
structure SystemStatus where
  epoch : CoordinatorEpoch
  topologyGeneration : TopologyGeneration
  policyGeneration : PolicyGeneration
  containmentGeneration : ContainmentGeneration
  verificationGeneration : VerificationGeneration
  historySequence : HistorySequence
  resourceCount : ℕ
  dependencyCount : ℕ
  faultCount : ℕ
  currentFaultCount : ℕ
  liveContainmentCount : ℕ
  quarantinedResourceCount : ℕ
  workerIncarnationCount : ℕ
  liveWorkerCount : ℕ
  degradedStatus : DegradedModeStatus
  durabilityHealthy : Bool
  recoveryIncomplete : Bool
  notes : List Text

/-- `query_system_status` -/
def querySystemStatus (i : Impl) : SystemStatus :=
  let s := i.state
  let currentFaults := (s.faults.vals.filter fun f => isFaultCurrent f.state).length
  let assessment := assessDegradedMode s none {} 0
  { epoch := s.epoch
    topologyGeneration := s.topologyGeneration
    policyGeneration := s.policyGeneration
    containmentGeneration := s.containmentGeneration
    verificationGeneration := s.verificationGeneration
    historySequence := s.historySequence
    resourceCount := s.topology.resources.size
    dependencyCount := s.topology.dependencies.edges.size
    faultCount := s.faults.size
    currentFaultCount := currentFaults
    liveContainmentCount := (s.containments.vals.filter fun c => containmentIsLive c.status).length
    quarantinedResourceCount := (s.topology.resources.vals.filter fun r => r.quarantined || isContained r.state).length
    workerIncarnationCount := s.workers.incarnations.size
    liveWorkerCount := (s.workers.incarnations.vals.filter fun w => holdsLiveAuthority w.state).length
    degradedStatus := assessment.status
    durabilityHealthy := i.durabilityHealthy
    recoveryIncomplete := s.topology.resources.vals.any fun r => r.freshness ≠ .fresh
    notes :=
      (if assessment.status = .degradedRevalidationRequired then
        [lit "revalidation required for " ++ decimal assessment.revalidationRequired.length ++ lit " resource(s)"] else []) ++
      (if s.containments.size = 0 ∧ currentFaults = 0 then [lit "no containment is currently active"] else []) }

/-! ## Reports -/

def statusLines (status : SystemStatus) : List Text :=
  [lit "epoch=" ++ status.epoch.text,
   lit "topology_generation=" ++ status.topologyGeneration.text,
   lit "policy_generation=" ++ status.policyGeneration.text,
   lit "containment_generation=" ++ status.containmentGeneration.text,
   lit "verification_generation=" ++ status.verificationGeneration.text,
   lit "history_sequence=" ++ status.historySequence.text,
   lit "resources=" ++ decimal status.resourceCount,
   lit "dependencies=" ++ decimal status.dependencyCount,
   lit "faults=" ++ decimal status.faultCount,
   lit "current_faults=" ++ decimal status.currentFaultCount,
   lit "live_containments=" ++ decimal status.liveContainmentCount,
   lit "quarantined_resources=" ++ decimal status.quarantinedResourceCount,
   lit "worker_incarnations=" ++ decimal status.workerIncarnationCount,
   lit "live_workers=" ++ decimal status.liveWorkerCount,
   lit "degraded_status=" ++ Coded.name status.degradedStatus,
   lit "durability_healthy=" ++ flagText status.durabilityHealthy,
   lit "recovery_incomplete=" ++ flagText status.recoveryIncomplete] ++
  status.notes.map fun note => lit "note=" ++ note

def faultLine (id : FaultId) (f : FaultRecord) : Text :=
  id.text ++ lit " kind=" ++ Coded.name f.evidence.kind ++ lit " state=" ++ Coded.name f.state ++ lit " subject=" ++
    f.evidence.subject.text ++ lit " generation=" ++ f.evidence.generation.text ++ lit " containment=" ++
    f.containmentGeneration.text ++ lit " duplicates=" ++ decimal f.duplicateCount.toNat

def containmentLine (c : ContainmentRecord) : Text :=
  c.generation.text ++ lit " fault=" ++ c.fault.text ++ lit " status=" ++ Coded.name c.status ++ lit " outcome=" ++
    Coded.name c.outcome ++ lit " mandatory=" ++ decimal c.mandatory.length ++ lit " unaffected=" ++
    decimal c.unaffected.length ++ lit " unresolved=" ++ decimal c.unresolved.length ++ lit " verified=" ++ flagText c.verified

def workerLine (key : WorkerKey) (r : WorkerRecord) : Text :=
  key.worker.text ++ lit " boot=" ++ key.boot.text ++ lit " incarnation=" ++ r.incarnation.text ++ lit " state=" ++
    Coded.name r.state ++ lit " freshness=" ++ Coded.name r.freshness ++ lit " authority=" ++ joinIds r.liveAuthority

def historyLine (e : HistoryEvent) : Text := e.sequence.text ++ lit " " ++ Coded.name e.type ++ lit " " ++ e.detail

def radiusLines (radius : Records.BlastRadius) : List Text :=
  [lit "recommended=" ++ Coded.name radius.recommended,
   lit "mandatory=" ++ joinIds radius.mandatory,
   lit "precautionary=" ++ joinIds radius.precautionary,
   lit "unaffected=" ++ joinIds radius.unaffected,
   lit "unresolved=" ++ joinIds radius.unresolved,
   lit "hard_constraints_satisfied=" ++ flagText radius.hardConstraintsSatisfied] ++
  radius.explanation.map fun l => lit "explain " ++ l.category ++ lit " " ++ l.text

def committedLines (c : ContainmentRecord) : List Text :=
  [lit "containment=" ++ c.generation.text,
   lit "status=" ++ Coded.name c.status,
   lit "outcome=" ++ Coded.name c.outcome,
   lit "mandatory=" ++ joinIds c.mandatory,
   lit "precautionary=" ++ joinIds c.precautionary,
   lit "unaffected=" ++ joinIds c.unaffected,
   lit "unresolved=" ++ joinIds c.unresolved,
   lit "action_count=" ++ decimal c.actions.length] ++
  c.actions.map fun id => lit "action=" ++ id.text

def containmentLines (c : ContainmentRecord) : List Text :=
  [lit "generation=" ++ c.generation.text,
   lit "status=" ++ Coded.name c.status,
   lit "verified=" ++ flagText c.verified,
   lit "verification_outcome=" ++ Coded.name c.verificationOutcome,
   lit "degraded_status=" ++ Coded.name c.degradedStatus,
   lit "mandatory=" ++ joinIds c.mandatory,
   lit "unaffected=" ++ joinIds c.unaffected,
   lit "released=" ++ joinIds c.released,
   lit "action_count=" ++ decimal c.actions.length] ++
  c.actions.map fun id => lit "action=" ++ id.text

def explanationLines (lines : ContainmentExplanation) : List Text := lines.map fun l => l.category ++ lit " " ++ l.text

def passText (passed : Bool) : Text := lit (if passed then "pass" else "fail")

def verificationLines (v : ContainmentVerification) : List Text :=
  [lit "outcome=" ++ Coded.name v.outcome,
   lit "proven_contained=" ++ decimal v.provenContained.length,
   lit "unproven=" ++ decimal v.unproven.length,
   lit "propagation_blocked=" ++ flagText v.propagationBlocked,
   lit "degraded_mode_valid=" ++ flagText v.degradedModeValid,
   lit "blast_radius_increased=" ++ flagText v.blastRadiusIncreased,
   lit "secondary_failure=" ++ flagText v.secondaryFailure,
   lit "summary=" ++ v.summary] ++
  v.findings.map fun f => lit "check " ++ f.check ++ lit "=" ++ passText f.passed ++ lit " " ++ f.detail

def resourceLines (view : ResourceStatusView) : List Text :=
  [lit "resource=" ++ view.resource.id.text,
   lit "state=" ++ Coded.name view.resource.state,
   lit "generation=" ++ view.resource.generation.text,
   lit "quarantined=" ++ flagText view.quarantined,
   lit "operable=" ++ flagText view.operable,
   lit "contained=" ++ flagText view.contained,
   lit "freshness=" ++ Coded.name view.resource.freshness,
   lit "mechanism=" ++ Coded.name view.resource.mechanism,
   lit "owner_boot=" ++ view.resource.ownerBoot.text,
   lit "containment=" ++ view.containmentGeneration.text]

def actionLines (a : ContainmentAction) : List Text :=
  [lit "action=" ++ a.id.text,
   lit "kind=" ++ Coded.name a.kind,
   lit "status=" ++ Coded.name a.status,
   lit "target=" ++ a.target.text,
   lit "rejection_code=" ++ Coded.name a.rejectionCode,
   lit "rejection_detail=" ++ a.rejectionDetail]

def degradedLines (a : DegradedModeAssessment) : List Text :=
  [lit "status=" ++ Coded.name a.status,
   lit "permitted=" ++ joinIds a.permitted,
   lit "prohibited=" ++ joinIds a.prohibited,
   lit "revalidation_required=" ++ joinIds a.revalidationRequired,
   lit "capacity_percent=" ++ decimal a.availableCapacityPercent.toNat,
   lit "contract=" ++ a.contract.text]

def releaseLines (a : ReleaseAssessment) : List Text :=
  [lit "decision=" ++ Coded.name a.decision,
   lit "granted=" ++ flagText a.granted,
   lit "release_generation=" ++ a.generation.text,
   lit "summary=" ++ a.summary] ++
  a.criteria.map fun f => lit "criterion " ++ f.check ++ lit "=" ++ passText f.passed ++ lit " " ++ f.detail

def snapshotLines (s : RuntimeSnapshot) (durabilityHealthy : Bool) : List Text :=
  [lit "epoch=" ++ s.epoch.text,
   lit "resources=" ++ decimal s.topology.resources.size,
   lit "domains=" ++ decimal s.topology.containmentDomains.size,
   lit "isolation_domains=" ++ decimal s.topology.isolationDomains.size,
   lit "failure_domains=" ++ decimal s.topology.failureDomains.size,
   lit "dependencies=" ++ decimal s.topology.dependencies.edges.size,
   lit "faults=" ++ decimal s.faults.size,
   lit "containments=" ++ decimal s.containments.size,
   lit "actions=" ++ decimal s.actions.size,
   lit "history_in_memory=" ++ decimal s.history.length,
   lit "history_total=" ++ decimal s.historyTotal.toNat,
   lit "durability_healthy=" ++ flagText durabilityHealthy]

/-! ## Commands -/

section Commands

variable (w : Surroundings)

/-- the arguments of `register-domain` -/
def domainArguments : List Text → Arguments ContainmentDomain
  | id :: name :: coIsolate :: rest => do
    let id ← required (parseIdArgument .containmentDomainId id) .invalidId "register-domain: bad domain identity"
    let coIsolate ← required (parseFlag coIsolate) .invalidArgument "register-domain: co_isolate must be 0 or 1"
    let members ← required (memberArguments rest) .invalidId "register-domain: bad member identity"
    return { id := id, name := name, members := members, coIsolateMembers := coIsolate }
  | _ => usage "register-domain <id> <name> <co_isolate> [members csv]"

/-- the arguments of `register-isolation-domain` -/
def isolationDomainArguments : List Text → Arguments IsolationDomain
  | id :: name :: mechanism :: rest => do
    let id ← required (parseIdArgument .isolationDomainId id) .invalidId "register-isolation-domain: bad identity"
    let mechanism ← required (parseCoded ContainmentMechanism mechanism) .invalidArgument
      "register-isolation-domain: bad mechanism"
    let members ← required (memberArguments rest) .invalidId "register-isolation-domain: bad member"
    return { id := id, name := name, members := members, mechanism := mechanism }
  | _ => usage "register-isolation-domain <id> <name> <mechanism> [members csv]"

/-- the arguments of `register-failure-domain` -/
def failureDomainArguments : List Text → Arguments FailureDomain
  | id :: name :: kind :: rest => do
    let id ← required (parseIdArgument .failureDomainId id) .invalidId "register-failure-domain: bad identity"
    let kind ← required (parseCoded FailureDomainKind kind) .invalidArgument "register-failure-domain: bad kind"
    let members ← required (memberArguments rest) .invalidId "register-failure-domain: bad member"
    return { id := id, name := name, kind := kind, members := members, provenance := .operator, freshness := .fresh }
  | _ => usage "register-failure-domain <id> <name> <kind> [members csv]"

/-- the arguments of `register-resource` -/
def resourceArguments : List Text → Arguments ResourceRecord
  | id :: name :: resourceClass :: protection :: domain :: isolation :: failureDomain :: worker :: boot :: _ => do
    let id ← required (parseIdArgument .resourceId id) .invalidId "register-resource: bad resource identity"
    let resourceClass ← required (parseCoded ResourceClass resourceClass) .invalidArgument "register-resource: bad class"
    let protection ← required (parseCoded ProtectionClass protection) .invalidArgument
      "register-resource: bad protection class"
    let domain ← required (parseIdArgument .containmentDomainId domain) .invalidId "register-resource: bad identity argument"
    let isolation ← required (parseIdArgument .isolationDomainId isolation) .invalidId
      "register-resource: bad identity argument"
    let failureDomain ← required (parseIdArgument .failureDomainId failureDomain) .invalidId
      "register-resource: bad identity argument"
    let worker ← required (parseIdArgument .workerId worker) .invalidId "register-resource: bad identity argument"
    let boot ← required (parseIdArgument .workerBootId boot) .invalidId "register-resource: bad identity argument"
    return { id := id, name := name, resourceClass := resourceClass, protection := protection, containmentDomain := domain,
             isolationDomain := isolation, failureDomain := failureDomain, ownerWorker := worker, ownerBoot := boot
             state := .unknown, freshness := .unknown }
  | _ => usage "register-resource <id> <name> <class> <protection> <cd> <idom> <fdom> <worker> <boot>"

/-- the arguments of `register-dependency` -/
def dependencyArguments : List Text → Arguments DependencyEdge
  | id :: source :: destination :: kind :: rest => do
    let id ← required (parseIdArgument .dependencyId id) .invalidId "register-dependency: bad identity argument"
    let source ← required (parseIdArgument .resourceId source) .invalidId "register-dependency: bad identity argument"
    let destination ← required (parseIdArgument .resourceId destination) .invalidId
      "register-dependency: bad identity argument"
    let kind ← required (parseCoded DependencyKind kind) .invalidArgument "register-dependency: bad dependency kind"
    let conditional ← match rest with
      | flag :: _ => required (parseFlag flag) .invalidArgument "register-dependency: conditional must be 0 or 1"
      | [] => .ok false
    return { id := id, source := source, destination := destination, kind := kind, conditional := conditional
             provenance := .operator, freshness := .fresh, integrity := .verified, confidencePermille := 1000
             evidenceSource := lit "control-plane" }
  | _ => usage "register-dependency <id> <source> <destination> <kind> [conditional]"

/-- the arguments of `history` -/
def historyArguments (args : List Text) : Arguments (ℕ × ℕ) := do
  let start ← match args with
    | start :: _ => required (parseU64 start) .invalidArgument "history: <from_sequence> must be numeric"
    | [] => .ok 1
  let limit ← match args with
    | _ :: limit :: _ => required (parseU64 limit) .invalidArgument "history: <limit> must be numeric"
    | _ => .ok 200
  return (start, limit)

/-- the arguments of `worker-lost` -/
def lossArguments : List Text → Arguments (WorkerId × WorkerBootId × FaultKind)
  | worker :: boot :: kind :: _ => do
    let worker ← required (parseIdArgument .workerId worker) .invalidId "worker-lost: bad identity argument"
    let boot ← required (parseIdArgument .workerBootId boot) .invalidId "worker-lost: bad identity argument"
    let kind ← required (parseCoded FaultKind kind) .invalidArgument "worker-lost: bad fault kind"
    return (worker, boot, kind)
  | _ => usage "worker-lost <worker> <boot> <fault kind>"

/-- the arguments of `release` -/
def releaseArguments : List Text → Arguments ReleaseRequest
  | resource :: containment :: authority :: _ => do
    let resource ← required (parseIdArgument .resourceId resource) .invalidId "release: bad identity argument"
    let containment ← required (parseIdArgument .containmentGeneration containment) .invalidId
      "release: bad identity argument"
    return { resource := resource, containmentGeneration := containment, authority := authority }
  | _ => usage "release <resource> <containment> <authority>"

/-- `status` -/
def statusCommand (s : Sys) : Sys × ControlResponse :=
  look w (.ok ()) (fun _ i => .ok (querySystemStatus i)) statusLines s

/-- `faults` -/
def faultsCommand (s : Sys) : Sys × ControlResponse :=
  look w (.ok ()) (fun _ i => .ok i.state.faults.toList) (fun faults => faults.map fun e => faultLine e.1 e.2) s

/-- `containments` -/
def containmentsCommand (s : Sys) : Sys × ControlResponse :=
  look w (.ok ()) (fun _ i => .ok i.state.containments.vals) (fun records => records.map containmentLine) s

/-- `workers` -/
def workersCommand (s : Sys) : Sys × ControlResponse :=
  look w (.ok ()) (fun _ i => .ok i.state.workers.incarnations.toList)
    (fun incarnations => incarnations.map fun e => workerLine e.1 e.2) s

/-- `history` -/
def historyCommand (args : List Text) (s : Sys) : Sys × ControlResponse :=
  look w (historyArguments args) (fun range i => .ok (historyFrom range.1 range.2 i)) (fun events => events.map historyLine) s

def storedDomainLines (stored : ContainmentDomain) : List Text := [lit "containment_domain=" ++ stored.id.text]

def storedIsolationDomainLines (stored : IsolationDomain) : List Text := [lit "isolation_domain=" ++ stored.id.text]

def storedFailureDomainLines (stored : FailureDomain) : List Text := [lit "failure_domain=" ++ stored.id.text]

def storedDependencyLines (stored : DependencyEdge) : List Text := [lit "dependency=" ++ stored.id.text]

/-- `register-domain` -/
def registerDomainCommand (args : List Text) (s : Sys) : Sys × ControlResponse :=
  once w (domainArguments args) (fun domain clk => registerDomain clk domain) storedDomainLines s

/-- `register-isolation-domain` -/
def registerIsolationDomainCommand (args : List Text) (s : Sys) : Sys × ControlResponse :=
  once w (isolationDomainArguments args) (fun domain clk => registerIsolationDomain clk domain) storedIsolationDomainLines s

/-- `register-failure-domain` -/
def registerFailureDomainCommand (args : List Text) (s : Sys) : Sys × ControlResponse :=
  once w (failureDomainArguments args) (fun domain clk => registerFailureDomain clk domain) storedFailureDomainLines s

/-- the lines about a stored resource -/
def storedResourceLines (stored : ResourceRecord) : List Text :=
  [lit "resource=" ++ stored.id.text, lit "resource_generation=" ++ stored.generation.text]

/-- `register-resource` -/
def registerResourceCommand (args : List Text) (s : Sys) : Sys × ControlResponse :=
  once w (resourceArguments args) (fun record clk => registerResource clk record) storedResourceLines s

/-- the resource that gets a new owner -/
def resourceToOwn (id : ResourceId) (i : Impl) : Except ControlResponse ResourceRecord :=
  match i.state.topology.resources.find id with
  | some r => .ok r
  | none => .error (failure .unknownResource (lit "set-resource-owner: unknown resource"))

/-- `set-resource-owner`: the stored record with a new owner is handed back under its own generation -/
def setResourceOwnerCommand (args : List Text) (s : Sys) : Sys × ControlResponse :=
  match ownerArguments args with
  | .error response => (s, response)
  | .ok (resource, worker, boot) =>
    lookThenCall w (.ok resource) resourceToOwn
      (fun r clk => updateResource clk (ownedRecord worker boot r) r.generation) storedResourceLines s

/-- `register-dependency` -/
def registerDependencyCommand (args : List Text) (s : Sys) : Sys × ControlResponse :=
  once w (dependencyArguments args) (fun edge clk => registerDependency clk edge) storedDependencyLines s

def lostLines (c : ContainmentRecord) : List Text :=
  [lit "containment=" ++ c.generation.text, lit "mandatory=" ++ decimal c.mandatory.length]

/-- `worker-lost` -/
def workerLostCommand (args : List Text) (s : Sys) : Sys × ControlResponse :=
  match lossArguments args with
  | .error e => (s, failure e.1 e.2)
  | .ok (worker, boot, kind) =>
    let lost := workerAuthorityLost w.clk w.io worker boot kind (lit "operator-observed authority loss") 0 (w.met 0 s)
    (lost.1, reply lostLines lost.2)

/-- `evaluate` -/
def evaluateCommand (args : List Text) (s : Sys) : Sys × ControlResponse :=
  look w (oneId .faultId "evaluate <fault>" "evaluate: bad fault identity" args)
    (fun fault => Preview.evaluateContainment fault {}) radiusLines s

/-- the fault that is to be contained, with its generation -/
def faultToContain (fault : FaultId) (i : Impl) : Except ControlResponse (FaultId × FaultGeneration) :=
  match queryFault fault i with
  | .ok f => .ok (fault, f.evidence.generation)
  | .error e => .error (failure e.code (errorText e))

/-- `contain` -/
def containCommand (args : List Text) (s : Sys) : Sys × ControlResponse :=
  lookThenCall w (oneId .faultId "contain <fault>" "contain: bad fault identity" args)
    faultToContain (fun fault clk => authorizeContainment clk fault.1 fault.2) committedLines s

/-- `containment` -/
def containmentCommand (args : List Text) (s : Sys) : Sys × ControlResponse :=
  look w (oneId .containmentGeneration "containment <generation>" "containment: bad generation" args)
    queryContainment containmentLines s

/-- `explain` -/
def explainCommand (args : List Text) (s : Sys) : Sys × ControlResponse :=
  look w (oneId .containmentGeneration "explain <containment>" "explain: bad generation" args) explain explanationLines s

/-- `dispatch`: an executor is needed for that -/
def dispatchCommand (args : List Text) (s : Sys) : Sys × ControlResponse :=
  look w (oneId .containmentGeneration "dispatch <containment>" "dispatch: bad generation" args)
    (fun _ _ => .ok ()) (fun _ => [lit "dispatch_requires_executor=1"]) s

/-- `verify` -/
def verifyCommand (args : List Text) (s : Sys) : Sys × ControlResponse :=
  once w (oneId .containmentGeneration "verify <containment>" "verify: bad generation" args)
    (fun generation clk => verifyContainment clk generation) verificationLines s

/-- `resource` -/
def resourceCommand (args : List Text) (s : Sys) : Sys × ControlResponse :=
  look w (oneId .resourceId "resource <id>" "resource: bad identity" args) queryResourceStatus resourceLines s

/-- `action` -/
def actionCommand (args : List Text) (s : Sys) : Sys × ControlResponse :=
  look w (oneId .actionId "action <id>" "action: bad identity" args) queryAction actionLines s

/-- a contract with nothing in it but the containment -/
def bareContract (generation : ContainmentGeneration) : DegradedModeContract :=
  { name := lit "auto/" ++ generation.text, containmentGeneration := generation }

/-- the containment a contract is for -/
def contractToAuthorize (generation : ContainmentGeneration) (i : Impl) : Except ControlResponse DegradedModeContract :=
  match queryContainment generation i with
  | .ok _ => .ok (bareContract generation)
  | .error e => .error (failure e.code (errorText e))

/-- `degraded` -/
def degradedCommand (args : List Text) (s : Sys) : Sys × ControlResponse :=
  lookThenCall w (oneId .containmentGeneration "degraded <containment>" "degraded: bad generation" args)
    contractToAuthorize (fun contract clk => authorizeDegradedMode clk contract) degradedLines s

/-- the request, about the resource as it stands; a resource that is not there is left out -/
def requestAsItStands (request : ReleaseRequest) (i : Impl) : ReleaseRequest :=
  match i.state.topology.resources.find request.resource with
  | some r => { request with expectedGeneration := r.generation, evidenceSequence := r.evidenceSequence }
  | none => request

/-- `release`: the epoch, then the resource, then the request -/
def releaseCommand (args : List Text) (s : Sys) : Sys × ControlResponse :=
  match releaseArguments args with
  | .error e => (s, failure e.1 e.2)
  | .ok request =>
    let request := { request with epoch := (w.met 0 s).impl.state.epoch }
    let s := w.met 1 (w.met 0 s)
    let request := requestAsItStands request s.impl
    let released := w.call 2 (fun clk => authorizeRelease clk request) s
    (released.1, reply releaseLines released.2)

/-- `snapshot-info`: the health of the store is asked for after the snapshot -/
def snapshotInfoCommand (s : Sys) : Sys × ControlResponse :=
  let snapshot := (w.met 0 s).impl.state
  let s := w.met 1 (w.met 0 s)
  (s, { ok := true, lines := snapshotLines snapshot s.impl.durabilityHealthy })

/-- `shutdown` -/
def shutdownResponse : ControlResponse := { ok := true, lines := [lit "shutdown=accepted"] }

/-- reports through the coordinator: attempt `n` is made at look `2 * n + 1`, after a snapshot at the look before if it is a
retry -/
def reports : Reporting ℕ Sys where
  publish n evidence s :=
    let duplicate := isDuplicate evidence (w.met (2 * n + 1) s).impl
    let published := w.call (2 * n + 1) (fun clk => publishFault clk evidence) s
    (published.1, published.2.map fun f => (f, duplicate))
  retry n evidence s :=
    let s := w.met (2 * n) s
    ({ evidence with observationSequence := nextObservation s.impl.state evidence }, s)

/-- `publish-fault`; nothing is answered while a retry is due, and the fuel counts the retries -/
def publishFaultCommand (fuel : ℕ) (args : List Text) (s : Sys) : Option (Sys × ControlResponse) :=
  match faultArguments args with
  | .error response => some (s, response)
  | .ok request =>
    let s := w.met 0 s
    ((reports w).loop (List.range' 1 fuel) 0 (operatorEvidence s.impl.state.epoch request) {} s).map fun answer =>
      (answer.1, respondFault (answer.2.mapError fun e => failure e.code (errorText e)))

end Commands

/-- the commands -/
inductive Command where
  | status | faults | containments | workers | history | registerDomain | registerIsolationDomain | registerFailureDomain
  | registerResource | setResourceOwner | registerDependency | publishFault | workerLost | evaluate | contain | containment
  | explain | dispatch | verify | resource | action | degraded | release | snapshotInfo | shutdown
  deriving DecidableEq, Repr

/-- the commands in the order in which a request is compared with them -/
def commandNames : List (Command × String) :=
  [(.status, "status"), (.faults, "faults"), (.containments, "containments"), (.workers, "workers"), (.history, "history"),
   (.registerDomain, "register-domain"), (.registerIsolationDomain, "register-isolation-domain"),
   (.registerFailureDomain, "register-failure-domain"), (.registerResource, "register-resource"),
   (.setResourceOwner, "set-resource-owner"), (.registerDependency, "register-dependency"), (.publishFault, "publish-fault"),
   (.workerLost, "worker-lost"), (.evaluate, "evaluate"), (.contain, "contain"), (.containment, "containment"),
   (.explain, "explain"), (.dispatch, "dispatch"), (.verify, "verify"), (.resource, "resource"), (.action, "action"),
   (.degraded, "degraded"), (.release, "release"), (.snapshotInfo, "snapshot-info"), (.shutdown, "shutdown")]

/-- the command a request is about -/
def parseCommand (text : Text) : Option Command :=
  (commandNames.find? fun entry => lit entry.2 = text).map Prod.fst

/-- what a command does, and what it answers -/
def Command.run (w : Surroundings) (fuel : ℕ) (args : List Text) (s : Sys) : Command → Option (Sys × ControlResponse)
  | .status => some (statusCommand w s)
  | .faults => some (faultsCommand w s)
  | .containments => some (containmentsCommand w s)
  | .workers => some (workersCommand w s)
  | .history => some (historyCommand w args s)
  | .registerDomain => some (registerDomainCommand w args s)
  | .registerIsolationDomain => some (registerIsolationDomainCommand w args s)
  | .registerFailureDomain => some (registerFailureDomainCommand w args s)
  | .registerResource => some (registerResourceCommand w args s)
  | .setResourceOwner => some (setResourceOwnerCommand w args s)
  | .registerDependency => some (registerDependencyCommand w args s)
  | .publishFault => publishFaultCommand w fuel args s
  | .workerLost => some (workerLostCommand w args s)
  | .evaluate => some (evaluateCommand w args s)
  | .contain => some (containCommand w args s)
  | .containment => some (containmentCommand w args s)
  | .explain => some (explainCommand w args s)
  | .dispatch => some (dispatchCommand w args s)
  | .verify => some (verifyCommand w args s)
  | .resource => some (resourceCommand w args s)
  | .action => some (actionCommand w args s)
  | .degraded => some (degradedCommand w args s)
  | .release => some (releaseCommand w args s)
  | .snapshotInfo => some (snapshotInfoCommand w s)
  | .shutdown => some (s, shutdownResponse)

/-- `execute_engine_control` -/
def executeEngineControl (w : Surroundings) (fuel : ℕ) (request : ControlRequest) (s : Sys) : Option (Sys × ControlResponse) :=
  match parseCommand request.command with
  | some command => command.run w fuel request.arguments s
  | none => some (s, failure .notFound (lit "unknown control command: " ++ request.command))

/-! ## Retries -/

section Retries

variable (w : Surroundings)

/-- the evidence of attempt `n`, and the engine before other threads have run ahead of it -/
def attempt (evidence : FaultEvidence) (s : Sys) : ℕ → FaultEvidence × Sys
  | 0 => (evidence, s)
  | n + 1 => (reports w).retry (n + 1) (attempt evidence s n).1
      ((reports w).publish n (attempt evidence s n).1 (attempt evidence s n).2).1

/-- attempt `n` finds the identity of the fault taken -/
def ConflictsAt (evidence : FaultEvidence) (s : Sys) (n : ℕ) : Prop :=
  Conflicts (attempt w evidence s n).1 (w.met (2 * n + 1) (attempt w evidence s n).2).impl

/-- every attempt finds the identity taken, and every retry is numbered 0: the highest number on record is the last there is -/
def Spins (evidence : FaultEvidence) (s : Sys) : Prop :=
  ∀ n, ConflictsAt w evidence s n ∧ (attempt w evidence s (n + 1)).1.observationSequence.valid = false

/-- a call of `publish_fault` ends in a conflict exactly when the observation is new and its identity is taken: the error of a
flush is another -/
theorem call_conflict_iff (n : ℕ) (evidence : FaultEvidence) (s : Sys) :
    (∃ e, (w.call n (fun clk => publishFault clk evidence) s).2 = .error e ∧ e.code = .duplicateConflict) ↔
      Conflicts evidence (w.met n s).impl := by
  rw [← publishFault_conflict_iff (w.clk n)]
  unfold Surroundings.call
  rcases Rejections.perform_cases (w.io n) (publishFault (w.clk n) evidence (w.met n s).impl) (w.met n s) with
    ⟨e, he, hcode⟩ | ⟨hresult, -⟩
  · refine iff_of_false ?_ ?_
    · rintro ⟨e', he', hconflict⟩
      rw [he] at he'
      rw [← Except.error.inj he', hcode] at hconflict
      exact absurd hconflict (by decide)
    · rintro ⟨e', he', hconflict⟩
      -- a refused report is not flushed
      have hrefused : ((w.met n s).perform (w.io n) (publishFault (w.clk n) evidence (w.met n s).impl)).2 = .error e' := by
        have hc := (publishFault_conflict_iff _ _ _).mp ⟨e', he', hconflict⟩
        cases publishFault_cases (w.clk n) evidence (w.met n s).impl with
        | rejected j e haccepted _ _ _ => exact absurd hc.accepted haccepted
        | duplicate id _ hknown _ => exact absurd (hc.unknown.symm.trans hknown) (by simp)
        | refused e _ _ _ hstep =>
          rw [hstep] at he' ⊢
          exact he'
        | fresh _ _ _ hstep =>
          rw [hstep] at he'
          simp [storeFault, commit] at he'
      rw [he] at hrefused
      rw [← Except.error.inj hrefused, hcode] at hconflict
      exact absurd hconflict (by decide)
  · rw [hresult]

/-- an attempt is retried when it ends in a conflict and was not numbered -/
theorem goesOn_attempt_iff (n : ℕ) (evidence : FaultEvidence) (sequence : EvidenceSequence) (s : Sys) :
    (reports w).GoesOn n evidence sequence s ↔ Conflicts evidence (w.met (2 * n + 1) s).impl ∧ sequence.valid = false := by
  rw [← call_conflict_iff w]
  refine and_congr_left fun _ => ?_
  show (∃ e, (w.call (2 * n + 1) (fun clk => publishFault clk evidence) s).2.map _ = .error e ∧ _) ↔ _
  cases (w.call (2 * n + 1) (fun clk => publishFault clk evidence) s).2 with
  | error e => simp [Except.map]
  | ok f => simp [Except.map]

/-- an attempt that finds no conflict, or that was numbered, is the last -/
theorem loop_last (rounds : List ℕ) (n : ℕ) {evidence : FaultEvidence} {sequence : EvidenceSequence} {s : Sys}
    (h : ¬ (Conflicts evidence (w.met (2 * n + 1) s).impl ∧ sequence.valid = false)) :
    ∃ answer, (reports w).loop rounds n evidence sequence s = some answer :=
  ⟨_, Reporting.loop_ends (mt (goesOn_attempt_iff w n evidence sequence s).mp h)⟩

/-- after a conflict, an attempt that was not numbered is followed by another, if there is fuel -/
theorem loop_retry (evidence : FaultEvidence) (s : Sys) (fuel n : ℕ) {sequence : EvidenceSequence}
    (hconflict : ConflictsAt w evidence s n) (hinvalid : sequence.valid = false) :
    (reports w).loop (List.range' (n + 1) fuel) n (attempt w evidence s n).1 sequence (attempt w evidence s n).2 =
      match fuel with
      | 0 => none
      | fuel + 1 => (reports w).loop (List.range' (n + 2) fuel) (n + 1) (attempt w evidence s (n + 1)).1
          (attempt w evidence s (n + 1)).1.observationSequence (attempt w evidence s (n + 1)).2 := by
  rw [Reporting.loop_next ((goesOn_attempt_iff w _ _ _ _).mpr ⟨hconflict, hinvalid⟩)]
  cases fuel with
  | zero => rfl
  | succ fuel => rfl

theorem loop_spin {evidence : FaultEvidence} {s : Sys} (h : Spins w evidence s) (fuel : ℕ) :
    ∀ n sequence, sequence.valid = false → (reports w).loop (List.range' (n + 1) fuel) n (attempt w evidence s n).1 sequence
      (attempt w evidence s n).2 = none := by
  induction fuel with
  | zero =>
    intro n sequence hinvalid
    exact loop_retry w evidence s 0 n (h n).1 hinvalid
  | succ fuel ih =>
    intro n sequence hinvalid
    rw [loop_retry w evidence s (fuel + 1) n (h n).1 hinvalid]
    exact ih (n + 1) _ (h n).2

/-- an attempt that does not go on, `k` attempts later, ends the loop by then -/
theorem loop_end {evidence : FaultEvidence} {s : Sys} (k : ℕ) : ∀ n sequence,
    ¬ (ConflictsAt w evidence s (n + k) ∧ (attempt w evidence s (n + k + 1)).1.observationSequence.valid = false) →
      ∃ fuel answer, (reports w).loop (List.range' (n + 1) fuel) n (attempt w evidence s n).1 sequence
        (attempt w evidence s n).2 = some answer := by
  induction k with
  | zero =>
    intro n sequence h
    by_cases hgoes : ConflictsAt w evidence s n ∧ sequence.valid = false
    · have hnext : (attempt w evidence s (n + 1)).1.observationSequence.valid ≠ false := fun hinvalid => h ⟨hgoes.1, hinvalid⟩
      obtain ⟨answer, ha⟩ : ∃ answer, (reports w).loop [] (n + 1) (attempt w evidence s (n + 1)).1
          (attempt w evidence s (n + 1)).1.observationSequence (attempt w evidence s (n + 1)).2 = some answer :=
        loop_last w [] (n + 1) fun hc => hnext hc.2
      exact ⟨1, answer, (loop_retry w evidence s 1 n hgoes.1 hgoes.2).trans ha⟩
    · exact ⟨0, loop_last w _ n hgoes⟩
  | succ k ih =>
    intro n sequence h
    by_cases hgoes : ConflictsAt w evidence s n ∧ sequence.valid = false
    · have hplace : n + (k + 1) = n + 1 + k := by omega
      rw [hplace] at h
      obtain ⟨fuel, answer, ha⟩ := ih (n + 1) (attempt w evidence s (n + 1)).1.observationSequence h
      exact ⟨fuel + 1, answer, (loop_retry w evidence s (fuel + 1) n hgoes.1 hgoes.2).trans ha⟩
    · exact ⟨0, loop_last w _ n hgoes⟩

/-- **The retries.** The loop ends exactly when some attempt finds no conflict, or some retry has a valid number. -/
theorem loop_iff (evidence : FaultEvidence) (s : Sys) :
    (∃ fuel answer, (reports w).loop (List.range' 1 fuel) 0 evidence {} s = some answer) ↔ ¬ Spins w evidence s := by
  constructor
  · rintro ⟨fuel, answer, ha⟩ hspins
    have hnone := loop_spin w hspins fuel 0 {} rfl
    have hsome : (reports w).loop (List.range' (0 + 1) fuel) 0 (attempt w evidence s 0).1 {} (attempt w evidence s 0).2 =
        some answer := ha
    rw [hnone] at hsome
    simp at hsome
  · intro h
    obtain ⟨n, hn⟩ := not_forall.mp h
    have hplace : ¬ (ConflictsAt w evidence s (0 + n) ∧
        (attempt w evidence s (0 + n + 1)).1.observationSequence.valid = false) := by
      rwa [Nat.zero_add]
    exact loop_end w n 0 {} hplace

/-- a request to publish a fault, and the loop over it never ends -/
def Unanswered (request : ControlRequest) (s : Sys) : Prop :=
  parseCommand request.command = some .publishFault ∧ ∃ fault, faultArguments request.arguments = .ok fault ∧
    Spins w (operatorEvidence (w.met 0 s).impl.state.epoch fault) (w.met 0 s)

/-- **Which requests the engine answers.** All but a `publish-fault` that retries for ever. -/
theorem engineControl_iff (request : ControlRequest) (s : Sys) :
    (∃ fuel answer, executeEngineControl w fuel request s = some answer) ↔ ¬ Unanswered w request s := by
  unfold executeEngineControl Unanswered
  cases hcommand : parseCommand request.command with
  | none => simp
  | some command =>
    by_cases hpublish : command = .publishFault
    · subst hpublish
      simp only [Command.run, publishFaultCommand]
      cases hargs : faultArguments request.arguments with
      | error response => simp
      | ok fault =>
        have hloop := loop_iff w (operatorEvidence (w.met 0 s).impl.state.epoch fault) (w.met 0 s)
        simp only [Option.map_eq_some_iff, true_and, Except.ok.injEq, exists_eq_left']
        rw [← hloop]
        constructor
        · rintro ⟨fuel, _, answer, ha, -⟩
          exact ⟨fuel, answer, ha⟩
        · rintro ⟨fuel, answer, ha⟩
          exact ⟨fuel, _, answer, ha, rfl⟩
    · have hanswered : ∃ fuel answer, command.run w fuel request.arguments s = some answer := by
        cases command with
        | publishFault => exact absurd rfl hpublish
        | _ => exact ⟨0, _, rfl⟩
      exact iff_of_true hanswered fun h => hpublish (Option.some.inj h.1)

end Retries

end FaultContainment.Control
