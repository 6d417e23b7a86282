/-
The connections of the coordinator (`handle_frame`, `serve`, `SocketExecutor` and `dispatch_and_settle` of `coordinator.cpp`).

Every connection has a thread that serves it, and the threads share the engine, its store and `peer_sockets`. A handler is a
program: each call of the engine is a section under the engine's lock and then a flush, record by record, without it; each
look at the epoch, at a snapshot or at `peer_sockets` is an access of its own, and so is each frame that is sent. Between two
accesses any other thread may run. What a control request does is a parameter, given its program in `Sessions.Operator`.

- `handleFrame`, `hangUp`: the handlers of a frame and of the end of a connection.
- `serve`: a connection, from one frame to the next.
-/
import FaultContainment.Lib.Threads
import FaultContainment.Answers
import FaultContainment.Dispatching.Authentic

namespace FaultContainment.Sessions

open FaultContainment.Lib FaultContainment.Ids FaultContainment.Enums FaultContainment.Records FaultContainment.Engine
open FaultContainment.Persistence FaultContainment.Protocol FaultContainment.Coordinator FaultContainment.Transport
open FaultContainment.OperatorReports FaultContainment.Lib.Threads
open FaultContainment.Answers (Socket Sent)
open FaultContainment.Dispatching (Session)

/-! ## What the connections share -/

/-- the engine with its store, `peer_sockets`, and what only statements look at: the frames the sockets took so far and every
entry `peer_sockets` ever had -/
structure Hub where
  sys : Sys
  peers : OrderedMap WorkerBootId Socket := ∅
  handed : Sent := []
  enrolments : List (WorkerBootId × Socket) := []

/-- the engine of a hub -/
abbrev Hub.impl (h : Hub) : Impl := h.sys.impl

/-- how a `send` of the socket ends -/
inductive Sending where
  | sent | closed | failed
  deriving DecidableEq

/-- what an access finds around it: the clock, and how a write or a `send` ends -/
structure Weather where
  clk : Clock := ticks
  write : WriteOutcome := .complete
  sending : Sending := .sent

/-- on whose behalf a section runs: the peer of the connection, the coordinator itself, or an operator with a control request -/
inductive Author where
  | peer | coordinator | operator
  deriving DecidableEq

/-- one access to what is shared; `locked` is a section under the engine's lock -/
inductive Deed where
  | locked (author : Author) (op : Op)
  | append (sequence : ℕ) (record : Bytes)
  | look
  | enrol (boot : WorkerBootId) (own : Socket)
  | dismiss (boot : WorkerBootId)
  | send (target : Socket) (frame : Bytes)

/-- a section of the engine; its records have their numbers, and are not written yet -/
def enter (op : Op) (clk : Clock) (i : Impl) : Impl := (op.run clk i).sealed i

def Deed.perform : Deed → Weather → Hub → Hub
  | .locked _ op, w, h => { h with sys := { h.sys with impl := enter op w.clk h.impl } }
  | .append sequence record, w, h =>
    { h with sys := { h.sys with store := (appendRecord h.sys.store sequence record w.write).1 } }
  | .look, _, h => h
  | .enrol boot own, _, h => { h with peers := h.peers.insert boot own, enrolments := (boot, own) :: h.enrolments }
  | .dismiss boot, _, h => { h with peers := h.peers.erase boot }
  | .send target frame, w, h => if w.sending = .sent then { h with handed := h.handed ++ [(target, frame)] } else h

/-! ## Calls of the engine -/

abbrev Program (α : Type) := Prog Deed Weather Hub α

section Calls

variable {α β : Type}

/-- a look at what is shared -/
def look (read : Hub → β) (next : β → Program α) : Program α := .act .look fun _ h => next (read h)

/-- `flush`: the records are appended one by one, and the first failure is noted in a section of its own -/
def flush : List (ℕ × Bytes) → (Except Error Unit → Program α) → Program α
  | [], next => next (.ok ())
  | (sequence, record) :: ws, next => .act (.append sequence record) fun w h =>
    match (appendRecord h.sys.store sequence record w.write).2 with
    | .ok () => flush ws next
    | .error e => .act (.locked .coordinator (.persistenceFault e)) fun _ _ => next (.error e)

/-- a section and its flush: what the flush returned, and what the section did -/
def enterAndFlush (author : Author) (op : Op) (body : Clock → Impl → Step β)
    (next : Except Error Unit → Except Error β → Program α) : Program α :=
  .act (.locked author op) fun w h =>
    let step := body w.clk h.impl
    flush (if step.flushed ∧ h.sys.attached then step.pending h.impl else []) fun flushed => next flushed step.result

/-- a call of a public operation; the error of the flush comes before the section's own result -/
def call (author : Author) (op : Op) (body : Clock → Impl → Step β) (next : Except Error β → Program α) : Program α :=
  enterAndFlush author op body fun flushed result =>
    next (match flushed with | .error e => .error e | .ok () => result)

/-! ## Frames that are sent -/

/-- what `send_frame` returns -/
def Sending.status : Sending → Except Error Unit
  | .sent => .ok ()
  | .closed => .error (makeError .executorUnavailable "net.send" "socket is closed")
  | .failed => .error (makeError .executorUnavailable "net.send" "send failed")

/-- `Socket::send_frame` -/
def sendFrame (target : Socket) (kind : MessageKind) (payload : Bytes) (next : Except Error Unit → Program α) : Program α :=
  match encodeFrame kind payload with
  | .error e => next (.error e)
  | .ok frame => .act (.send target frame) fun w _ => next w.sending.status

/-- `reject`; a text that is not encoded is not sent -/
def reject (own : Socket) (code : ErrorCode) (detail : Text) (next : Program α) : Program α :=
  match encodeReject { code := code, detail := detail } with
  | .ok payload => sendFrame own .reject payload fun _ => next
  | .error _ => next

/-- a reply, or a rejection when it does not encode -/
def reply (own : Socket) (kind : MessageKind) (encoded : Except Error Bytes) (next : Program α) : Program α :=
  match encoded with
  | .ok payload => sendFrame own kind payload fun _ => next
  | .error e => reject own e.code (errorText e) next

/-! ## The executor -/

/-- the incarnation no longer holds authority over the target it still owns -/
def deadIncarnation (a : ContainmentAction) (s : RuntimeSnapshot) : Bool :=
  (s.topology.resources.find a.envelope.target).any (fun r => r.ownerBoot = a.envelope.workerBoot) &&
    (s.workers.incarnations.find ⟨a.envelope.worker, a.envelope.workerBoot⟩).any fun r => ! holdsLiveAuthority r.state

/-- `SocketExecutor::dispatch` -/
def executorDispatch (a : ContainmentAction) (next : Except Error Text → Program α) : Program α :=
  if ¬ a.envelope.workerBoot.valid then next (.ok (lit "coordinator:logical:" ++ a.id.text))
  else look (fun h => h.peers.find a.envelope.workerBoot) fun
    | none => look (fun h => h.impl.state) fun snapshot =>
      if deadIncarnation a snapshot then next (.ok (lit "coordinator:dead-incarnation:" ++ a.id.text))
      else next (.error (makeError .executorUnavailable "coordinator.dispatch"
        "no live connection for the target worker incarnation" a.envelope.workerBoot.text))
    | some peer =>
      match encodeActionDispatch a with
      | .error e => next (.error e)
      | .ok payload => sendFrame peer .actionDispatch payload fun
        | .error e => next (.error e)
        | .ok () => next (.ok (lit "peer:" ++ a.envelope.workerBoot.text))

/-- the executor is handed one action after another, the engine unlocked -/
def attemptAll : List ContainmentAction → List Attempt → (List Attempt → Program α) → Program α
  | [], attempts, next => next attempts
  | a :: rest, attempts, next => executorDispatch a fun outcome => attemptAll rest (attempts ++ [(a, outcome)]) next

/-- `dispatch_containment` with the socket executor -/
def dispatchContainment (generation : ContainmentGeneration) (next : Except Error DispatchSummary → Program α) : Program α :=
  enterAndFlush .coordinator (.dispatchBegin generation true) (dispatchBegin · generation true) fun flushed first =>
    match first with
    | .error e => next (.error e)
    | .ok (toDispatch, summary) => attemptAll toDispatch [] fun attempts =>
      enterAndFlush .coordinator (.dispatchEnd attempts summary) (dispatchEnd · attempts summary) fun flushedEnd result =>
        next (match flushed with
          | .error e => .error e
          | .ok () => match flushedEnd with | .error e => .error e | .ok () => result)

/-! ## What the coordinator enforces itself -/

/-- the mechanism of an action the coordinator answers for, from the snapshot it took; `none` leaves it to the live peer -/
def enforcedMechanism (a : ContainmentAction) (s : RuntimeSnapshot) : Option ContainmentMechanism :=
  if a.envelope.workerBoot.valid then
    match s.workers.incarnations.find ⟨a.envelope.worker, a.envelope.workerBoot⟩ with
    | none => none
    | some r => if holdsLiveAuthority r.state then none else some .processContainment
  else some .logicalContainment

/-- the acknowledgment of the coordinator -/
def enforcementAck (id : ActionId) (a : ContainmentAction) (epoch : CoordinatorEpoch) : ActionAcknowledgment :=
  { action := id, actionGeneration := a.generation, epoch := epoch, accepted := true
    executorToken := lit "coordinator:enforcement", detail := lit "containment enforced by the coordinator" }

/-- the result of the coordinator -/
def enforcementResult (id : ActionId) (a : ContainmentAction) (mechanism : ContainmentMechanism) (epoch : CoordinatorEpoch) :
    ActionResult :=
  { action := id, actionGeneration := a.generation, epoch := epoch, success := true, mechanism := mechanism
    detail := lit (if mechanism = .processContainment then
      "the owning process was observed dead and its authority revoked"
      else "authority revoked and admission disabled by the coordinator") }

/-- the two reports of the coordinator on one action -/
def enforce (id : ActionId) (a : ContainmentAction) (mechanism : ContainmentMechanism) (next : Program α) : Program α :=
  look (fun h => h.impl.state.epoch) fun epoch =>
    call .coordinator (.recordActionAck (enforcementAck id a epoch)) (recordActionAck · (enforcementAck id a epoch)) fun _ =>
      look (fun h => h.impl.state.epoch) fun epoch =>
        call .coordinator (.recordActionResult (enforcementResult id a mechanism epoch))
          (recordActionResult · (enforcementResult id a mechanism epoch)) fun _ => next

/-- the loop of `dispatch_and_settle` over the dispatched actions, on one snapshot -/
def settle (s : RuntimeSnapshot) : List ActionId → Program α → Program α
  | [], next => next
  | id :: ids, next =>
    match s.actions.find id with
    | none => settle s ids next
    | some a =>
      match enforcedMechanism a s with
      | none => settle s ids next
      | some mechanism => enforce id a mechanism (settle s ids next)

/-- `dispatch_and_settle` -/
def dispatchAndSettle (generation : ContainmentGeneration) (next : Program α) : Program α :=
  dispatchContainment generation fun
    | .error _ => next
    | .ok summary => look (fun h => h.impl.state) fun s =>
      if s.containments.has generation then settle s summary.dispatched next else next

/-- `worker_authority_lost`, section by section -/
def workerAuthorityLost (author : Author) (worker : WorkerId) (boot : WorkerBootId) (kind : FaultKind) (detail : Text)
    (observationTimeMs : UInt64) (next : Except Error ContainmentRecord → Program α) : Program α :=
  call author (.authorityLost worker boot detail observationTimeMs) (authorityLost · worker boot detail observationTimeMs) fun
    | .error e => next (.error e)
    | .ok (.alreadyContained containment) => next (.ok containment)
    | .ok (.fenced subject generation) => look (fun h => h.impl.state.epoch) fun epoch =>
      let evidence := lossEvidence kind subject generation epoch observationTimeMs detail
      call author (.publishFault evidence) (publishFault · evidence) fun
        | .error e => next (.error e)
        | .ok fault =>
          call author (.noteAuthorityLoss ⟨worker, boot⟩ fault.evidence.id)
            (fun _ => noteAuthorityLoss ⟨worker, boot⟩ fault.evidence.id) fun _ =>
            call author (.authorizeContainment fault.evidence.id fault.evidence.generation)
              (authorizeContainment · fault.evidence.id fault.evidence.generation) next

end Calls

/-! ## The handlers -/

/-- what the handshake of a connection was about -/
def Session.handshake (session : Session) : Option WorkerBootId := if session.helloDone then some session.boot else none

/-- `HELLO` -/
def handleHello (own : Socket) (m : HelloMessage) (session : Session) : Program Session :=
  call .peer (.registerWorker m.worker m.boot m.endpoint m.sequence) (registerWorker · m.worker m.boot m.endpoint m.sequence) fun
    | .error e => reply own .helloAck (encodeHelloAck { detail := errorText e }) (.done session)
    | .ok record => look (fun h => h.impl.state.epoch) fun epoch =>
      .act (.enrol m.boot own) fun _ _ =>
        reply own .helloAck
          (encodeHelloAck { accepted := true, epoch := epoch, incarnation := record.incarnation, detail := lit "registered" })
          (.done { worker := m.worker, boot := m.boot, helloDone := true })

/-- the acknowledgment of evidence about a fenced resource -/
def fencedAck (published : Except Error ResourceRecord) : WorkerEvidenceAck :=
  { fenced := true
    generation := match published with | .ok stored => stored.generation | .error _ => {}
    detail := lit "resource is under containment; evidence recorded without granting authority" }

/-- the record evidence hands back to the engine: owned by the incarnation it names, and active -/
def claimed (m : WorkerEvidenceMessage) (r : ResourceRecord) : ResourceRecord :=
  { r with ownerWorker := m.worker, ownerBoot := m.boot, state := .active }

/-- `WORKER_EVIDENCE` -/
def handleEvidence (own : Socket) (m : WorkerEvidenceMessage) (session : Session) : Program Session :=
  let source := lit "worker " ++ m.boot.text
  look (fun h => h.impl.state.epoch) fun epoch => look (fun h => h.impl.state) fun snapshot =>
    match admitWorkerEvidence (Session.handshake session) m epoch snapshot with
    | .error (code, detail) => reject own code detail (.done session)
    | .ok r =>
      if r.quarantined ∨ isContained r.state then
        -- a fresh incarnation never inherits the authority of the one that was contained
        call .peer (.publishResourceEvidence m.resource {} m.freshness m.sequence m.mechanism source)
          (publishResourceEvidence · m.resource {} m.freshness m.sequence m.mechanism source) fun published =>
          match encodeWorkerEvidenceAck (fencedAck published) with
          | .ok payload => sendFrame own .workerEvidenceAck payload fun _ => .done session
          | .error _ => .done session
      else
        call .peer (.updateResource (claimed m r) r.generation) (updateResource · (claimed m r) r.generation) fun
          | .error e => reject own e.code (errorText e) (.done session)
          | .ok updated =>
            call .peer (.publishResourceEvidence m.resource updated.generation .fresh m.sequence m.mechanism source)
              (publishResourceEvidence · m.resource updated.generation .fresh m.sequence m.mechanism source) fun
              | .error e => reject own e.code (errorText e) (.done session)
              | .ok stored => reply own .workerEvidenceAck
                  (encodeWorkerEvidenceAck { granted := true, generation := stored.generation
                                             detail := lit "evidence accepted and authority granted" }) (.done session)

/-- the observation a fault report is published as: the reporter is the worker that sent it -/
def reportedEvidence (m : FaultReportMessage) : FaultEvidence :=
  { m.evidence with reporterKind := .worker, reporterWorker := m.worker, reporterBoot := m.boot }

/-- `publish_fault` with its `duplicate` flag -/
def publishFlagged (evidence : FaultEvidence) (clk : Clock) (i : Impl) : Step (FaultRecord × Bool) :=
  let step := publishFault clk evidence i
  { impl := step.impl, staged := step.staged, flushed := step.flushed
    result := step.result.map fun f => (f, isDuplicate evidence i) }

/-- `FAULT_REPORT` -/
def handleFaultReport (own : Socket) (m : FaultReportMessage) (session : Session) : Program Session :=
  if ¬ session.helloDone ∨ m.boot ≠ session.boot then
    reject own .staleWorkerBoot (lit "fault report from an unhandshaken incarnation") (.done session)
  else
    call .peer (.publishFault (reportedEvidence m)) (publishFlagged (reportedEvidence m)) fun
      | .error e => reject own e.code (errorText e) (.done session)
      | .ok (fault, duplicate) =>
        if ¬ duplicate ∧ isFaultCurrent fault.state then
          call .coordinator (.authorizeContainment fault.evidence.id fault.evidence.generation)
            (authorizeContainment · fault.evidence.id fault.evidence.generation) fun
            | .error _ => .done session
            | .ok containment => dispatchAndSettle containment.generation (.done session)
        else .done session

/-- `ACTION_ACK` -/
def handleActionAck (own : Socket) (ack : ActionAcknowledgment) (session : Session) : Program Session :=
  if ¬ session.helloDone then
    reject own .staleWorkerBoot (lit "acknowledgment from an unhandshaken connection") (.done session)
  else
    call .peer (.recordActionAck ack) (recordActionAck · ack) fun
      | .error e => reject own e.code (errorText e) (.done session)
      | .ok () => .done session

/-- `ACTION_RESULT` -/
def handleActionResult (own : Socket) (result : ActionResult) (session : Session) : Program Session :=
  if ¬ session.helloDone then
    reject own .staleWorkerBoot (lit "result from an unhandshaken connection") (.done session)
  else
    call .peer (.recordActionResult result) (recordActionResult · result) fun
      | .error e => reject own e.code (errorText e) (.done session)
      | .ok () => .done session

/-- a payload that decodes, or a rejection -/
def decoded {m : Type} (own : Socket) (session : Session) (handle : m → Session → Program Session) :
    Except Error m → Program Session
  | .error e => reject own e.code (errorText e) (.done session)
  | .ok m => handle m session

section Connection

-- what a control request does
variable (control : Socket → Bytes → Program Unit)

/-- `handle_frame` -/
def handleFrame (own : Socket) (f : Frame) (session : Session) : Program Session :=
  match f.kind with
  | .hello => decoded own session (handleHello own) (decodeHello f.payload)
  | .workerEvidence => decoded own session (handleEvidence own) (decodeWorkerEvidence f.payload)
  | .heartbeat => .done session
  | .faultReport => decoded own session (handleFaultReport own) (decodeFaultReport f.payload)
  | .actionAck => decoded own session (handleActionAck own) (decodeActionAck f.payload)
  | .actionResult => decoded own session (handleActionResult own) (decodeActionResult f.payload)
  | .controlRequest => (control own f.payload).bind fun _ => .done session
  | .helloAck | .workerEvidenceAck | .queryRequest | .queryResponse | .controlResponse | .shutdown =>
    reject own .frameCorrupt (lit "message kind is not valid in this direction") (.done session)
  | .reject | .actionDispatch =>
    reject own .frameCorrupt (lit "message kind is not valid from a peer") (.done session)

/-- what `serve` does once no frame can be received any more -/
def hangUp (session : Session) : Program Unit :=
  if session.helloDone then
    .act (.dismiss session.boot) fun _ _ =>
      workerAuthorityLost .coordinator session.worker session.boot .processDeath
        (lit "worker connection closed without graceful retirement") 0 fun
        | .error _ => .done ()
        | .ok containment => dispatchAndSettle containment.generation (.done ())
  else .done ()

/-- a connection between two frames -/
inductive Conn where
  | serving (session : Session)
  | closed

/-- what reaches a connection: a frame, or its end -/
inductive Request where
  | frame (f : Frame)
  | ending

/-- `serve`, one turn of it -/
def serve (own : Socket) : Request → Conn → Program Conn
  | .frame f, .serving session => (handleFrame control own f session).bind fun session => .done (.serving session)
  | .ending, .serving session => (hangUp session).bind fun _ => .done .closed
  | _, .closed => .done .closed

end Connection

/-- a coordinator that nobody has connected to yet -/
def idle (h : Hub) : Pool Socket Deed Weather Hub Conn := { shared := h, threads := fun _ => .done (.serving {}) }

/-- one move of the coordinator -/
abbrev Turn := Move Socket Weather Request

abbrev Turn.after (control : Socket → Bytes → Program Unit) : Turn → Pool Socket Deed Weather Hub Conn →
    Pool Socket Deed Weather Hub Conn := Move.after Deed.perform (serve control)

end FaultContainment.Sessions
