/-
Message payloads of the wire protocol (`protocol.cpp`).

A payload is the format version and the fields of its message, with nothing after them. The reader refuses a message that
names no worker, no resource or no action where one is required, and more elements than its ceilings allow; of all that the
writer looks at the texts, the command of a request and the size of the whole payload only.

- `decode_encode_iff`: which messages are read back from the payload they were written to.
- `encode_decode_iff`: which payloads are written again from the message they were read as.
-/
import FaultContainment.Lib.Canonical
import FaultContainment.StateCodec

namespace FaultContainment.Protocol

open FaultContainment.Lib FaultContainment.Ids FaultContainment.Enums FaultContainment.Records
open FaultContainment.Lib.Codec FaultContainment.StateCodec

abbrev kProtocolFormatVersion : UInt32 := 1

/-! ## Messages -/

structure HelloMessage where
  worker : WorkerId := {}
  boot : WorkerBootId := {}
  epoch : CoordinatorEpoch := {}
  sequence : EvidenceSequence := {}
  endpoint : Text := []

structure HelloAckMessage where
  accepted : Bool := false
  epoch : CoordinatorEpoch := {}
  incarnation : WorkerIncarnation := {}
  detail : Text := []

structure WorkerEvidenceMessage where
  worker : WorkerId := {}
  boot : WorkerBootId := {}
  epoch : CoordinatorEpoch := {}
  resource : ResourceId := {}
  generation : ResourceGeneration := {}
  freshness : EvidenceFreshness := .unknown
  sequence : EvidenceSequence := {}
  mechanism : ContainmentMechanism := .none

structure WorkerEvidenceAck where
  granted : Bool := false
  fenced : Bool := false
  generation : ResourceGeneration := {}
  detail : Text := []

structure FaultReportMessage where
  worker : WorkerId := {}
  boot : WorkerBootId := {}
  epoch : CoordinatorEpoch := {}
  evidence : FaultEvidence := {}

structure RejectMessage where
  code : ErrorCode := .internal
  detail : Text := []

structure ControlRequest where
  command : Text := []
  arguments : List Text := []

structure ControlResponse where
  ok : Bool := false
  code : ErrorCode := .ok
  message : Text := []
  lines : List Text := []

/-! ## Fields -/

theorem kMaxArguments_lt : 1024 < 256 ^ 4 := by decide
theorem kMaxLines_lt : 2 ^ 20 < 256 ^ 4 := by decide

/-- the fields of `encode_hello`, `decode_hello` -/
def helloFields : Codec HelloMessage :=
  ((pair ident <| pair ident <| pair ident <| pair ident <| str).iso
    (fun m => (m.worker, m.boot, m.epoch, m.sequence, m.endpoint))
    (fun (worker, boot, epoch, sequence, endpoint) =>
      { worker, boot, epoch, sequence, endpoint })
    (fun _ => rfl) (fun _ => rfl)).check fun m => m.worker.valid && m.boot.valid

/-- the fields of `encode_hello_ack`, `decode_hello_ack` -/
def helloAckFields : Codec HelloAckMessage :=
  (pair boolean <| pair ident <| pair ident <| str).iso
    (fun m => (m.accepted, m.epoch, m.incarnation, m.detail))
    (fun (accepted, epoch, incarnation, detail) =>
      { accepted, epoch, incarnation, detail })
    (fun _ => rfl) (fun _ => rfl)

/-- the fields of `encode_worker_evidence`, `decode_worker_evidence` -/
def evidenceFields : Codec WorkerEvidenceMessage :=
  ((pair ident <| pair ident <| pair ident <| pair ident <| pair ident <| pair coded <| pair ident <| coded).iso
    (fun m => (m.worker, m.boot, m.epoch, m.resource, m.generation, m.freshness, m.sequence, m.mechanism))
    (fun (worker, boot, epoch, resource, generation, freshness, sequence, mechanism) =>
      { worker, boot, epoch, resource, generation, freshness, sequence, mechanism })
    (fun _ => rfl) (fun _ => rfl)).check fun m => m.worker.valid && m.boot.valid && m.resource.valid

/-- the fields of `encode_worker_evidence_ack`, `decode_worker_evidence_ack` -/
def evidenceAckFields : Codec WorkerEvidenceAck :=
  (pair boolean <| pair boolean <| pair ident <| str).iso
    (fun m => (m.granted, m.fenced, m.generation, m.detail))
    (fun (granted, fenced, generation, detail) =>
      { granted, fenced, generation, detail })
    (fun _ => rfl) (fun _ => rfl)

/-- the fields of `encode_fault_report`, `decode_fault_report` -/
def faultReportFields : Codec FaultReportMessage :=
  (pair ident <| pair ident <| pair ident <| faultEvidence).iso
    (fun m => (m.worker, m.boot, m.epoch, m.evidence))
    (fun (worker, boot, epoch, evidence) =>
      { worker, boot, epoch, evidence })
    (fun _ => rfl) (fun _ => rfl)

/-- `write_ack_fields`, `read_ack_fields` -/
def ackFields : Codec ActionAcknowledgment :=
  ((pair ident <| pair ident <| pair ident <| pair ident <| pair ident <| pair boolean <| pair str <| str).iso
    (fun m => (m.action, m.actionGeneration, m.epoch, m.worker, m.workerBoot, m.accepted, m.executorToken, m.detail))
    (fun (action, actionGeneration, epoch, worker, workerBoot, accepted, executorToken, detail) =>
      { action, actionGeneration, epoch, worker, workerBoot, accepted, executorToken, detail })
    (fun _ => rfl) (fun _ => rfl)).check fun m => m.action.valid

/-- `write_result_fields`, `read_result_fields` -/
def resultFields : Codec ActionResult :=
  ((pair ident <| pair ident <| pair ident <| pair ident <| pair ident <| pair boolean <| pair coded <| str).iso
    (fun m => (m.action, m.actionGeneration, m.epoch, m.worker, m.workerBoot, m.success, m.mechanism, m.detail))
    (fun (action, actionGeneration, epoch, worker, workerBoot, success, mechanism, detail) =>
      { action, actionGeneration, epoch, worker, workerBoot, success, mechanism, detail })
    (fun _ => rfl) (fun _ => rfl)).check fun m => m.action.valid

/-- the fields of `encode_reject`, `decode_reject` -/
def rejectFields : Codec RejectMessage :=
  (pair coded <| str).iso (fun m => (m.code, m.detail)) (fun p => { code := p.1, detail := p.2 })
    (fun _ => rfl) (fun _ => rfl)

/-- the fields of `encode_control_request`, `decode_control_request`: neither side passes an empty command -/
def controlRequestFields : Codec ControlRequest :=
  ((pair str <| str.list 1024 kMaxArguments_lt).iso
    (fun m => (m.command, m.arguments)) (fun p => { command := p.1, arguments := p.2 })
    (fun _ => rfl) (fun _ => rfl)).guarded fun m => m.command != []

/-- the fields of `encode_control_response`, `decode_control_response` -/
def controlResponseFields : Codec ControlResponse :=
  (pair boolean <| pair coded <| pair str <| str.list (2 ^ 20) kMaxLines_lt).iso
    (fun m => (m.ok, m.code, m.message, m.lines))
    (fun (ok, code, message, lines) =>
      { ok, code, message, lines })
    (fun _ => rfl) (fun _ => rfl)

/-! ## Payloads -/

/-- `malformed` -/
def malformed (stage : String) : Error := makeError .frameCorrupt stage "malformed message payload"

section Payloads

variable {α : Type} (stage subject : String) (fields : Codec α)

/-- the common shape of the encoders: version, then fields, within the ceiling of the byte writer -/
def encodePayload (m : α) : Except Error Bytes :=
  match ((pair u32 fields).enc (kProtocolFormatVersion, m)).filter fun bytes => bytes.length ≤ kMaxDocumentBytes with
  | none => .error (makeError .invalidArgument stage (subject ++ " did not encode"))
  | some bytes => .ok bytes

/-- the common shape of the decoders: version, then fields, then the end -/
def decodePayload (payload : Bytes) : Except Error α :=
  match u32.dec payload with
  | none => .error (makeError .protocolVersionUnsupported stage "unsupported payload version")
  | some (version, rest) =>
    if version ≠ kProtocolFormatVersion then
      .error (makeError .protocolVersionUnsupported stage "unsupported payload version")
    else
      match fields.dec rest with
      | some (m, []) => .ok m
      | _ => .error (malformed stage)

variable {stage subject fields}

/-- a payload is the encoding of the version and the message, if that is short enough -/
theorem encodePayload_ok {m : α} {bytes : Bytes} : encodePayload stage subject fields m = .ok bytes ↔
    (pair u32 fields).enc (kProtocolFormatVersion, m) = some bytes ∧ bytes.length ≤ kMaxDocumentBytes := by
  have hfilter := Option.filter_eq_some_iff (o := (pair u32 fields).enc (kProtocolFormatVersion, m)) (a := bytes)
    (p := fun bytes => decide (bytes.length ≤ kMaxDocumentBytes))
  rw [decide_eq_true_iff] at hfilter
  rw [← hfilter]
  unfold encodePayload
  cases ((pair u32 fields).enc (kProtocolFormatVersion, m)).filter fun bytes => bytes.length ≤ kMaxDocumentBytes with
  | none => simp
  | some bytes' => simp

/-- a decoder reads the version and the message to the end -/
theorem decodePayload_ok {m : α} {bytes : Bytes} : decodePayload stage fields bytes = .ok m ↔
    (pair u32 fields).dec bytes = some ((kProtocolFormatVersion, m), []) := by
  unfold decodePayload
  cases hv : u32.dec bytes with
  | none => simp [Codec.pair, hv]
  | some p =>
    obtain ⟨version, rest⟩ := p
    simp only [Codec.pair, hv, Option.bind_some]
    by_cases hversion : version = kProtocolFormatVersion
    · rw [if_neg (not_not.mpr hversion)]
      cases hd : fields.dec rest with
      | none => simp
      | some q =>
        obtain ⟨m', tail⟩ := q
        cases tail with
        | nil => simp [hversion]
        | cons b tail => simp
    · rw [if_pos hversion]
      cases fields.dec rest with
      | none => simp
      | some q => simp [hversion]

/-- **Which messages are read back.** A payload that was written is decoded to its message exactly when the message is
sound and counted. -/
theorem decode_encode_iff {m : α} {bytes : Bytes} (h : encodePayload stage subject fields m = .ok bytes) :
    decodePayload stage fields bytes = .ok m ↔ fields.sound m ∧ fields.counted m := by
  obtain ⟨henc, -⟩ := encodePayload_ok.mp h
  rw [decodePayload_ok]
  constructor
  · intro hd
    obtain ⟨-, hs, hn⟩ := (pair u32 fields).of_dec _ _ _ hd
    exact ⟨hs.2, hn.2⟩
  · rintro ⟨hs, hn⟩
    exact (pair u32 fields).dec_enc_nil ⟨trivial, hs⟩ ⟨trivial, hn⟩ henc

/-- **Which payloads are written again.** The message that was read of a payload is encoded to the same bytes exactly when
a canonical reader accepts them too, and the ceiling of the writer does not forbid it. -/
theorem encode_decode_iff (narrow : Codec α) [Narrows narrow fields] {m : α} {bytes : Bytes}
    (h : decodePayload stage fields bytes = .ok m) : encodePayload stage subject fields m = .ok bytes ↔
      ((pair u32 narrow).dec bytes).isSome = true ∧ bytes.length ≤ kMaxDocumentBytes := by
  have hexact := (inferInstance : Narrows (pair u32 narrow) (pair u32 fields)).exact_iff (decodePayload_ok.mp h)
  rw [encodePayload_ok, hexact]

end Payloads

/-- `encode_hello` -/
def encodeHello : HelloMessage → Except Error Bytes := encodePayload "protocol.hello" "message" helloFields

/-- `decode_hello` -/
def decodeHello : Bytes → Except Error HelloMessage := decodePayload "protocol.hello" helloFields

/-- `encode_hello_ack` -/
def encodeHelloAck : HelloAckMessage → Except Error Bytes := encodePayload "protocol.hello_ack" "message" helloAckFields

/-- `decode_hello_ack` -/
def decodeHelloAck : Bytes → Except Error HelloAckMessage := decodePayload "protocol.hello_ack" helloAckFields

/-- `encode_worker_evidence` -/
def encodeWorkerEvidence : WorkerEvidenceMessage → Except Error Bytes :=
  encodePayload "protocol.evidence" "message" evidenceFields

/-- `decode_worker_evidence` -/
def decodeWorkerEvidence : Bytes → Except Error WorkerEvidenceMessage := decodePayload "protocol.evidence" evidenceFields

/-- `encode_worker_evidence_ack` -/
def encodeWorkerEvidenceAck : WorkerEvidenceAck → Except Error Bytes :=
  encodePayload "protocol.evidence_ack" "message" evidenceAckFields

/-- `decode_worker_evidence_ack` -/
def decodeWorkerEvidenceAck : Bytes → Except Error WorkerEvidenceAck :=
  decodePayload "protocol.evidence_ack" evidenceAckFields

/-- `encode_fault_report` -/
def encodeFaultReport : FaultReportMessage → Except Error Bytes :=
  encodePayload "protocol.fault_report" "message" faultReportFields

/-- `decode_fault_report` -/
def decodeFaultReport : Bytes → Except Error FaultReportMessage :=
  decodePayload "protocol.fault_report" faultReportFields

/-- `encode_action_dispatch`; the message is the action -/
def encodeActionDispatch : ContainmentAction → Except Error Bytes :=
  encodePayload "protocol.action_dispatch" "message" action

/-- `decode_action_dispatch` -/
def decodeActionDispatch : Bytes → Except Error ContainmentAction := decodePayload "protocol.action_dispatch" action

/-- `encode_action_ack` -/
def encodeActionAck : ActionAcknowledgment → Except Error Bytes :=
  encodePayload "protocol.action_ack" "message" ackFields

/-- `decode_action_ack` -/
def decodeActionAck : Bytes → Except Error ActionAcknowledgment := decodePayload "protocol.action_ack" ackFields

/-- `encode_action_result` -/
def encodeActionResult : ActionResult → Except Error Bytes :=
  encodePayload "protocol.action_result" "message" resultFields

/-- `decode_action_result` -/
def decodeActionResult : Bytes → Except Error ActionResult := decodePayload "protocol.action_result" resultFields

/-- `encode_reject` -/
def encodeReject : RejectMessage → Except Error Bytes := encodePayload "protocol.reject" "message" rejectFields

/-- `decode_reject` -/
def decodeReject : Bytes → Except Error RejectMessage := decodePayload "protocol.reject" rejectFields

/-- `encode_control_request` -/
def encodeControlRequest : ControlRequest → Except Error Bytes :=
  encodePayload "protocol.control_request" "request" controlRequestFields

/-- `decode_control_request` -/
def decodeControlRequest : Bytes → Except Error ControlRequest :=
  decodePayload "protocol.control_request" controlRequestFields

/-- `encode_control_response` -/
def encodeControlResponse : ControlResponse → Except Error Bytes :=
  encodePayload "protocol.control_response" "response" controlResponseFields

/-- `decode_control_response` -/
def decodeControlResponse : Bytes → Except Error ControlResponse :=
  decodePayload "protocol.control_response" controlResponseFields

end FaultContainment.Protocol
