/-
The message codecs of the wire protocol, read against each other.

The encoders look at the texts, the command of a request and the size of the payload; the decoders also at the identities, the
confidence of a fault and the counts. So a message may be written that nobody reads. A decoder accepts the targets of an
envelope in any order, and a payload of any size; so a payload may be read that nobody writes. `Readable` and `Rewritable` are
what it takes beyond being written and being read.

- `inverse_iff`: the exact conditions, for every message type.
-/
import FaultContainment.Documents.Canonical
import FaultContainment.Protocol

namespace FaultContainment.Transport

open FaultContainment.Lib FaultContainment.Ids FaultContainment.Enums FaultContainment.Records
open FaultContainment.Lib.Codec FaultContainment.StateCodec FaultContainment.StateDocument FaultContainment.Protocol

/-! ## The eleven codecs -/

inductive MessageType where
  | hello | helloAck | workerEvidence | workerEvidenceAck | faultReport | actionDispatch | actionAck | actionResult
  | reject | controlRequest | controlResponse

/-- the messages of a type -/
def MessageType.Payload : MessageType → Type
  | .hello => HelloMessage
  | .helloAck => HelloAckMessage
  | .workerEvidence => WorkerEvidenceMessage
  | .workerEvidenceAck => WorkerEvidenceAck
  | .faultReport => FaultReportMessage
  | .actionDispatch => ContainmentAction
  | .actionAck => ActionAcknowledgment
  | .actionResult => ActionResult
  | .reject => RejectMessage
  | .controlRequest => ControlRequest
  | .controlResponse => ControlResponse

def encode : (k : MessageType) → k.Payload → Except Error Bytes
  | .hello => encodeHello
  | .helloAck => encodeHelloAck
  | .workerEvidence => encodeWorkerEvidence
  | .workerEvidenceAck => encodeWorkerEvidenceAck
  | .faultReport => encodeFaultReport
  | .actionDispatch => encodeActionDispatch
  | .actionAck => encodeActionAck
  | .actionResult => encodeActionResult
  | .reject => encodeReject
  | .controlRequest => encodeControlRequest
  | .controlResponse => encodeControlResponse

def decode : (k : MessageType) → Bytes → Except Error k.Payload
  | .hello => decodeHello
  | .helloAck => decodeHelloAck
  | .workerEvidence => decodeWorkerEvidence
  | .workerEvidenceAck => decodeWorkerEvidenceAck
  | .faultReport => decodeFaultReport
  | .actionDispatch => decodeActionDispatch
  | .actionAck => decodeActionAck
  | .actionResult => decodeActionResult
  | .reject => decodeReject
  | .controlRequest => decodeControlRequest
  | .controlResponse => decodeControlResponse

/-! ## What the other side insists on -/

/-- the decoder passes the identities, the confidence and the counts of the message -/
def Readable : (k : MessageType) → k.Payload → Prop
  | .hello, (m : HelloMessage) => m.worker.valid = true ∧ m.boot.valid = true
  | .workerEvidence, (m : WorkerEvidenceMessage) =>
    m.worker.valid = true ∧ m.boot.valid = true ∧ m.resource.valid = true
  | .faultReport, (m : FaultReportMessage) => m.evidence.id.valid = true ∧ m.evidence.confidencePermille.toNat ≤ 1000
  | .actionDispatch, (a : ContainmentAction) =>
    a.id.valid = true ∧ a.envelope.requiredResourceGenerations.size ≤ kMaxEnvelopeTargets ∧
      ∀ e ∈ a.envelope.requiredResourceGenerations.toList, e.1.valid = true
  | .actionAck, (m : ActionAcknowledgment) => m.action.valid = true
  | .actionResult, (m : ActionResult) => m.action.valid = true
  | .controlRequest, (m : ControlRequest) => m.arguments.length ≤ 1024
  | .controlResponse, (m : ControlResponse) => m.lines.length ≤ 2 ^ 20
  | .helloAck, _ | .workerEvidenceAck, _ | .reject, _ => True

/-- the payload of an action lists the targets of its envelope in strictly ascending order -/
def AscendingTargets (b : Bytes) : Prop := ((pair u32 (actionBy true)).dec b).isSome = true

/-- the payload keeps to the ceiling of the byte writer, and lists what is keyed in ascending order -/
def Rewritable : MessageType → Bytes → Prop
  | .actionDispatch, b => AscendingTargets b ∧ b.length ≤ kMaxDocumentBytes
  | _, b => b.length ≤ kMaxDocumentBytes

/-! ## One codec -/

section Codec

variable {α : Type} {stage subject : String} {fields : Codec α}

/-- a decoded payload of a canonical codec lacks nothing but its size -/
theorem encode_canonical_iff [Canonical fields] {m : α} {b : Bytes} (h : decodePayload stage fields b = .ok m) :
    encodePayload stage subject fields m = .ok b ↔ b.length ≤ kMaxDocumentBytes := by
  rw [encode_decode_iff fields h, decodePayload_ok.mp h]
  simp

end Codec

instance canonicalHelloFields : Canonical helloFields := by
  unfold helloFields
  infer_instance

instance canonicalHelloAckFields : Canonical helloAckFields := by
  unfold helloAckFields
  infer_instance

instance canonicalEvidenceFields : Canonical evidenceFields := by
  unfold evidenceFields
  infer_instance

instance canonicalEvidenceAckFields : Canonical evidenceAckFields := by
  unfold evidenceAckFields
  infer_instance

instance canonicalFaultReportFields : Canonical faultReportFields := by
  unfold faultReportFields
  infer_instance

instance canonicalAckFields : Canonical ackFields := by
  unfold ackFields
  infer_instance

instance canonicalResultFields : Canonical resultFields := by
  unfold resultFields
  infer_instance

instance canonicalRejectFields : Canonical rejectFields := by
  unfold rejectFields
  infer_instance

instance canonicalControlRequestFields : Canonical controlRequestFields := by
  unfold controlRequestFields
  infer_instance

instance canonicalControlResponseFields : Canonical controlResponseFields := by
  unfold controlResponseFields
  infer_instance

section Insists

theorem helloFields_insists (m : HelloMessage) :
    helloFields.sound m ∧ helloFields.counted m ↔ m.worker.valid = true ∧ m.boot.valid = true := by
  simp [helloFields]

theorem helloAckFields_insists (m : HelloAckMessage) : helloAckFields.sound m ∧ helloAckFields.counted m ↔ True := by
  simp [helloAckFields]

theorem evidenceFields_insists (m : WorkerEvidenceMessage) : evidenceFields.sound m ∧ evidenceFields.counted m ↔
    m.worker.valid = true ∧ m.boot.valid = true ∧ m.resource.valid = true := by
  simp [evidenceFields, and_assoc]

theorem evidenceAckFields_insists (m : WorkerEvidenceAck) :
    evidenceAckFields.sound m ∧ evidenceAckFields.counted m ↔ True := by
  simp [evidenceAckFields]

theorem faultReportFields_insists (m : FaultReportMessage) :
    faultReportFields.sound m ∧ faultReportFields.counted m ↔
      m.evidence.id.valid = true ∧ m.evidence.confidencePermille.toNat ≤ 1000 := by
  simp [faultReportFields, faultEvidence, and_comm]

theorem envelopeTargets_sound (t : OrderedMap ResourceId ResourceGeneration) :
    envelopeTargets.sound t ↔ ∀ e ∈ t.toList, e.1.valid = true := by
  simp [envelopeTargets, mapOf, pairs]

theorem envelopeTargets_counted (t : OrderedMap ResourceId ResourceGeneration) :
    envelopeTargets.counted t ↔ t.size ≤ kMaxEnvelopeTargets := by
  simp [envelopeTargets, mapOf, pairs]

theorem action_insists (a : ContainmentAction) : action.sound a ∧ action.counted a ↔
    a.id.valid = true ∧ a.envelope.requiredResourceGenerations.size ≤ kMaxEnvelopeTargets ∧
      ∀ e ∈ a.envelope.requiredResourceGenerations.toList, e.1.valid = true := by
  rw [← envelopeTargets_sound, ← envelopeTargets_counted]
  simp only [action, authorityEnvelope, check_sound, iso_sound, pair_sound, check_counted, iso_counted, pair_counted,
    ident_sound, coded_sound, str_sound, u64_sound, boolean_sound, ident_counted, coded_counted, str_counted,
    u64_counted, boolean_counted, true_and, and_true]
  tauto

theorem ackFields_insists (m : ActionAcknowledgment) :
    ackFields.sound m ∧ ackFields.counted m ↔ m.action.valid = true := by
  simp [ackFields]

theorem resultFields_insists (m : ActionResult) :
    resultFields.sound m ∧ resultFields.counted m ↔ m.action.valid = true := by
  simp [resultFields]

theorem rejectFields_insists (m : RejectMessage) : rejectFields.sound m ∧ rejectFields.counted m ↔ True := by
  simp [rejectFields]

theorem controlRequestFields_insists (m : ControlRequest) :
    controlRequestFields.sound m ∧ controlRequestFields.counted m ↔ m.arguments.length ≤ 1024 := by
  simp [controlRequestFields]

theorem controlResponseFields_insists (m : ControlResponse) :
    controlResponseFields.sound m ∧ controlResponseFields.counted m ↔ m.lines.length ≤ 2 ^ 20 := by
  simp [controlResponseFields]

end Insists

/-- what each decoder insists on -/
theorem readable_iff : (k : MessageType) → (m : k.Payload) → (b : Bytes) → encode k m = .ok b →
    (decode k b = .ok m ↔ Readable k m)
  | .hello, m, _, h => (decode_encode_iff h).trans (helloFields_insists m)
  | .helloAck, m, _, h => (decode_encode_iff h).trans (helloAckFields_insists m)
  | .workerEvidence, m, b, h =>
    (@decode_encode_iff _ _ "message" evidenceFields m b h).trans (evidenceFields_insists m)
  | .workerEvidenceAck, m, _, h => (decode_encode_iff h).trans (evidenceAckFields_insists m)
  | .faultReport, m, _, h => (decode_encode_iff h).trans (faultReportFields_insists m)
  | .actionDispatch, m, _, h => (decode_encode_iff h).trans (action_insists m)
  | .actionAck, m, _, h => (decode_encode_iff h).trans (ackFields_insists m)
  | .actionResult, m, _, h => (decode_encode_iff h).trans (resultFields_insists m)
  | .reject, m, _, h => (decode_encode_iff h).trans (rejectFields_insists m)
  | .controlRequest, m, _, h => (decode_encode_iff h).trans (controlRequestFields_insists m)
  | .controlResponse, m, _, h => (decode_encode_iff h).trans (controlResponseFields_insists m)

/-- what each encoder insists on -/
theorem rewritable_iff : (k : MessageType) → (m : k.Payload) → (b : Bytes) → decode k b = .ok m →
    (encode k m = .ok b ↔ Rewritable k b)
  | .hello, _, _, h => encode_canonical_iff h
  | .helloAck, _, _, h => encode_canonical_iff h
  | .workerEvidence, m, b, h => @encode_canonical_iff _ _ "message" evidenceFields _ m b h
  | .workerEvidenceAck, _, _, h => encode_canonical_iff h
  | .faultReport, _, _, h => encode_canonical_iff h
  | .actionDispatch, _, _, h => @encode_decode_iff _ _ _ action (actionBy true) narrowsAction _ _ h
  | .actionAck, _, _, h => encode_canonical_iff h
  | .actionResult, _, _, h => encode_canonical_iff h
  | .reject, _, _, h => encode_canonical_iff h
  | .controlRequest, _, _, h => encode_canonical_iff h
  | .controlResponse, _, _, h => encode_canonical_iff h

/-! ## The codecs against each other -/

/-- the message is read back from the payload it is written to -/
def ReadsBack (k : MessageType) (m : k.Payload) : Prop := ∀ b, encode k m = .ok b → decode k b = .ok m

/-- the payload is written again from the message it is read as -/
def WritesBack (k : MessageType) (b : Bytes) : Prop := ∀ m, decode k b = .ok m → encode k m = .ok b

/-- **Which messages and payloads survive the way there and back.** -/
theorem inverse_iff (k : MessageType) :
    (∀ m, ReadsBack k m ↔ ∀ b, encode k m = .ok b → Readable k m) ∧
      ∀ b, WritesBack k b ↔ ∀ m, decode k b = .ok m → Rewritable k b :=
  ⟨fun m => forall₂_congr fun b h => readable_iff k m b h, fun b => forall₂_congr fun m h => rewritable_iff k m b h⟩

/-- a fault report that leaves the identity of the fault to the engine -/
def unidentified : FaultReportMessage := { worker := ⟨1⟩, boot := ⟨2⟩, epoch := ⟨1⟩, evidence := { subject := ⟨3⟩ } }

/-- the dispatch of an action that depends on two resources -/
def dependent : ContainmentAction :=
  { id := ⟨1⟩
    envelope := { requiredResourceGenerations :=
      ((∅ : OrderedMap ResourceId ResourceGeneration).insert ⟨1⟩ ⟨1⟩).insert ⟨2⟩ ⟨1⟩ } }

/-- its payload with the two resources in the other order -/
def disordered : Bytes := (((encodeActionDispatch dependent).toOption.getD []).set 180 2).set 196 1

/-- The report is written, and nobody reads it; the action is read, and nobody writes it like that. -/
theorem inverse_fails : (¬ ∀ k m, ReadsBack k m) ∧ ¬ ∀ k b, WritesBack k b := by
  constructor
  · intro h
    have hwritten : (encodeFaultReport unidentified).toOption.any
        (fun b => (decodeFaultReport b).toOption.isNone) = true := by decide +kernel
    cases hb : encodeFaultReport unidentified with
    | error e => simp [hb, Except.toOption] at hwritten
    | ok b =>
      have hread : decodeFaultReport b = .ok unidentified := h .faultReport unidentified b hb
      simp [hb, hread, Except.toOption] at hwritten
  · intro h
    have hread : (decodeActionDispatch disordered).toOption.any
        (fun a => (encodeActionDispatch a).toOption != some disordered) = true := by decide +kernel
    cases ha : decodeActionDispatch disordered with
    | error e => simp [ha, Except.toOption] at hread
    | ok a =>
      have hwritten : encodeActionDispatch a = .ok disordered := h .actionDispatch disordered a ha
      simp [ha, hwritten, Except.toOption] at hread

end FaultContainment.Transport
