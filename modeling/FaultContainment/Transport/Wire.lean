/-
Framed wire protocol (`wire.cpp`) and the receive loop of a socket (`net.cpp`).

A frame is a header of twenty bytes, covered by a checksum but for its last four, and a payload with a checksum of its own.
`decodeFrameStreaming` reports a violation as soon as the bytes it sees show it: the magic from the fourth byte on,
everything else of the header once the header is whole, the payload once the payload is.

- `decode_encode`: an encoded frame in front of any bytes is decoded, and nothing after it is consumed.
- `fragmentation`: how a stream is cut does not change what a socket delivers of it.
-/
import FaultContainment.Lib.Streaming
import FaultContainment.Detail.Digest

namespace FaultContainment.Transport

open FaultContainment.Lib FaultContainment.Ids FaultContainment.Enums FaultContainment.Records FaultContainment.Digest

abbrev kWireMagic : ℕ := 0x31464346
abbrev kWireProtocolVersion : ℕ := 1
abbrev kWireHeaderBytes : ℕ := 20
abbrev kMaxFramePayloadBytes : ℕ := 1024 * 1024
abbrev kMaxConnectionBufferBytes : ℕ := 8 * 1024 * 1024
/-- the size of the buffer `receive_frame` hands to `recv` -/
abbrev kReceiveChunkBytes : ℕ := 64 * 1024

inductive MessageKind where
  | hello | helloAck | workerEvidenceAck | heartbeat | workerEvidence | faultReport | actionDispatch | actionAck
  | actionResult | queryRequest | queryResponse | controlRequest | controlResponse | shutdown | reject
  deriving DecidableEq, Repr

instance : Coded MessageKind where
  table := [(.hello, "HELLO"), (.helloAck, "HELLO_ACK"), (.workerEvidenceAck, "WORKER_EVIDENCE_ACK"),
    (.heartbeat, "HEARTBEAT"), (.workerEvidence, "WORKER_EVIDENCE"), (.faultReport, "FAULT_REPORT"),
    (.actionDispatch, "ACTION_DISPATCH"), (.actionAck, "ACTION_ACK"), (.actionResult, "ACTION_RESULT"),
    (.queryRequest, "QUERY_REQUEST"), (.queryResponse, "QUERY_RESPONSE"), (.controlRequest, "CONTROL_REQUEST"),
    (.controlResponse, "CONTROL_RESPONSE"), (.shutdown, "SHUTDOWN"), (.reject, "REJECT")]
  complete a := by cases a <;> decide
  small := by decide
  distinct := by decide

/-- a decoded frame -/
structure Frame where
  version : ℕ := 0
  kind : MessageKind := .reject
  payload : Bytes := []
  deriving DecidableEq

/-- what is wrong with a stream -/
structure FrameFault where
  error : ErrorCode
  detail : Text
  deriving DecidableEq

/-! ## Frames -/

/-- the first twelve bytes of a frame, which the header checksum covers -/
def frameHead (kind : MessageKind) (payload : Bytes) : Bytes :=
  leBytes 4 kWireMagic ++ leBytes 2 kWireProtocolVersion ++ leBytes 2 (Coded.code kind) ++ leBytes 4 payload.length

/-- `encode_frame` -/
def encodeFrame (kind : MessageKind) (payload : Bytes) : Except Error Bytes :=
  if kMaxFramePayloadBytes < payload.length then
    .error (makeError .frameTooLarge "wire.encode" "payload exceeds the hard frame ceiling" (decimal payload.length))
  else
    .ok (frameHead kind payload ++ leBytes 4 (crc32c (frameHead kind payload)).toNat ++
      leBytes 4 (crc32c payload).toNat ++ payload)

/-- the number in the bytes of a buffer from an offset on -/
def field (offset width : ℕ) (buffer : Bytes) : ℕ := leNat ((buffer.drop offset).take width)

/-- the checks of `decode_frame_streaming` on a whole header: the kind and the length of the payload -/
def checkHeader (buffer : Bytes) : Except FrameFault (MessageKind × ℕ) :=
  if field 4 2 buffer ≠ kWireProtocolVersion then
    .error ⟨.protocolVersionUnsupported, lit "unsupported protocol version " ++ decimal (field 4 2 buffer)⟩
  else
    match Coded.ofCode (field 6 2 buffer) with
    | none => .error ⟨.frameCorrupt, lit "unknown mandatory message type " ++ decimal (field 6 2 buffer)⟩
    | some kind =>
      if kMaxFramePayloadBytes < field 8 4 buffer then
        .error ⟨.frameTooLarge, lit "declared payload length " ++ decimal (field 8 4 buffer) ++ lit " exceeds ceiling"⟩
      else if field 12 4 buffer ≠ (crc32c (buffer.take 12)).toNat then
        .error ⟨.frameCorrupt, lit "header checksum mismatch"⟩
      else .ok (kind, field 8 4 buffer)

/-- the bytes behind the header -/
def payloadOf (payloadLen : ℕ) (buffer : Bytes) : Bytes := (buffer.drop kWireHeaderBytes).take payloadLen

/-- `decode_frame_streaming` -/
def decodeFrameStreaming (buffer : Bytes) : Verdict Frame FrameFault :=
  if 4 ≤ buffer.length ∧ field 0 4 buffer ≠ kWireMagic then .fatal ⟨.frameCorrupt, lit "bad frame magic"⟩
  else if buffer.length < kWireHeaderBytes then .needMore
  else
    match checkHeader buffer with
    | .error fault => .fatal fault
    | .ok (kind, payloadLen) =>
      if buffer.length < kWireHeaderBytes + payloadLen then .needMore
      else if (crc32c (payloadOf payloadLen buffer)).toNat ≠ field 16 4 buffer then
        .fatal ⟨.frameCorrupt, lit "payload checksum mismatch"⟩
      else .complete ⟨field 4 2 buffer, kind, payloadOf payloadLen buffer⟩ (kWireHeaderBytes + payloadLen)

/-! ## Verdicts -/

theorem field_append {offset width : ℕ} {buffer : Bytes} (h : offset + width ≤ buffer.length) (more : Bytes) :
    field offset width (buffer ++ more) = field offset width buffer := by
  rw [field, field, List.drop_append_of_le_length (by omega), List.take_append_of_le_length (by simp; omega)]

/-- the header is all that its checks look at -/
theorem checkHeader_append {buffer : Bytes} (h : kWireHeaderBytes ≤ buffer.length) (more : Bytes) :
    checkHeader (buffer ++ more) = checkHeader buffer := by
  have hheader : ∀ offset width : ℕ, offset + width ≤ kWireHeaderBytes →
      field offset width (buffer ++ more) = field offset width buffer := fun _ _ hle => field_append (hle.trans h) more
  have htake : (buffer ++ more).take 12 = buffer.take 12 :=
    List.take_append_of_le_length (le_trans (by decide) h)
  unfold checkHeader
  rw [hheader 4 _ (by decide), hheader 6 _ (by decide), hheader 8 _ (by decide), hheader 12 _ (by decide), htake]

theorem payloadOf_append {payloadLen : ℕ} {buffer : Bytes} (h : kWireHeaderBytes + payloadLen ≤ buffer.length)
    (more : Bytes) : payloadOf payloadLen (buffer ++ more) = payloadOf payloadLen buffer := by
  rw [payloadOf, payloadOf, List.drop_append_of_le_length (by omega), List.take_append_of_le_length (by simp; omega)]

theorem checkHeader_length {buffer : Bytes} {kind : MessageKind} {payloadLen : ℕ}
    (h : checkHeader buffer = .ok (kind, payloadLen)) : payloadLen ≤ kMaxFramePayloadBytes := by
  unfold checkHeader at h
  by_cases hversion : field 4 2 buffer ≠ kWireProtocolVersion
  · simp [hversion] at h
  rw [if_neg hversion] at h
  split at h
  · simp at h
  · split_ifs at h with hmax
    obtain ⟨-, rfl⟩ := by simpa using h
    exact not_lt.mp hmax

/-- a complete frame is at least a header and no more than the buffer -/
theorem decode_bounds {buffer : Bytes} {f : Frame} {n : ℕ} (h : decodeFrameStreaming buffer = .complete f n) :
    kWireHeaderBytes ≤ n ∧ n ≤ buffer.length := by
  unfold decodeFrameStreaming at h
  split_ifs at h
  split at h
  · simp at h
  · split_ifs at h with hlen
    obtain ⟨-, rfl⟩ := by simpa using h
    exact ⟨Nat.le_add_right _ _, not_lt.mp hlen⟩

/-- what is still needed is less than the largest frame -/
theorem decode_needMore {buffer : Bytes} (h : decodeFrameStreaming buffer = .needMore) :
    buffer.length < kWireHeaderBytes + kMaxFramePayloadBytes := by
  unfold decodeFrameStreaming at h
  split_ifs at h with _ hshort
  · exact lt_of_lt_of_le hshort (Nat.le_add_right _ _)
  · split at h
    · simp at h
    · next kind payloadLen hheader =>
      split_ifs at h with hlen
      exact lt_of_lt_of_le hlen (Nat.add_le_add_left (checkHeader_length hheader) _)

/-- **Verdicts survive more input.** -/
theorem decode_stable {buffer : Bytes} (h : decodeFrameStreaming buffer ≠ .needMore) (more : Bytes) :
    decodeFrameStreaming (buffer ++ more) = decodeFrameStreaming buffer := by
  unfold decodeFrameStreaming at h ⊢
  have hlonger : buffer.length ≤ (buffer ++ more).length := by
    rw [List.length_append]
    exact Nat.le_add_right _ _
  by_cases hmagic : 4 ≤ buffer.length ∧ field 0 4 buffer ≠ kWireMagic
  · -- the magic is looked at as soon as its four bytes are there
    have hsame : field 0 4 (buffer ++ more) = field 0 4 buffer := field_append hmagic.1 more
    rw [if_pos hmagic, if_pos ⟨hmagic.1.trans hlonger, hsame ▸ hmagic.2⟩]
  rw [if_neg hmagic] at h ⊢
  by_cases hshort : buffer.length < kWireHeaderBytes
  · exact absurd (if_pos hshort) h
  have hwhole : kWireHeaderBytes ≤ buffer.length := not_lt.mp hshort
  have hsame : field 0 4 (buffer ++ more) = field 0 4 buffer := field_append (le_trans (by decide) hwhole) more
  have hmagic' : ¬ (4 ≤ (buffer ++ more).length ∧ field 0 4 (buffer ++ more) ≠ kWireMagic) := by
    rintro ⟨-, hne⟩
    exact hmagic ⟨le_trans (by decide) hwhole, hsame ▸ hne⟩
  rw [if_neg hshort] at h
  rw [if_neg hshort, if_neg hmagic', if_neg (not_lt.mpr (hwhole.trans hlonger)), checkHeader_append hwhole]
  cases hheader : checkHeader buffer with
  | error fault => rfl
  | ok p =>
    obtain ⟨kind, payloadLen⟩ := p
    rw [hheader] at h
    dsimp only at h ⊢
    by_cases hlen : buffer.length < kWireHeaderBytes + payloadLen
    · exact absurd (if_pos hlen) h
    have hfits := not_lt.mp hlen
    rw [if_neg hlen, if_neg (not_lt.mpr (hfits.trans hlonger)), payloadOf_append hfits,
      @field_append 16 _ _ (le_trans (by decide) hwhole), @field_append 4 _ _ (le_trans (by decide) hwhole)]

/-! ## Encoded frames -/

theorem field_zero {width : ℕ} {x : Bytes} (h : x.length = width) (rest : Bytes) : field 0 width (x ++ rest) = leNat x := by
  rw [field, List.drop_zero, List.take_left' h]

theorem field_skip (n : ℕ) {k : ℕ} {x : Bytes} (h : x.length = k) (width : ℕ) (rest : Bytes) :
    field (k + n) width (x ++ rest) = field n width rest := by
  rw [field, field, ← List.drop_drop, List.drop_left' h]

/-- **An encoded frame is decoded**, whatever follows it. -/
theorem decode_encode {kind : MessageKind} {payload bytes : Bytes} (h : encodeFrame kind payload = .ok bytes)
    (more : Bytes) : decodeFrameStreaming (bytes ++ more) = .complete ⟨kWireProtocolVersion, kind, payload⟩ bytes.length := by
  unfold encodeFrame at h
  split_ifs at h with hmax
  obtain rfl := Except.ok.inj h
  set head := frameHead kind payload with hhead
  have hheadlen : head.length = 12 := by simp [hhead, frameHead]
  have hcode : Coded.code kind < 256 ^ 2 := lt_trans (Coded.code_lt kind) (by decide)
  have hsize : payload.length < 256 ^ 4 := lt_of_le_of_lt (not_lt.mp hmax) (by decide)
  -- the fields of the bytes, one after the other
  set bytes := head ++ leBytes 4 (crc32c head).toNat ++ leBytes 4 (crc32c payload).toNat ++ payload ++ more with hbytes
  have hhfield : ∀ offset width, offset + width ≤ 12 → field offset width bytes = field offset width head := by
    intro offset width hle
    rw [hbytes, List.append_assoc, List.append_assoc, List.append_assoc]
    exact field_append (hheadlen ▸ hle) _
  have hparts : head = leBytes 4 kWireMagic ++ (leBytes 2 kWireProtocolVersion ++ (leBytes 2 (Coded.code kind) ++
      (leBytes 4 payload.length ++ []))) := by
    simp [hhead, frameHead]
  have hmagic : field 0 4 bytes = kWireMagic := by
    rw [hhfield _ _ (by decide), hparts, field_zero (leBytes_length _ _)]
    exact leNat_leBytes_of_lt (by decide)
  have hversion : field 4 2 bytes = kWireProtocolVersion := by
    rw [hhfield _ _ (by decide), hparts, field_skip 0 (leBytes_length _ _), field_zero (leBytes_length _ _)]
    exact leNat_leBytes_of_lt (by decide)
  have hkind : field 6 2 bytes = Coded.code kind := by
    rw [hhfield _ _ (by decide), hparts, field_skip 2 (leBytes_length 4 _), field_skip 0 (leBytes_length _ _),
      field_zero (leBytes_length _ _)]
    exact leNat_leBytes_of_lt hcode
  have hlength : field 8 4 bytes = payload.length := by
    rw [hhfield _ _ (by decide), hparts, field_skip 4 (leBytes_length 4 _), field_skip 2 (leBytes_length 2 _),
      field_skip 0 (leBytes_length _ _), field_zero (leBytes_length _ _)]
    exact leNat_leBytes_of_lt hsize
  have hheadsum : field 12 4 bytes = (crc32c head).toNat := by
    rw [hbytes, List.append_assoc, List.append_assoc, List.append_assoc, field_skip 0 hheadlen,
      field_zero (leBytes_length _ _)]
    exact leNat_leBytes_of_lt (UInt32.toNat_lt _)
  have hsum : field 16 4 bytes = (crc32c payload).toNat := by
    rw [hbytes, List.append_assoc, List.append_assoc, List.append_assoc, field_skip 4 hheadlen,
      field_skip 0 (leBytes_length 4 _), field_zero (leBytes_length _ _)]
    exact leNat_leBytes_of_lt (UInt32.toNat_lt _)
  have htake : bytes.take 12 = head := by
    rw [hbytes, List.append_assoc, List.append_assoc, List.append_assoc, List.take_left' hheadlen]
  have hpayload : payloadOf payload.length bytes = payload := by
    have hheader : (head ++ leBytes 4 (crc32c head).toNat ++ leBytes 4 (crc32c payload).toNat).length = kWireHeaderBytes := by
      simp [hheadlen]
    rw [payloadOf, hbytes, List.append_assoc _ payload more, List.drop_left' hheader, List.take_left]
  have htotal : (head ++ leBytes 4 (crc32c head).toNat ++ leBytes 4 (crc32c payload).toNat ++ payload).length =
      kWireHeaderBytes + payload.length := by
    simp only [List.length_append, leBytes_length, hheadlen]
  have hlen : kWireHeaderBytes + payload.length ≤ bytes.length := by
    rw [hbytes, List.length_append, htotal]
    exact Nat.le_add_right _ _
  have hheader : checkHeader bytes = .ok (kind, payload.length) := by
    rw [checkHeader, hversion, hkind, hlength, hheadsum, htake, Coded.ofCode_code, if_neg (not_not.mpr rfl)]
    dsimp only
    rw [if_neg hmax, if_neg (not_not.mpr rfl)]
  have hwhole : ¬ bytes.length < kWireHeaderBytes := not_lt.mpr (le_trans (Nat.le_add_right _ _) hlen)
  rw [decodeFrameStreaming, hmagic, if_neg (fun h => h.2 rfl), if_neg hwhole, hheader]
  dsimp only
  rw [if_neg (not_lt.mpr hlen), hpayload, hsum, if_neg (not_not.mpr rfl), hversion, htotal]

/-! ## Sockets -/

/-- the decoder of a connection -/
def wire : StreamDecoder UInt8 Frame FrameFault where
  decode := decodeFrameStreaming
  header := kWireHeaderBytes
  pending := kWireHeaderBytes + kMaxFramePayloadBytes
  header_pos := by decide
  complete_bounds := decode_bounds
  needMore_short := decode_needMore
  stable := decode_stable

/-- what `recv` returned: some bytes, no more than it was given room for -/
structure Chunk where
  bytes : Bytes
  nonempty : bytes ≠ []
  fits : bytes.length ≤ kReceiveChunkBytes

/-- `receive_frame`: decode the residual bytes, and receive until they tell; the peer closes after the last chunk -/
def receiveFrame (residual : Bytes) (incoming : List Chunk) : Received Frame FrameFault × Bytes × List Bytes :=
  wire.receive kMaxConnectionBufferBytes residual (incoming.map Chunk.bytes)

/-- the frames a socket delivers of the chunks it receives, and how it ends -/
def receiveFrames (incoming : List Chunk) : List Frame × Ending UInt8 FrameFault :=
  wire.receiveAll kMaxConnectionBufferBytes [] (incoming.map Chunk.bytes)

/-- the bytes of a stream that was cut into chunks -/
def streamOf (incoming : List Chunk) : Bytes := (incoming.map Chunk.bytes).flatten

/-- **Frames survive fragmentation.** However a stream was cut into chunks, a socket delivers the frames that decoding the
whole stream delivers, and ends with the same fault or the same incomplete rest; more bytes never change a verdict; a
complete frame consumes at least its header; and no call of the receive loop meets the ceiling of its buffer. -/
theorem fragmentation :
    (∀ incoming : List Chunk, receiveFrames incoming = wire.decodeAll (streamOf incoming)) ∧
    (∀ buffer more : Bytes, decodeFrameStreaming buffer ≠ .needMore →
      decodeFrameStreaming (buffer ++ more) = decodeFrameStreaming buffer) ∧
    (∀ (buffer : Bytes) (f : Frame) (n : ℕ), decodeFrameStreaming buffer = .complete f n → kWireHeaderBytes ≤ n) ∧
    ∀ (residual : Bytes) (incoming : List Chunk), (receiveFrame residual incoming).1 ≠ .overflow := by
  have hroom : wire.pending + kReceiveChunkBytes ≤ kMaxConnectionBufferBytes + 1 := by decide
  have hfits : ∀ incoming : List Chunk, ∀ c ∈ incoming.map Chunk.bytes, c.length ≤ kReceiveChunkBytes := by
    intro incoming c hc
    obtain ⟨chunk, -, rfl⟩ := List.mem_map.mp hc
    exact chunk.fits
  refine ⟨fun incoming => ?_, fun buffer more h => decode_stable h more, fun _ _ _ h => (decode_bounds h).1, ?_⟩
  · exact wire.receiveAll_eq hroom [] _ (hfits incoming)
  · intro residual incoming
    unfold receiveFrame
    rcases wire.receive_spec hroom residual (hfits incoming) with ⟨a, r, cs, hr, -⟩ | ⟨e, r, cs, hr, -⟩ | ⟨r, cs, hr, -⟩
    · rw [hr]
      simp
    · rw [hr]
      simp
    · rw [hr]
      simp

/-- a message as a sender hands it over -/
abbrev Message := MessageKind × Bytes

/-- **Messages arrive.** A stream of encoded messages is delivered message by message, and nothing is left over. -/
theorem receiveFrames_messages {messages : List (Message × Bytes)}
    (hencoded : ∀ m ∈ messages, encodeFrame m.1.1 m.1.2 = .ok m.2) {incoming : List Chunk}
    (hstream : streamOf incoming = (messages.map Prod.snd).flatten) :
    receiveFrames incoming = (messages.map fun m => ⟨kWireProtocolVersion, m.1.1, m.1.2⟩, .incomplete []) := by
  have hdecoded : wire.decodeAll (messages.map Prod.snd).flatten =
      (messages.map fun m => ⟨kWireProtocolVersion, m.1.1, m.1.2⟩, .incomplete []) := by
    clear hstream
    induction messages with
    | nil => exact wire.decodeAll_needMore rfl
    | cons m messages ih =>
      obtain ⟨hm, hrest⟩ := List.forall_mem_cons.mp hencoded
      have hfirst : wire.decode m.2 = .complete ⟨kWireProtocolVersion, m.1.1, m.1.2⟩ m.2.length := by
        have := decode_encode hm []
        rwa [List.append_nil] at this
      rw [List.map_cons, List.flatten_cons, wire.decodeAll_complete hfirst, List.drop_length, List.nil_append, ih hrest,
        List.map_cons]
  have hroom : wire.pending + kReceiveChunkBytes ≤ kMaxConnectionBufferBytes + 1 := by decide
  rw [← hdecoded, ← hstream]
  refine wire.receiveAll_eq hroom [] _ fun c hc => ?_
  obtain ⟨chunk, -, rfl⟩ := List.mem_map.mp hc
  exact chunk.fits

end FaultContainment.Transport
