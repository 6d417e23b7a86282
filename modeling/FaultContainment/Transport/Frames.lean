/-
Whole frames (`decode_frame` of `wire.cpp`): a buffer that is one frame and nothing else.

A buffer from which a frame is read holds every byte of it: each field of the header is compared with the one value it may
have or is given back, and so are both checksums. What a short burst of errors leaves is never such a buffer.

- `frame_inverse`: an encoded frame is decoded, and what is decoded is encoded to the very bytes it came from.
- `burst_detected`: a burst of at most 32 bits in the header or in the payload ends in a fault, whatever follows.
-/
import FaultContainment.Transport.Wire
import FaultContainment.Detail.Crc32c

namespace FaultContainment.Transport

open FaultContainment.Lib FaultContainment.Ids FaultContainment.Enums FaultContainment.Records FaultContainment.Digest

/-- `decode_frame` -/
def decodeFrame (buffer : Bytes) : Except Error Frame :=
  match decodeFrameStreaming buffer with
  | .needMore => .error (makeError .frameCorrupt "wire.decode" "truncated frame" (decimal buffer.length))
  | .fatal fault => .error { code := fault.error, message := fault.detail, stage := lit "wire.decode" }
  | .complete f consumed =>
    if consumed ≠ buffer.length then
      .error (makeError .frameCorrupt "wire.decode" "trailing bytes after frame" (decimal (buffer.length - consumed)))
    else .ok f

/-! ## What a buffer holds -/

/-- the checks of a header, and what they let through -/
structure Heads (buffer : Bytes) (kind : MessageKind) (payloadLen : ℕ) : Prop where
  version : field 4 2 buffer = kWireProtocolVersion
  kind : Coded.ofCode (field 6 2 buffer) = some kind
  length : field 8 4 buffer = payloadLen
  ceiling : payloadLen ≤ kMaxFramePayloadBytes
  sum : field 12 4 buffer = (crc32c (buffer.take 12)).toNat

theorem checkHeader_iff {buffer : Bytes} {kind : MessageKind} {payloadLen : ℕ} :
    checkHeader buffer = .ok (kind, payloadLen) ↔ Heads buffer kind payloadLen := by
  unfold checkHeader
  constructor
  · intro h
    by_cases hversion : field 4 2 buffer = kWireProtocolVersion
    swap
    · rw [if_pos hversion] at h
      cases h
    rw [if_neg (not_not.mpr hversion)] at h
    cases hkind : (Coded.ofCode (field 6 2 buffer) : Option MessageKind) with
    | none =>
      rw [hkind] at h
      cases h
    | some kind' =>
      rw [hkind] at h
      dsimp only at h
      by_cases hceiling : kMaxFramePayloadBytes < field 8 4 buffer
      · rw [if_pos hceiling] at h
        cases h
      rw [if_neg hceiling] at h
      by_cases hsum : field 12 4 buffer = (crc32c (buffer.take 12)).toNat
      swap
      · rw [if_pos hsum] at h
        cases h
      rw [if_neg (not_not.mpr hsum)] at h
      cases h
      exact ⟨hversion, hkind, rfl, not_lt.mp hceiling, hsum⟩
  · intro h
    rw [if_neg (not_not.mpr h.version), h.kind]
    dsimp only
    rw [h.length, if_neg (not_lt.mpr h.ceiling), if_neg (not_not.mpr h.sum)]

/-- a frame at the head of a buffer -/
structure Holds (buffer : Bytes) (f : Frame) : Prop where
  magic : field 0 4 buffer = kWireMagic
  version : f.version = kWireProtocolVersion
  head : Heads buffer f.kind f.payload.length
  whole : kWireHeaderBytes + f.payload.length ≤ buffer.length
  payload : payloadOf f.payload.length buffer = f.payload
  sum : field 16 4 buffer = (crc32c f.payload).toNat

/-- a frame is read only from a buffer that holds it -/
theorem decode_holds {buffer : Bytes} {f : Frame} {n : ℕ} (h : decodeFrameStreaming buffer = .complete f n) :
    Holds buffer f ∧ n = kWireHeaderBytes + f.payload.length := by
  unfold decodeFrameStreaming at h
  split_ifs at h with hmagic hshort
  have hwhole : kWireHeaderBytes ≤ buffer.length := not_lt.mp hshort
  cases hheader : checkHeader buffer with
  | error fault =>
    rw [hheader] at h
    cases h
  | ok p =>
    obtain ⟨kind, payloadLen⟩ := p
    rw [hheader] at h
    dsimp only at h
    split_ifs at h with hlen hsum
    have hhead := checkHeader_iff.mp hheader
    have hfits : kWireHeaderBytes + payloadLen ≤ buffer.length := not_lt.mp hlen
    have hpayload : (payloadOf payloadLen buffer).length = payloadLen := by
      rw [payloadOf, List.length_take, List.length_drop]
      omega
    cases h
    dsimp only
    refine ⟨⟨?_, hhead.version, ?_, ?_, ?_, ?_⟩, ?_⟩
    · by_contra hne
      exact hmagic ⟨le_trans (by decide) hwhole, hne⟩
    · dsimp only
      rwa [hpayload]
    · dsimp only
      rwa [hpayload]
    · dsimp only
      rw [hpayload]
    · exact (not_not.mp hsum).symm
    · rw [hpayload]

/-- an encoded frame is held by its bytes -/
theorem encode_holds {kind : MessageKind} {payload bytes : Bytes} (h : encodeFrame kind payload = .ok bytes) :
    Holds bytes ⟨kWireProtocolVersion, kind, payload⟩ ∧ bytes.length = kWireHeaderBytes + payload.length := by
  have hdecoded := decode_encode h []
  rw [List.append_nil] at hdecoded
  exact decode_holds hdecoded

/-! ## The inverse -/

/-- a field is written back as the bytes it was read from -/
theorem leBytes_field {offset width : ℕ} {buffer : Bytes} (h : offset + width ≤ buffer.length) :
    leBytes width (field offset width buffer) = (buffer.drop offset).take width := by
  have hlen : ((buffer.drop offset).take width).length = width := by
    rw [List.length_take, List.length_drop]
    omega
  calc leBytes width (field offset width buffer)
      = leBytes ((buffer.drop offset).take width).length (leNat ((buffer.drop offset).take width)) := by
        rw [hlen]
        rfl
    _ = (buffer.drop offset).take width := leBytes_leNat _

/-- a field and what follows it -/
theorem field_rest {offset width : ℕ} {buffer : Bytes} (h : offset + width ≤ buffer.length) :
    leBytes width (field offset width buffer) ++ buffer.drop (offset + width) = buffer.drop offset := by
  rw [leBytes_field h, ← List.drop_drop, List.take_append_drop]

/-- **What is decoded is encoded to the bytes it came from.** -/
theorem encode_of_holds {buffer : Bytes} {f : Frame} (h : Holds buffer f)
    (hlen : buffer.length = kWireHeaderBytes + f.payload.length) : encodeFrame f.kind f.payload = .ok buffer := by
  have hroom : ∀ {k : ℕ}, k ≤ kWireHeaderBytes → k ≤ buffer.length := fun hk => by omega
  have hhead : frameHead f.kind f.payload ++ buffer.drop 12 = buffer := by
    calc frameHead f.kind f.payload ++ buffer.drop 12
        = leBytes 4 (field 0 4 buffer) ++ (leBytes 2 (field 4 2 buffer) ++ (leBytes 2 (field 6 2 buffer) ++
            (leBytes 4 (field 8 4 buffer) ++ buffer.drop (8 + 4)))) := by
          rw [h.magic, h.head.version, h.head.length, ← Coded.code_of_ofCode h.head.kind, frameHead, List.append_assoc,
            List.append_assoc, List.append_assoc]
      _ = buffer.drop 0 := by
          rw [field_rest (hroom (by decide)), field_rest (hroom (by decide)), field_rest (hroom (by decide)),
            field_rest (hroom (by decide))]
      _ = buffer := List.drop_zero
  have hheadlen : (frameHead f.kind f.payload).length = 12 := by simp [frameHead]
  have htake : buffer.take 12 = frameHead f.kind f.payload := by
    rw [← hhead, List.take_left' hheadlen]
  have hpayload : buffer.drop kWireHeaderBytes = f.payload := by
    have hall := h.payload
    rwa [payloadOf, List.take_of_length_le (by rw [List.length_drop]; omega)] at hall
  unfold encodeFrame
  rw [if_neg (not_lt.mpr h.head.ceiling)]
  congr 1
  calc frameHead f.kind f.payload ++ leBytes 4 (crc32c (frameHead f.kind f.payload)).toNat ++
        leBytes 4 (crc32c f.payload).toNat ++ f.payload
      = frameHead f.kind f.payload ++ (leBytes 4 (field 12 4 buffer) ++ (leBytes 4 (field 16 4 buffer) ++
          buffer.drop (16 + 4))) := by
        rw [h.head.sum, h.sum, htake, List.append_assoc, List.append_assoc]
        exact congrArg _ (congrArg _ (congrArg _ hpayload.symm))
    _ = frameHead f.kind f.payload ++ buffer.drop 12 := by
        rw [field_rest (hroom (by decide)), field_rest (hroom (by decide))]
    _ = buffer := hhead

theorem decodeFrame_iff {buffer : Bytes} {f : Frame} :
    decodeFrame buffer = .ok f ↔ decodeFrameStreaming buffer = .complete f buffer.length := by
  unfold decodeFrame
  constructor
  · intro h
    split at h
    · cases h
    · cases h
    · next g consumed hdecoded =>
      split_ifs at h with hconsumed
      cases h
      rw [hdecoded, not_not.mp hconsumed]
  · intro h
    rw [h]
    exact if_neg (not_not.mpr rfl)

/-- **Frames are written and read by inverse functions.** Every kind and every payload up to the ceiling is encoded, and
decoding the bytes gives it back; a buffer that is decoded is what its kind and payload are encoded to, so that no two
buffers decode to the same frame; and bytes behind a frame are never ignored. -/
theorem frame_inverse :
    (∀ (kind : MessageKind) (payload : Bytes), payload.length ≤ kMaxFramePayloadBytes →
      ∃ bytes, encodeFrame kind payload = .ok bytes ∧ decodeFrame bytes = .ok ⟨kWireProtocolVersion, kind, payload⟩) ∧
    (∀ (buffer : Bytes) (f : Frame), decodeFrame buffer = .ok f →
      f.version = kWireProtocolVersion ∧ encodeFrame f.kind f.payload = .ok buffer) ∧
    (∀ (buffer other : Bytes) (f g : Frame), decodeFrame buffer = .ok f → decodeFrame other = .ok g →
      f.kind = g.kind → f.payload = g.payload → buffer = other) ∧
    ∀ (buffer more : Bytes) (f : Frame), decodeFrame buffer = .ok f → more ≠ [] →
      decodeFrame (buffer ++ more) = .error (makeError .frameCorrupt "wire.decode" "trailing bytes after frame"
        (decimal more.length)) := by
  have hback : ∀ (buffer : Bytes) (f : Frame), decodeFrame buffer = .ok f →
      f.version = kWireProtocolVersion ∧ encodeFrame f.kind f.payload = .ok buffer := by
    intro buffer f h
    obtain ⟨hholds, hlen⟩ := decode_holds (decodeFrame_iff.mp h)
    exact ⟨hholds.version, encode_of_holds hholds hlen⟩
  refine ⟨fun kind payload hmax => ?_, hback, fun buffer other f g hf hg hkind hpayload => ?_, fun buffer more f h hmore => ?_⟩
  · have hencoded : ∃ bytes, encodeFrame kind payload = .ok bytes := by
      unfold encodeFrame
      rw [if_neg (not_lt.mpr hmax)]
      exact ⟨_, rfl⟩
    obtain ⟨bytes, hbytes⟩ := hencoded
    refine ⟨bytes, hbytes, decodeFrame_iff.mpr ?_⟩
    have hdecoded := decode_encode hbytes []
    rwa [List.append_nil] at hdecoded
  · have hsame := (hback buffer f hf).2
    rw [hkind, hpayload, (hback other g hg).2] at hsame
    exact (Except.ok.inj hsame).symm
  · have hdecoded := decodeFrame_iff.mp h
    have hstable := decode_stable (by rw [hdecoded]; exact fun hneed => by cases hneed) more
    have hpos : 0 < more.length := List.length_pos_of_ne_nil hmore
    unfold decodeFrame
    rw [hstable, hdecoded]
    dsimp only
    rw [List.length_append, if_pos (by omega), Nat.add_sub_cancel_left]

/-! ## Bursts -/

/-- the header is checked before its length is used -/
theorem fatal_of_header {buffer : Bytes} (hwhole : kWireHeaderBytes ≤ buffer.length)
    (h : ∀ kind payloadLen, ¬ Heads buffer kind payloadLen) : ∃ fault, decodeFrameStreaming buffer = .fatal fault := by
  unfold decodeFrameStreaming
  by_cases hmagic : 4 ≤ buffer.length ∧ field 0 4 buffer ≠ kWireMagic
  · exact ⟨_, if_pos hmagic⟩
  rw [if_neg hmagic, if_neg (not_lt.mpr hwhole)]
  cases hheader : checkHeader buffer with
  | error fault => exact ⟨fault, rfl⟩
  | ok p => exact absurd (checkHeader_iff.mp hheader) (h p.1 p.2)

/-- a header whose covered bytes changed within 32 bits is not let through -/
theorem not_heads_of_burst {frame altered : Bytes} {f : Frame} {lo : ℕ} (hframe : Holds frame f)
    (hlen : altered.length = frame.length) (hne : altered ≠ frame)
    (hwindow : Crc.DifferWithin lo 32 (Crc.bits altered) (Crc.bits frame))
    (hrest : altered.drop 12 = frame.drop 12) (kind : MessageKind) (payloadLen : ℕ) : ¬ Heads altered kind payloadLen := by
  intro h
  have hcovered : altered.take 12 ≠ frame.take 12 := by
    intro hsame
    apply hne
    rw [← List.take_append_drop 12 altered, hsame, hrest, List.take_append_drop]
  have htake : Crc.DifferWithin lo 32 (Crc.bits (altered.take 12)) (Crc.bits (frame.take 12)) := by
    rw [Crc.bits_take, Crc.bits_take]
    exact hwindow.take _
  have hsum : field 12 4 altered = field 12 4 frame := by
    unfold field
    rw [hrest]
  rw [h.sum, hframe.head.sum] at hsum
  exact crc32c_ne (by rw [List.length_take, List.length_take, hlen]) hcovered htake (UInt32.toNat_inj.mp hsum)

/-- **Short bursts are detected.** An encoded frame that was altered within at most 32 bits, either of the header in front of
its checksum or of the payload, is reported as faulty whatever follows it, and no length but the encoded one gets past the
checks of the header. -/
theorem burst_detected {kind : MessageKind} {payload frame altered : Bytes} {lo n : ℕ}
    (hframe : encodeFrame kind payload = .ok frame) (hlen : altered.length = frame.length) (hne : altered ≠ frame)
    (hn : n ≤ 32) (hwindow : Crc.DifferWithin lo n (Crc.bits altered) (Crc.bits frame))
    (hinside : lo + n ≤ 8 * 12 ∨ 8 * kWireHeaderBytes ≤ lo) :
    (∃ fault, ∀ more, decodeFrameStreaming (altered ++ more) = .fatal fault) ∧
    ∀ (more : Bytes) (kind' : MessageKind) (payloadLen : ℕ),
      checkHeader (altered ++ more) = .ok (kind', payloadLen) → kind' = kind ∧ payloadLen = payload.length := by
  obtain ⟨hholds, hwhole⟩ := encode_holds hframe
  have hheader : kWireHeaderBytes ≤ altered.length := by
    rw [hlen, hwhole]
    exact Nat.le_add_right _ _
  have hmono := hwindow.mono hn
  -- the verdict about the buffer alone is enough
  suffices hsuff : (∃ fault, decodeFrameStreaming altered = .fatal fault) ∧
      ∀ kind' payloadLen, Heads altered kind' payloadLen → kind' = kind ∧ payloadLen = payload.length by
    obtain ⟨⟨fault, hfault⟩, hheads⟩ := hsuff
    refine ⟨⟨fault, fun more => ?_⟩, fun more kind' payloadLen h => ?_⟩
    · rw [decode_stable (by rw [hfault]; exact fun hneed => by cases hneed), hfault]
    · rw [checkHeader_append hheader] at h
      exact hheads _ _ (checkHeader_iff.mp h)
  rcases hinside with hhead | hpayload
  · have hrest : altered.drop 12 = frame.drop 12 := by
      apply Crc.bits_injective
      rw [Crc.bits_drop, Crc.bits_drop]
      exact hwindow.drop_eq hhead
    have hnone := not_heads_of_burst hholds hlen hne hmono hrest
    exact ⟨fatal_of_header hheader hnone, fun kind' payloadLen h => absurd h (hnone _ _)⟩
  · have hfirst : altered.take kWireHeaderBytes = frame.take kWireHeaderBytes := by
      apply Crc.bits_injective
      rw [Crc.bits_take, Crc.bits_take]
      exact hwindow.take_eq hpayload
    -- the header is the encoded one
    have hfield : ∀ offset width : ℕ, offset + width ≤ kWireHeaderBytes →
        field offset width altered = field offset width frame := by
      intro offset width hle
      rw [← List.take_append_drop kWireHeaderBytes altered, ← List.take_append_drop kWireHeaderBytes frame, hfirst,
        field_append, field_append]
      all_goals
        rwa [List.length_take, ← hlen, Nat.min_eq_left hheader]
    have hsame : checkHeader altered = checkHeader frame := by
      rw [← List.take_append_drop kWireHeaderBytes altered, ← List.take_append_drop kWireHeaderBytes frame, hfirst,
        checkHeader_append, checkHeader_append]
      all_goals
        rw [List.length_take, ← hlen, Nat.min_eq_left hheader]
    have hok : checkHeader altered = .ok (kind, payload.length) := hsame.trans (checkHeader_iff.mpr hholds.head)
    have hbehind : ∀ buffer : Bytes, buffer.length = frame.length →
        payloadOf payload.length buffer = buffer.drop kWireHeaderBytes := by
      intro buffer hbuffer
      rw [payloadOf, List.take_of_length_le (by rw [List.length_drop]; omega)]
    have hchanged : altered.drop kWireHeaderBytes ≠ frame.drop kWireHeaderBytes := by
      intro hdrop
      apply hne
      rw [← List.take_append_drop kWireHeaderBytes altered, hfirst, hdrop, List.take_append_drop]
    have hburst : Crc.DifferWithin (lo - 8 * kWireHeaderBytes) 32 (Crc.bits (altered.drop kWireHeaderBytes))
        (Crc.bits (frame.drop kWireHeaderBytes)) := by
      rw [Crc.bits_drop, Crc.bits_drop]
      exact hmono.drop hpayload
    have hsum : (crc32c (payloadOf payload.length altered)).toNat ≠ field 16 4 altered := by
      have hframesum : field 16 4 frame = (crc32c (payloadOf payload.length frame)).toNat := by
        rw [hholds.payload, hholds.sum]
      rw [hfield _ _ (by decide), hframesum, hbehind altered hlen, hbehind frame rfl]
      intro h
      exact crc32c_ne (by rw [List.length_drop, List.length_drop, hlen]) hchanged hburst (UInt32.toNat_inj.mp h)
    constructor
    · refine ⟨⟨.frameCorrupt, lit "payload checksum mismatch"⟩, ?_⟩
      have hmagic : ¬ (4 ≤ altered.length ∧ field 0 4 altered ≠ kWireMagic) := by
        intro h
        exact h.2 ((hfield _ _ (by decide)).trans hholds.magic)
      rw [decodeFrameStreaming, if_neg hmagic, if_neg (not_lt.mpr hheader), hok]
      dsimp only
      rw [if_neg (by rw [hlen, hwhole]; exact lt_irrefl _), if_pos hsum]
    · intro kind' payloadLen h
      have hpair := Except.ok.inj ((checkHeader_iff.mpr h).symm.trans hok)
      exact Prod.mk.inj hpair

/-- the frame of a heartbeat of three bytes -/
def heartbeatFrame : Bytes :=
  [0x46, 0x43, 0x46, 0x31, 1, 0, 3, 0, 3, 0, 0, 0, 0x15, 0xDC, 0x91, 0xDE, 0xB5, 0xD7, 0xE8, 0x64, 0x66, 0x63, 0x66]

/-- two bits of the length, and one bit of the payload -/
theorem burst_detected_heartbeat :
    (∃ fault, ∀ more, decodeFrameStreaming ((heartbeatFrame.set 8 7).set 10 0x10 ++ more) = .fatal fault) ∧
    ∃ fault, ∀ more, decodeFrameStreaming (heartbeatFrame.set 20 0x67 ++ more) = .fatal fault := by
  have hframe : encodeFrame .heartbeat [0x66, 0x63, 0x66] = .ok heartbeatFrame := by decide +kernel
  constructor
  · exact (@burst_detected _ _ _ ((heartbeatFrame.set 8 7).set 10 0x10) 64 32 hframe rfl (by decide) (by decide)
      (by decide +kernel) (by decide)).1
  · exact (@burst_detected _ _ _ (heartbeatFrame.set 20 0x67) 160 1 hframe rfl (by decide) (by decide)
      (by decide +kernel) (by decide)).1

end FaultContainment.Transport
