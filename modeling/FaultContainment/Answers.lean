/-
The answer to a control request (`handle_frame` of a `CONTROL_REQUEST`).

The handler decodes the request, executes it and hands the response to `send_frame`. A response that does not encode is replaced
by a rejection; a response that encodes and exceeds the ceiling of a frame is dropped, since nobody looks at what `send_frame`
returns. What a command reports grows with the state for eight of them only; the other responses are short whatever the state.

- `sendResponse_cases`: which responses are sent as one frame, and read by the client.
- `briefLines_run`: the commands that list nothing have short responses.
- `answered_iff`: when a request is answered with exactly one frame.
- `unpolled_run`: a connection that never says hello is never among the polled.
- `answered_fails`: `history` after a few registrations with long names is not answered.
-/
import FaultContainment.Control
import FaultContainment.IdentityText
import FaultContainment.Transport.Frames
import FaultContainment.Transport.Messages
import FaultContainment.Verdict

namespace FaultContainment.Answers

open FaultContainment.Lib FaultContainment.Ids FaultContainment.Enums FaultContainment.Records FaultContainment.Engine
open FaultContainment.Lib.Codec FaultContainment.StateCodec FaultContainment.Utf8
open FaultContainment.Protocol FaultContainment.Coordinator FaultContainment.OperatorReports FaultContainment.Control
open FaultContainment.Transport

/-! ## The handler -/

/-- a connection -/
abbrev Socket := ℕ

/-- `Coordinator::Impl`: the engine with its store, the connections that completed a handshake, whether a shutdown was asked
for -/
structure Service where
  sys : Sys
  peers : OrderedMap WorkerBootId Socket := ∅
  shutdownRequested : Bool := false

/-- the frames that are handed to the connections -/
abbrev Sent := List (Socket × Bytes)

/-- `Socket::send_frame`; a frame that is not encoded is not sent -/
def sendFrame (socket : Socket) (kind : MessageKind) (payload : Bytes) : Sent :=
  match encodeFrame kind payload with
  | .ok bytes => [(socket, bytes)]
  | .error _ => []

/-- `reject`; a text that is not encoded is not sent -/
def reject (socket : Socket) (code : ErrorCode) (detail : Text) : Sent :=
  match encodeReject { code := code, detail := detail } with
  | .ok payload => sendFrame socket .reject payload
  | .error _ => []

/-- the end of the handler: the response, or a rejection when it does not encode; nobody looks at what `send_frame` returns -/
def sendResponse (socket : Socket) (response : ControlResponse) : Sent :=
  match encodeControlResponse response with
  | .ok payload => sendFrame socket .controlResponse payload
  | .error e => reject socket e.code (errorText e)

/-- `Coordinator::Impl::execute`, and the frames it sends itself; it always returns a response. `accepts` says which connections
take a frame -/
def execute (w : Surroundings) (accepts : Socket → Bool) (fuel : ℕ) (request : ControlRequest) (n : Service) :
    Option (Service × ControlResponse × Sent) :=
  if request.command = lit "shutdown" then some ({ n with shutdownRequested := true }, shutdownResponse, [])
  else if request.command = lit "poll-workers" then
    let polls := n.peers.vals.flatMap fun peer => sendFrame peer .queryRequest []
    let polled := (polls.filter fun frame => accepts frame.1).length
    some (n, { ok := true, lines := [lit "polled=" ++ decimal polled] }, polls)
  else (executeEngineControl w fuel request n.sys).map fun answer => ({ n with sys := answer.1 }, answer.2, [])

/-- `handle_frame`, a `CONTROL_REQUEST` -/
def handleControlRequest (own : Socket) (w : Surroundings) (accepts : Socket → Bool) (fuel : ℕ) (payload : Bytes) (n : Service) :
    Option (Service × Sent) :=
  match decodeControlRequest payload with
  | .error e => some (n, reject own e.code (errorText e))
  | .ok request => (execute w accepts fuel request n).map fun answer =>
      (answer.1, answer.2.2 ++ sendResponse own answer.2.1)

/-! ## What counts as an answer -/

/-- the client reads a response or a rejection -/
def Legible (bytes : Bytes) : Prop :=
  ∃ f, decodeFrame bytes = .ok f ∧ (f.kind = .controlResponse ∧ (∃ m, decodeControlResponse f.payload = .ok m) ∨
    f.kind = .reject ∧ ∃ m, decodeReject f.payload = .ok m)

/-- the frames are one legible frame to the connection, and what they are to others -/
def OneAnswer (own : Socket) (frames : Sent) : Prop := ∃ bytes, frames.filter (·.1 = own) = [(own, bytes)] ∧ Legible bytes

/-- the handler returns, and has answered once -/
def Answered (own : Socket) (w : Surroundings) (accepts : Socket → Bool) (payload : Bytes) (n : Service) : Prop :=
  ∃ fuel n' frames, handleControlRequest own w accepts fuel payload n = some (n', frames) ∧ OneAnswer own frames

/-! ## Sizes -/

/-- the texts of a response are such as the writer takes -/
def Textual (r : ControlResponse) : Prop := ∀ t ∈ r.message :: r.lines, isValidUtf8 t = true ∧ t.length ≤ kMaxStringBytes

/-- the bytes of a response -/
def size (r : ControlResponse) : ℕ := 15 + r.message.length + (r.lines.map fun line => 4 + line.length).sum

/-- a response that encodes, and does not fit into a frame -/
def Oversized (r : ControlResponse) : Prop :=
  Textual r ∧ kMaxFramePayloadBytes < size r ∧ size r ≤ kMaxDocumentBytes

theorem kMaxReject_le : 10 + kMaxStringBytes ≤ kMaxFramePayloadBytes := by
  norm_num [kMaxStringBytes, kMaxFramePayloadBytes]

theorem kMaxFrame_le : kMaxFramePayloadBytes ≤ kMaxDocumentBytes := by
  norm_num [kMaxFramePayloadBytes, kMaxDocumentBytes]

theorem isValidUtf8_errorText {e : Error} (hstage : isValidUtf8 e.stage = true) (hcontext : isValidUtf8 e.context = true)
    (hmessage : isValidUtf8 e.message = true) : isValidUtf8 (errorText e) = true := by
  unfold errorText
  refine isValidUtf8_append (isValidUtf8_append (isValidUtf8_append ?_ (isValidUtf8_name _)) ?_) ?_
  · split_ifs
    · rfl
    · exact isValidUtf8_append hstage (isValidUtf8_lit _)
  · split_ifs
    · rfl
    · exact isValidUtf8_append (isValidUtf8_lit _) hcontext
  · split_ifs
    · rfl
    · exact isValidUtf8_append (isValidUtf8_lit _) hmessage

/-- the errors of the codecs are such as a rejection carries -/
theorem isValidUtf8_makeError (code : ErrorCode) (stage message : String) :
    isValidUtf8 (errorText (makeError code stage message)) = true :=
  isValidUtf8_errorText (isValidUtf8_lit _) rfl (isValidUtf8_lit _)

theorem short_text {t : Text} (h : t.length ≤ 200) : t.length ≤ kMaxStringBytes := by
  have hmax : kMaxStringBytes = 65536 := rfl
  omega

theorem encodePayload_error {α : Type} {stage subject : String} {fields : Codec α} {m : α} {e : Error}
    (h : encodePayload stage subject fields m = .error e) :
    e = makeError .invalidArgument stage (subject ++ " did not encode") := by
  unfold encodePayload at h
  split at h
  · exact (Except.error.inj h).symm
  · cases h

theorem decodePayload_error {α : Type} {stage : String} {fields : Codec α} {bytes : Bytes} {e : Error}
    (h : decodePayload stage fields bytes = .error e) :
    e = makeError .protocolVersionUnsupported stage "unsupported payload version" ∨
      e = makeError .frameCorrupt stage "malformed message payload" := by
  unfold decodePayload at h
  split at h
  · exact .inl (Except.error.inj h).symm
  · split_ifs at h
    · exact .inl (Except.error.inj h).symm
    · split at h
      · cases h
      · exact .inr (Except.error.inj h).symm

theorem measures_str : str.Measures fun t => 4 + t.length := (measures_blob _ _).guarded _

theorem measures_coded {α : Type} [DecidableEq α] [Coded α] : (coded (α := α)).Measures fun _ => 2 :=
  (measures_word 2 _ _ _ _).through _ _ _ _

theorem fields_size {r : ControlResponse} {bytes : Bytes}
    (h : (pair u32 controlResponseFields).enc (kProtocolFormatVersion, r) = some bytes) : bytes.length = size r := by
  have hmeasure : (pair u32 controlResponseFields).Measures fun p =>
      4 + (1 + (2 + ((4 + p.2.message.length) + (4 + (p.2.lines.map fun t => 4 + t.length).sum)))) :=
    (measures_word 4 _ _ _ _).pair ((Measures.pair ((measures_word 1 _ _ _ _).through _ _ _ _)
      (measures_coded.pair (measures_str.pair (measures_str.list _ _)))).iso _ _ _ _)
  rw [hmeasure _ _ h, size]
  dsimp only
  omega

theorem encode_size {r : ControlResponse} {bytes : Bytes} (h : encodeControlResponse r = .ok bytes) :
    bytes.length = size r := fields_size (encodePayload_ok.mp h).1

theorem lines_le_size (r : ControlResponse) : 4 * r.lines.length ≤ size r := by
  have hsum : ∀ ls : List Text, 4 * ls.length ≤ (ls.map fun line => 4 + line.length).sum := by
    intro ls
    induction ls with
    | nil => exact Nat.zero_le _
    | cons l ls ih =>
      rw [List.map_cons, List.sum_cons, List.length_cons]
      omega
  have hlines := hsum r.lines
  rw [size]
  omega

/-- which responses encode -/
theorem encodes_iff (r : ControlResponse) :
    (∃ bytes, encodeControlResponse r = .ok bytes) ↔ Textual r ∧ size r ≤ kMaxDocumentBytes := by
  have hfields : (∃ bytes, (pair u32 controlResponseFields).enc (kProtocolFormatVersion, r) = some bytes) ↔ Textual r := by
    rw [(pair u32 controlResponseFields).enc_iff]
    simp only [controlResponseFields, Textual, pair_clean, iso_clean, pair_fits, iso_fits, u32_clean, u32_fits,
      boolean_clean, boolean_fits, coded_clean, coded_fits, str_clean, str_fits, list_clean, list_fits,
      List.forall_mem_cons, forall_and]
    tauto
  constructor
  · rintro ⟨bytes, h⟩
    have hle := (encodePayload_ok.mp h).2
    exact ⟨hfields.mp ⟨bytes, (encodePayload_ok.mp h).1⟩, by rwa [encode_size h] at hle⟩
  · rintro ⟨htexts, hsize⟩
    obtain ⟨bytes, henc⟩ := hfields.mpr htexts
    refine ⟨bytes, encodePayload_ok.mpr ⟨henc, ?_⟩⟩
    rwa [fields_size henc]

/-! ## One frame -/

/-- a payload within the ceiling is sent, and read by the other side -/
theorem sendFrame_reads (socket : Socket) (kind : MessageKind) {payload : Bytes} (h : payload.length ≤ kMaxFramePayloadBytes) :
    ∃ bytes, sendFrame socket kind payload = [(socket, bytes)] ∧
      decodeFrame bytes = .ok ⟨kWireProtocolVersion, kind, payload⟩ := by
  obtain ⟨bytes, hencode⟩ : ∃ bytes, encodeFrame kind payload = .ok bytes := ⟨_, if_neg (Nat.not_lt.mpr h)⟩
  have hdecoded := decode_encode hencode []
  rw [List.append_nil] at hdecoded
  refine ⟨bytes, ?_, decodeFrame_iff.mpr hdecoded⟩
  unfold sendFrame
  rw [hencode]

theorem sendFrame_large (socket : Socket) (kind : MessageKind) {payload : Bytes} (h : kMaxFramePayloadBytes < payload.length) :
    sendFrame socket kind payload = [] := by
  unfold sendFrame encodeFrame
  rw [if_pos h]

/-- a rejection with a short text is sent, and read as one -/
theorem reject_legible (socket : Socket) (code : ErrorCode) {detail : Text} (htext : isValidUtf8 detail = true)
    (hshort : detail.length ≤ kMaxStringBytes) : ∃ bytes, reject socket code detail = [(socket, bytes)] ∧ Legible bytes := by
  obtain ⟨payload, henc⟩ : ∃ payload, (pair u32 rejectFields).enc (kProtocolFormatVersion, ⟨code, detail⟩) = some payload := by
    rw [(pair u32 rejectFields).enc_iff]
    simp [rejectFields, htext, hshort]
  have hmeasure : (pair u32 rejectFields).Measures fun p => 4 + (2 + (4 + p.2.detail.length)) :=
    (measures_word 4 _ _ _ _).pair ((measures_coded.pair measures_str).iso _ _ _ _)
  have hlength : payload.length ≤ 10 + kMaxStringBytes := by
    rw [hmeasure _ _ henc]
    dsimp only
    omega
  have hencode : encodeReject ⟨code, detail⟩ = .ok payload :=
    encodePayload_ok.mpr ⟨henc, hlength.trans (kMaxReject_le.trans kMaxFrame_le)⟩
  have hdecode : decodeReject payload = .ok ⟨code, detail⟩ := (decode_encode_iff hencode).mpr (by simp [rejectFields])
  obtain ⟨bytes, hsent, hread⟩ := sendFrame_reads socket .reject (hlength.trans kMaxReject_le)
  refine ⟨bytes, ?_, _, hread, .inr ⟨rfl, _, hdecode⟩⟩
  unfold reject
  rw [hencode]
  exact hsent

/-- **The response.** One legible frame goes out, unless the response encodes and does not fit: then nothing does. -/
theorem sendResponse_cases (socket : Socket) (r : ControlResponse) :
    (Oversized r ∧ sendResponse socket r = []) ∨
      (¬ Oversized r ∧ ∃ bytes, sendResponse socket r = [(socket, bytes)] ∧ Legible bytes) := by
  unfold sendResponse
  cases hencode : encodeControlResponse r with
  | error e =>
    have hrefused : ¬ (Textual r ∧ size r ≤ kMaxDocumentBytes) := fun h => by
      obtain ⟨bytes, hbytes⟩ := (encodes_iff r).mpr h
      rw [hencode] at hbytes
      cases hbytes
    refine .inr ⟨fun h => hrefused ⟨h.1, h.2.2⟩, ?_⟩
    rw [encodePayload_error hencode]
    exact reject_legible socket _ (isValidUtf8_makeError _ _ _) (short_text (by decide))
  | ok payload =>
    obtain ⟨htexts, hdocument⟩ := (encodes_iff r).mp ⟨payload, hencode⟩
    have hlength := encode_size hencode
    by_cases hfits : payload.length ≤ kMaxFramePayloadBytes
    · refine .inr ⟨fun h => absurd h.2.1 (by omega), ?_⟩
      obtain ⟨bytes, hsent, hread⟩ := sendFrame_reads socket .controlResponse hfits
      have hcount := lines_le_size r
      have hdecode : decodeControlResponse payload = .ok r := by
        refine (decode_encode_iff hencode).mpr ((controlResponseFields_insists r).mpr ?_)
        have hframe : kMaxFramePayloadBytes = 2 ^ 20 := rfl
        omega
      exact ⟨bytes, hsent, _, hread, .inl ⟨rfl, _, hdecode⟩⟩
    · exact .inl ⟨⟨htexts, by omega, hdocument⟩, sendFrame_large socket _ (by omega)⟩

/-! ## Short reports -/

/-- few lines, and not all of them long -/
def BriefLines (lines : List Text) : Prop :=
  lines.length ≤ 32 ∧ (lines.filter fun line => 1024 < line.length).length ≤ 14

/-- so few lines that all may be long -/
theorem briefLines_of_few {lines : List Text} (h : Nat.ble lines.length 14 = true) : BriefLines lines := by
  have hle := Nat.le_of_ble_eq_true h
  exact ⟨by omega, (List.length_filter_le _ _).trans hle⟩

/-- a short line in front takes no place among the long ones -/
theorem filter_short {line : Text} (h : line.length ≤ 1024) (lines : List Text) :
    ((line :: lines).filter fun line => 1024 < line.length) = lines.filter fun line => 1024 < line.length :=
  List.filter_cons_of_neg (by simpa using h)

/-- a short report fits whatever its lines say -/
theorem BriefLines.fits {r : ControlResponse} (h : BriefLines r.lines) : ¬ Oversized r := by
  rintro ⟨htexts, hlarge, -⟩
  have hsum : ∀ ls : List Text, (∀ l ∈ ls, l.length ≤ kMaxStringBytes) → (ls.map fun line => 4 + line.length).sum ≤
      (ls.filter fun line => 1024 < line.length).length * (4 + kMaxStringBytes) + ls.length * 1028 := by
    intro ls hls
    induction ls with
    | nil => exact Nat.zero_le _
    | cons l ls ih =>
      have ih := ih fun t ht => hls t (List.mem_cons_of_mem _ ht)
      have hl := hls l List.mem_cons_self
      rw [List.map_cons, List.sum_cons, List.length_cons]
      by_cases hlong : 1024 < l.length
      · rw [List.filter_cons_of_pos (by simpa using hlong), List.length_cons, Nat.succ_mul, Nat.succ_mul]
        omega
      · rw [filter_short (by omega), Nat.succ_mul]
        omega
  have hlines := hsum r.lines fun l hl => (htexts l (List.mem_cons_of_mem _ hl)).2
  have hmessage := (htexts r.message List.mem_cons_self).2
  have hmany := Nat.mul_le_mul_right (4 + kMaxStringBytes) h.2
  have hfew := Nat.mul_le_mul_right 1028 h.1
  have hframe : kMaxFramePayloadBytes = 1048576 := rfl
  have hstring : kMaxStringBytes = 65536 := rfl
  rw [size] at hlarge
  rw [hstring] at hlines hmessage hmany
  omega

theorem briefLines_failure (code : ErrorCode) (message : Text) : BriefLines (failure code message).lines :=
  briefLines_of_few rfl

theorem briefLines_reply {α : Type} {lines : α → List Text} {result : Except Error α}
    (h : ∀ a, result = .ok a → BriefLines (lines a)) : BriefLines (reply lines result).lines := by
  cases result with
  | ok a => exact h a rfl
  | error e => exact briefLines_failure _ _

section Shapes

variable {α β γ : Type} {w : Surroundings} {arguments : Arguments β} {lines : α → List Text} {s : Sys}

theorem briefLines_look {query : β → Impl → Except Error α} (h : ∀ a, BriefLines (lines a)) :
    BriefLines (look w arguments query lines s).2.lines := by
  unfold look
  cases arguments with
  | error e => exact briefLines_failure _ _
  | ok b => exact briefLines_reply fun a _ => h a

/-- what a call returns is what its section returned -/
theorem call_ok {n : ℕ} {op : Clock → Impl → Step α} {a : α} (h : (w.call n op s).2 = .ok a) :
    (op (w.clk n) (w.met n s).impl).result = .ok a := by
  unfold Surroundings.call at h
  rcases Rejections.perform_cases (w.io n) (op (w.clk n) (w.met n s).impl) (w.met n s) with ⟨e, he, -⟩ | ⟨hresult, -⟩
  · rw [he] at h
    cases h
  · rwa [hresult] at h

theorem briefLines_once {op : β → Clock → Impl → Step α}
    (h : ∀ b clk i a, (op b clk i).result = .ok a → BriefLines (lines a)) :
    BriefLines (once w arguments op lines s).2.lines := by
  unfold once
  cases arguments with
  | error e => exact briefLines_failure _ _
  | ok b => exact briefLines_reply fun a ha => h b _ _ a (call_ok ha)

theorem briefLines_lookThenCall {query : β → Impl → Except ControlResponse γ} {op : γ → Clock → Impl → Step α}
    (hquery : ∀ b i r, query b i = .error r → BriefLines r.lines) (h : ∀ a, BriefLines (lines a)) :
    BriefLines (lookThenCall w arguments query op lines s).2.lines := by
  unfold lookThenCall
  cases arguments with
  | error e => exact briefLines_failure _ _
  | ok b =>
    dsimp only
    cases hfound : query b (w.met 0 s).impl with
    | error r => exact hquery _ _ _ hfound
    | ok c => exact briefLines_reply fun a _ => h a

end Shapes

/-- an identity is written on at most 64 bytes -/
theorem length_text_le {t : IdTag} (i : Id t) : i.text.length ≤ 64 := by
  have hname : t.name.length ≤ 32 := by
    cases t <;> decide
  have hvalue : (if i.valid then decimal i.value.toNat else lit "invalid").length ≤ 20 := by
    split_ifs
    · exact length_decimal_le 19 _ (lt_trans i.value.toNat_lt (by decide))
    · decide
  have hcolon : (lit ":").length = 1 := by decide
  unfold Id.text
  rw [List.length_append, List.length_append, hcolon]
  omega

/-- a line that ends in an identity is short -/
theorem short_id {t : IdTag} (i : Id t) {label : Text} (h : label.length ≤ 64) : (label ++ i.text).length ≤ 1024 := by
  have hid := length_text_le i
  rw [List.length_append]
  omega

theorem short_flag (b : Bool) {label : Text} (h : label.length ≤ 64) : (label ++ flagText b).length ≤ 1024 := by
  have hflag : (flagText b).length = 1 := by
    cases b <;> decide
  rw [List.length_append]
  omega

theorem filter_cons_le (p : Text → Bool) (line : Text) (lines : List Text) :
    ((line :: lines).filter p).length ≤ (lines.filter p).length + 1 := by
  rw [List.filter_cons]
  split_ifs
  · exact le_refl _
  · exact Nat.le_add_right _ _

theorem briefLines_status (status : SystemStatus) (h : status.notes.length ≤ 2) : BriefLines (statusLines status) := by
  unfold statusLines
  simp only [List.cons_append, List.nil_append]
  constructor
  · simp only [List.length_cons, List.length_map]
    omega
  · rw [filter_short (short_id _ (by decide)), filter_short (short_id _ (by decide)), filter_short (short_id _ (by decide)),
      filter_short (short_id _ (by decide)), filter_short (short_id _ (by decide)), filter_short (short_id _ (by decide))]
    refine (List.length_filter_le _ _).trans ?_
    simp only [List.length_cons, List.length_map]
    omega

theorem briefLines_verification (v : ContainmentVerification) (h : v.findings.length ≤ 9) :
    BriefLines (verificationLines v) := by
  unfold verificationLines
  simp only [List.cons_append, List.nil_append]
  constructor
  · simp only [List.length_cons, List.length_map]
    omega
  · refine (filter_cons_le _ _ _).trans (Nat.succ_le_succ (m := 13) ?_)
    refine (filter_cons_le _ _ _).trans (Nat.succ_le_succ (m := 12) ?_)
    refine (filter_cons_le _ _ _).trans (Nat.succ_le_succ (m := 11) ?_)
    rw [filter_short (short_flag _ (by decide)), filter_short (short_flag _ (by decide)),
      filter_short (short_flag _ (by decide)), filter_short (short_flag _ (by decide))]
    refine (List.length_filter_le _ _).trans ?_
    simp only [List.length_cons, List.length_map]
    omega

theorem briefLines_release (a : ReleaseAssessment) (h : a.criteria.length ≤ 11) : BriefLines (releaseLines a) := by
  unfold releaseLines
  simp only [List.cons_append, List.nil_append]
  constructor
  · simp only [List.length_cons, List.length_map]
    omega
  · refine (filter_cons_le _ _ _).trans (Nat.succ_le_succ (m := 13) ?_)
    rw [filter_short (short_flag _ (by decide))]
    refine (List.length_filter_le _ _).trans ?_
    simp only [List.length_cons, List.length_map]
    omega

theorem notes_length_le (i : Impl) : (querySystemStatus i).notes.length ≤ 2 := by
  unfold querySystemStatus
  dsimp only
  split_ifs <;> simp

theorem findings_length {clk : Clock} {g : ContainmentGeneration} {i : Impl} {v : ContainmentVerification}
    (h : (verifyContainment clk g i).result = .ok v) : v.findings.length ≤ 9 := by
  obtain ⟨record, -, -, rfl⟩ := Verdict.verifyContainment_result.mp h
  exact le_refl 9

/-- judging adds at most one finding for each criterion -/
theorem judgeCriteria_length (cs : List Criterion) (a : ReleaseAssessment) :
    (judgeCriteria cs a).criteria.length ≤ a.criteria.length + cs.length := by
  induction cs generalizing a with
  | nil => exact le_refl _
  | cons c cs ih =>
    unfold judgeCriteria
    dsimp only
    split_ifs
    · refine (ih _).trans ?_
      simp only [List.length_append, List.length_cons, List.length_nil]
      omega
    · simp only [List.length_append, List.length_cons, List.length_nil]
      omega

theorem assessRelease_length (s : RuntimeSnapshot) (request : ReleaseRequest) :
    (assessRelease s request).criteria.length ≤ 11 := by
  unfold assessRelease
  dsimp only
  split
  · exact judgeCriteria_length _ _
  · exact (by decide : 2 ≤ 11)

theorem criteria_length {clk : Clock} {request : ReleaseRequest} {i : Impl} {a : ReleaseAssessment}
    (h : (authorizeRelease clk request i).result = .ok a) : a.criteria.length ≤ 11 := by
  have hassessed : a.criteria = (assessRelease i.state request).criteria := by
    unfold authorizeRelease at h
    dsimp only at h
    split_ifs at h
    · split at h
      · cases h
      · rw [← Except.ok.inj h]
    · rw [← Except.ok.inj h]
  rw [hassessed]
  exact assessRelease_length _ _

/-! ## The commands with a short answer -/

theorem briefLines_setResourceOwner (w : Surroundings) (args : List Text) (s : Sys) :
    BriefLines (setResourceOwnerCommand w args s).2.lines := by
  unfold setResourceOwnerCommand
  cases hargs : ownerArguments args with
  | error response =>
    have hfailure : ∃ code message, response = failure code message := by
      unfold ownerArguments at hargs
      split at hargs
      · split at hargs
        · cases hargs
        · exact ⟨_, _, (Except.error.inj hargs).symm⟩
      · exact ⟨_, _, (Except.error.inj hargs).symm⟩
    obtain ⟨code, message, rfl⟩ := hfailure
    exact briefLines_failure code message
  | ok arguments =>
    refine briefLines_lookThenCall (fun id i r hr => ?_) fun _ => briefLines_of_few rfl
    unfold resourceToOwn at hr
    split at hr
    · cases hr
    · rw [← Except.error.inj hr]
      exact briefLines_failure _ _

theorem briefLines_publishFault {w : Surroundings} {fuel : ℕ} {args : List Text} {s : Sys} {answer : Sys × ControlResponse}
    (h : publishFaultCommand w fuel args s = some answer) : BriefLines answer.2.lines := by
  unfold publishFaultCommand at h
  cases hargs : faultArguments args with
  | error response =>
    have hfailure : ∃ code message, response = failure code message := by
      unfold faultArguments at hargs
      split at hargs
      · split at hargs
        · split at hargs
          · cases hargs
          · exact ⟨_, _, (Except.error.inj hargs).symm⟩
        · exact ⟨_, _, (Except.error.inj hargs).symm⟩
      · exact ⟨_, _, (Except.error.inj hargs).symm⟩
    obtain ⟨code, message, rfl⟩ := hfailure
    rw [hargs] at h
    obtain rfl := Option.some.inj h
    exact briefLines_failure code message
  | ok fault =>
    rw [hargs] at h
    obtain ⟨⟨s', e | published⟩, -, rfl⟩ := Option.map_eq_some_iff.mp h
    · exact briefLines_failure _ _
    · exact briefLines_of_few rfl

theorem briefLines_workerLost (w : Surroundings) (args : List Text) (s : Sys) :
    BriefLines (workerLostCommand w args s).2.lines := by
  unfold workerLostCommand
  cases lossArguments args with
  | error e => exact briefLines_failure _ _
  | ok arguments => exact briefLines_reply fun _ _ => briefLines_of_few rfl

theorem briefLines_degraded (w : Surroundings) (args : List Text) (s : Sys) :
    BriefLines (degradedCommand w args s).2.lines := by
  refine briefLines_lookThenCall (fun generation i r hr => ?_) fun _ => briefLines_of_few rfl
  unfold contractToAuthorize at hr
  split at hr
  · cases hr
  · rw [← Except.error.inj hr]
    exact briefLines_failure _ _

theorem briefLines_releaseCommand (w : Surroundings) (args : List Text) (s : Sys) :
    BriefLines (releaseCommand w args s).2.lines := by
  unfold releaseCommand
  cases releaseArguments args with
  | error e => exact briefLines_failure _ _
  | ok request => exact briefLines_reply fun a ha => briefLines_release a (criteria_length (call_ok ha))

/-- the commands whose report has a line for each fault, containment, worker, event, action or explanation -/
def lists : Command → Bool
  | .faults | .containments | .workers | .history | .evaluate | .contain | .containment | .explain => true
  | _ => false

/-- **Short answers.** Whatever the state and the arguments, the other commands answer in few lines. -/
theorem briefLines_run {w : Surroundings} {fuel : ℕ} {args : List Text} {s : Sys} {command : Command}
    (hlists : lists command = false) {answer : Sys × ControlResponse} (h : command.run w fuel args s = some answer) :
    BriefLines answer.2.lines := by
  cases command with
  | faults | containments | workers | history | evaluate | contain | containment | explain => cases hlists
  | status =>
    obtain rfl := Option.some.inj h
    exact briefLines_reply fun status hstatus => briefLines_status status (Except.ok.inj hstatus ▸ notes_length_le _)
  | registerDomain | registerIsolationDomain | registerFailureDomain | registerResource | registerDependency =>
    obtain rfl := Option.some.inj h
    exact briefLines_once fun _ _ _ _ _ => briefLines_of_few rfl
  | setResourceOwner =>
    obtain rfl := Option.some.inj h
    exact briefLines_setResourceOwner w args s
  | publishFault => exact briefLines_publishFault h
  | workerLost =>
    obtain rfl := Option.some.inj h
    exact briefLines_workerLost w args s
  | dispatch | resource | action =>
    obtain rfl := Option.some.inj h
    exact briefLines_look fun _ => briefLines_of_few rfl
  | verify =>
    obtain rfl := Option.some.inj h
    exact briefLines_once fun _ _ _ v hv => briefLines_verification v (findings_length hv)
  | degraded =>
    obtain rfl := Option.some.inj h
    exact briefLines_degraded w args s
  | release =>
    obtain rfl := Option.some.inj h
    exact briefLines_releaseCommand w args s
  | snapshotInfo =>
    obtain rfl := Option.some.inj h
    exact briefLines_of_few rfl
  | shutdown =>
    obtain rfl := Option.some.inj h
    exact briefLines_of_few rfl

/-- a command that is not known is refused in a message -/
theorem briefLines_engine {w : Surroundings} {fuel : ℕ} {request : ControlRequest} {s : Sys} {answer : Sys × ControlResponse}
    (hlists : ∀ command, parseCommand request.command = some command → lists command = false)
    (h : executeEngineControl w fuel request s = some answer) : BriefLines answer.2.lines := by
  unfold executeEngineControl at h
  cases hcommand : parseCommand request.command with
  | none =>
    rw [hcommand] at h
    obtain rfl := Option.some.inj h
    exact briefLines_failure _ _
  | some command =>
    rw [hcommand] at h
    exact briefLines_run (hlists command hcommand) h

/-! ## The condition -/

/-- what a command lists of the engine it looks at; for `contain`, of the record that is committed -/
def listing (w : Surroundings) (args : List Text) (s : Sys) : Command → Option (List Text)
  | .faults => some ((w.met 0 s).impl.state.faults.toList.map fun e => faultLine e.1 e.2)
  | .containments => some ((w.met 0 s).impl.state.containments.vals.map containmentLine)
  | .workers => some ((w.met 0 s).impl.state.workers.incarnations.toList.map fun e => workerLine e.1 e.2)
  | .history => (historyArguments args).toOption.bind fun range =>
      some ((historyFrom range.1 range.2 (w.met 0 s).impl).map historyLine)
  | .evaluate => (oneId .faultId "evaluate <fault>" "evaluate: bad fault identity" args).toOption.bind fun fault =>
      (Preview.evaluateContainment fault {} (w.met 0 s).impl).toOption.map radiusLines
  | .containment => (oneId .containmentGeneration "containment <generation>" "containment: bad generation" args).toOption.bind
      fun generation => (queryContainment generation (w.met 0 s).impl).toOption.map containmentLines
  | .explain => (oneId .containmentGeneration "explain <containment>" "explain: bad generation" args).toOption.bind
      fun generation => (explain generation (w.met 0 s).impl).toOption.map explanationLines
  | .contain => (oneId .faultId "contain <fault>" "contain: bad fault identity" args).toOption.bind fun fault =>
      (queryFault fault (w.met 0 s).impl).toOption.bind fun f =>
        (w.call 1 (fun clk => authorizeContainment clk fault f.evidence.generation) (w.met 0 s)).2.toOption.map committedLines
  | _ => none

theorem reply_fits {α : Type} (lines : α → List Text) (result : Except Error α) : ¬ Oversized (reply lines result) ↔
    ∀ found ∈ result.toOption.map lines, ¬ Oversized { ok := true, lines := found } := by
  cases result with
  | ok a => simp [reply, Except.toOption]
  | error e => exact iff_of_true (briefLines_failure _ _).fits fun _ h => by cases h

theorem look_fits {α β : Type} (w : Surroundings) (arguments : Arguments β) (query : β → Impl → Except Error α)
    (lines : α → List Text) (s : Sys) : ¬ Oversized (look w arguments query lines s).2 ↔
      ∀ found ∈ arguments.toOption.bind fun b => (query b (w.met 0 s).impl).toOption.map lines,
        ¬ Oversized { ok := true, lines := found } := by
  unfold look
  cases arguments with
  | error e => exact iff_of_true (briefLines_failure _ _).fits fun _ h => by cases h
  | ok b => exact reply_fits _ _

/-- the response to a command that lists fits exactly when what it lists does -/
theorem listing_fits {w : Surroundings} {args : List Text} {s : Sys} {command : Command} (h : lists command = true)
    {answer : Sys × ControlResponse} (hanswer : command.run w 0 args s = some answer) :
    ¬ Oversized answer.2 ↔ ∀ lines ∈ listing w args s command, ¬ Oversized { ok := true, lines := lines } := by
  cases command with
  | faults | containments | workers | history | evaluate | containment | explain =>
    obtain rfl := Option.some.inj hanswer
    exact look_fits w _ _ _ s
  | contain =>
    obtain rfl := Option.some.inj hanswer
    unfold containCommand lookThenCall listing
    cases oneId .faultId "contain <fault>" "contain: bad fault identity" args with
    | error e => exact iff_of_true (briefLines_failure _ _).fits fun _ h => by cases h
    | ok fault =>
      dsimp only [Except.toOption, Option.bind_some, faultToContain]
      cases queryFault fault (w.met 0 s).impl with
      | error e => exact iff_of_true (briefLines_failure _ _).fits fun _ h => by cases h
      | ok f => exact reply_fits _ _
  | _ => cases h

/-- the other commands list nothing -/
theorem listing_none {w : Surroundings} {args : List Text} {s : Sys} {command : Command} (h : lists command = false) :
    listing w args s command = none := by
  cases command with
  | faults | containments | workers | history | evaluate | contain | containment | explain => cases h
  | _ => rfl

/-- a request that is answered once: a poll does not go over the connection that asks for it, a fault is published or refused in
the end, and what is listed fits into a frame -/
structure Answerable (own : Socket) (w : Surroundings) (request : ControlRequest) (n : Service) : Prop where
  unpolled : request.command = lit "poll-workers" → own ∉ n.peers.vals
  ends : ¬ Unanswered w request n.sys
  fits : ∀ command ∈ parseCommand request.command, ∀ lines ∈ listing w request.arguments n.sys command,
    ¬ Oversized { ok := true, lines := lines }

section Answer

variable {own : Socket} {w : Surroundings} {accepts : Socket → Bool} {n : Service}

theorem oneAnswer_of_legible {bytes : Bytes} (h : Legible bytes) : OneAnswer own [(own, bytes)] := by
  refine ⟨bytes, ?_, h⟩
  rw [List.filter_cons_of_pos (by simp), List.filter_nil]

/-- nothing but the response -/
theorem oneAnswer_response (r : ControlResponse) : OneAnswer own (sendResponse own r) ↔ ¬ Oversized r := by
  rcases sendResponse_cases own r with ⟨hlarge, hsent⟩ | ⟨hfits, bytes, hsent, hlegible⟩
  · rw [hsent]
    refine iff_of_false ?_ (not_not.mpr hlarge)
    rintro ⟨bytes, hbytes, -⟩
    cases hbytes
  · rw [hsent]
    exact iff_of_true (oneAnswer_of_legible hlegible) hfits

/-- the response behind other frames -/
theorem oneAnswer_behind {frames : Sent} {r : ControlResponse} (hfits : ¬ Oversized r) :
    OneAnswer own (frames ++ sendResponse own r) ↔ frames.filter (·.1 = own) = [] := by
  rcases sendResponse_cases own r with ⟨hlarge, -⟩ | ⟨-, bytes, hsent, hlegible⟩
  · exact absurd hlarge hfits
  · rw [hsent, OneAnswer]
    rw [List.filter_append, List.filter_cons_of_pos (by simp), List.filter_nil]
    constructor
    · rintro ⟨bytes', hbytes, -⟩
      have hlength := congrArg List.length hbytes
      rw [List.length_append] at hlength
      exact List.eq_nil_of_length_eq_zero (Nat.succ.inj hlength)
    · intro hnone
      exact ⟨bytes, by rw [hnone, List.nil_append], hlegible⟩

/-- a poll asks each of the connections -/
theorem polls_own (peers : List Socket) :
    (peers.flatMap fun peer => sendFrame peer .queryRequest []).filter (·.1 = own) = [] ↔ own ∉ peers := by
  induction peers with
  | nil => exact iff_of_true rfl (by simp)
  | cons peer peers ih =>
    have hempty : ([] : Bytes).length ≤ kMaxFramePayloadBytes := Nat.zero_le _
    obtain ⟨bytes, hsent, -⟩ := sendFrame_reads peer .queryRequest hempty
    rw [List.flatMap_cons, hsent, List.filter_append, List.append_eq_nil_iff, ih, List.mem_cons, not_or]
    refine and_congr_left fun _ => ?_
    by_cases hown : peer = own
    · simp [hown]
    · simp [hown, Ne.symm hown]

theorem parse_shutdown : parseCommand (lit "shutdown") = some .shutdown := by decide +kernel
theorem parse_poll : parseCommand (lit "poll-workers") = none := by decide +kernel

/-- no command but `publish-fault` needs fuel -/
theorem run_fuel {command : Command} (h : command ≠ .publishFault) (fuel : ℕ) (args : List Text) (s : Sys) :
    command.run w fuel args s = command.run w 0 args s := by
  cases command with
  | publishFault => exact absurd rfl h
  | _ => rfl

/-- the answer to a request that the engine deals with -/
theorem engine_answered_iff (request : ControlRequest) (s : Sys) :
    (∃ fuel answer, executeEngineControl w fuel request s = some answer ∧ ¬ Oversized answer.2) ↔
      ¬ Unanswered w request s ∧ ∀ command ∈ parseCommand request.command,
        ∀ lines ∈ listing w request.arguments s command, ¬ Oversized { ok := true, lines := lines } := by
  have hrun : ∀ command, parseCommand request.command = some command → lists command = true → ∀ fuel,
      executeEngineControl w fuel request s = command.run w 0 request.arguments s := by
    intro command hcommand hlists fuel
    have hpublish : command ≠ .publishFault := by
      rintro rfl
      cases hlists
    unfold executeEngineControl
    rw [hcommand]
    exact run_fuel hpublish fuel _ _
  constructor
  · rintro ⟨fuel, answer, hanswer, hfits⟩
    refine ⟨(engineControl_iff w request s).mp ⟨fuel, answer, hanswer⟩, fun command hcommand lines hlines => ?_⟩
    cases hlists : lists command with
    | false =>
      rw [listing_none hlists] at hlines
      cases hlines
    | true =>
      rw [hrun command hcommand hlists] at hanswer
      exact (listing_fits hlists hanswer).mp hfits lines hlines
  · rintro ⟨hends, hfits⟩
    obtain ⟨fuel, answer, hanswer⟩ := (engineControl_iff w request s).mpr hends
    refine ⟨fuel, answer, hanswer, ?_⟩
    by_cases hlist : ∃ command, parseCommand request.command = some command ∧ lists command = true
    · obtain ⟨command, hcommand, hlists⟩ := hlist
      rw [hrun command hcommand hlists] at hanswer
      exact (listing_fits hlists hanswer).mpr fun lines hlines => hfits command hcommand lines hlines
    · refine (briefLines_engine (fun command hcommand => ?_) hanswer).fits
      exact Bool.eq_false_iff.mpr fun hlists => hlist ⟨command, hcommand, hlists⟩

/-- a decoded request is answered as far as it is executed and the response goes out -/
theorem answered_execute_iff {payload : Bytes} {request : ControlRequest} (h : decodeControlRequest payload = .ok request) :
    Answered own w accepts payload n ↔ ∃ fuel answer, execute w accepts fuel request n = some answer ∧
      OneAnswer own (answer.2.2 ++ sendResponse own answer.2.1) := by
  unfold Answered handleControlRequest
  rw [h]
  dsimp only
  constructor
  · rintro ⟨fuel, n', frames, hhandled, hone⟩
    obtain ⟨answer, hanswer, heq⟩ := Option.map_eq_some_iff.mp hhandled
    obtain ⟨-, rfl⟩ := Prod.mk.inj heq
    exact ⟨fuel, answer, hanswer, hone⟩
  · rintro ⟨fuel, answer, hanswer, hone⟩
    exact ⟨fuel, answer.1, _, by rw [hanswer]; rfl, hone⟩

theorem answered_shutdown {payload : Bytes} {request : ControlRequest} (h : decodeControlRequest payload = .ok request)
    (hcommand : request.command = lit "shutdown") : Answered own w accepts payload n := by
  have hexecute : execute w accepts 0 request n = some ({ n with shutdownRequested := true }, shutdownResponse, []) := by
    unfold execute
    rw [if_pos hcommand]
  have hbrief : BriefLines shutdownResponse.lines := briefLines_of_few rfl
  refine (answered_execute_iff h).mpr ⟨0, _, hexecute, ?_⟩
  rw [List.nil_append]
  exact (oneAnswer_response _).mpr hbrief.fits

theorem answered_poll {payload : Bytes} {request : ControlRequest} (h : decodeControlRequest payload = .ok request)
    (hcommand : request.command = lit "poll-workers") : Answered own w accepts payload n ↔ own ∉ n.peers.vals := by
  have hother : request.command ≠ lit "shutdown" := by
    rw [hcommand]
    decide
  obtain ⟨polled, hexecute⟩ : ∃ polled, ∀ fuel, execute w accepts fuel request n = some (n, { ok := true, lines := [polled] },
      n.peers.vals.flatMap fun peer => sendFrame peer .queryRequest []) := by
    refine ⟨lit "polled=" ++ decimal ((n.peers.vals.flatMap fun peer => sendFrame peer .queryRequest []).filter
      fun frame => accepts frame.1).length, fun fuel => ?_⟩
    unfold execute
    rw [if_neg hother, if_pos hcommand]
  have hbrief : BriefLines ({ ok := true, lines := [polled] } : ControlResponse).lines := briefLines_of_few rfl
  rw [answered_execute_iff h, ← polls_own, ← oneAnswer_behind hbrief.fits]
  constructor
  · rintro ⟨fuel, answer, hanswer, hone⟩
    rw [hexecute fuel] at hanswer
    rw [← Option.some.inj hanswer] at hone
    exact hone
  · intro hone
    exact ⟨0, _, hexecute 0, hone⟩

theorem answered_engine {payload : Bytes} {request : ControlRequest} (h : decodeControlRequest payload = .ok request)
    (hshutdown : request.command ≠ lit "shutdown") (hpoll : request.command ≠ lit "poll-workers") :
    Answered own w accepts payload n ↔
      ∃ fuel answer, executeEngineControl w fuel request n.sys = some answer ∧ ¬ Oversized answer.2 := by
  have hexecute : ∀ fuel, execute w accepts fuel request n =
      (executeEngineControl w fuel request n.sys).map fun answer => ({ n with sys := answer.1 }, answer.2, []) := by
    intro fuel
    unfold execute
    rw [if_neg hshutdown, if_neg hpoll]
  rw [answered_execute_iff h]
  constructor
  · rintro ⟨fuel, answer, hanswer, hone⟩
    rw [hexecute] at hanswer
    obtain ⟨answer', hanswer', rfl⟩ := Option.map_eq_some_iff.mp hanswer
    rw [List.nil_append] at hone
    exact ⟨fuel, answer', hanswer', (oneAnswer_response _).mp hone⟩
  · rintro ⟨fuel, answer, hanswer, hfits⟩
    refine ⟨fuel, ({ n with sys := answer.1 }, answer.2, []), ?_, ?_⟩
    · rw [hexecute, hanswer]
      rfl
    · rw [List.nil_append]
      exact (oneAnswer_response _).mpr hfits

theorem answered_malformed {payload : Bytes} {e : Error} (h : decodeControlRequest payload = .error e) :
    Answered own w accepts payload n := by
  have htext : isValidUtf8 (errorText e) = true ∧ (errorText e).length ≤ 200 := by
    rcases decodePayload_error h with rfl | rfl
    · exact ⟨isValidUtf8_makeError _ _ _, by decide⟩
    · exact ⟨isValidUtf8_makeError _ _ _, by decide⟩
  obtain ⟨bytes, hsent, hlegible⟩ := reject_legible own e.code htext.1 (short_text htext.2)
  have hhandled : handleControlRequest own w accepts 0 payload n = some (n, [(own, bytes)]) := by
    unfold handleControlRequest
    rw [h, ← hsent]
  exact ⟨0, n, _, hhandled, oneAnswer_of_legible hlegible⟩

/-- **One answer.** A control request is answered with exactly one frame that the client reads, unless it asks for a poll over a
connection that is polled, publishes a fault with retries that never end, or lists more than a frame holds. -/
theorem answered_iff (own : Socket) (w : Surroundings) (accepts : Socket → Bool) (payload : Bytes) (n : Service) :
    Answered own w accepts payload n ↔
      ∀ request, decodeControlRequest payload = .ok request → Answerable own w request n := by
  cases hdecode : decodeControlRequest payload with
  | error e => exact iff_of_true (answered_malformed hdecode) fun request h => by cases h
  | ok request =>
    have hone : (∀ request', (.ok request : Except Error ControlRequest) = .ok request' → Answerable own w request' n) ↔
        Answerable own w request n :=
      ⟨fun h => h request rfl, fun h request' heq => Except.ok.inj heq ▸ h⟩
    rw [hone]
    by_cases hshutdown : request.command = lit "shutdown"
    · refine iff_of_true (answered_shutdown hdecode hshutdown) ⟨?_, ?_, ?_⟩
      · intro hpoll
        rw [hshutdown] at hpoll
        exact absurd hpoll (by decide)
      · rintro ⟨hpublish, -⟩
        rw [hshutdown, parse_shutdown] at hpublish
        cases hpublish
      · intro command hcommand lines hlines
        rw [hshutdown, parse_shutdown] at hcommand
        rw [← Option.some.inj hcommand] at hlines
        cases hlines
    by_cases hpoll : request.command = lit "poll-workers"
    · rw [answered_poll hdecode hpoll]
      constructor
      · intro hown
        refine ⟨fun _ => hown, ?_, ?_⟩
        · rintro ⟨hpublish, -⟩
          rw [hpoll, parse_poll] at hpublish
          cases hpublish
        · intro command hcommand
          rw [hpoll, parse_poll] at hcommand
          cases hcommand
      · exact fun h => h.unpolled hpoll
    · rw [answered_engine hdecode hshutdown hpoll, engine_answered_iff]
      exact ⟨fun h => ⟨fun heq => absurd heq hpoll, h.1, h.2⟩, fun h => ⟨h.ends, h.fits⟩⟩

end Answer

/-! ## Runs -/

/-- what happens to the coordinator between requests: a section of the engine, a handshake, the end of a connection -/
inductive Move where
  | run (c : Section)
  | hello (own : Socket) (message : HelloMessage) (io : Io) (clk : Clock)
  | closed (boot : WorkerBootId)

/-- a handshake that registers the incarnation makes the connection its peer -/
def Move.after : Move → Service → Service
  | .run c, n => { n with sys := c.after n.sys }
  | .hello own m io clk, n =>
    let registered := n.sys.perform io (registerWorker clk m.worker m.boot m.endpoint m.sequence n.sys.impl)
    { n with
      sys := registered.1
      peers := match registered.2 with | .ok _ => n.peers.insert m.boot own | .error _ => n.peers }
  | .closed boot, n => { n with peers := n.peers.erase boot }

/-- the connection does not say hello -/
def Move.Silent (own : Socket) : Move → Prop
  | .hello socket _ _ _ => socket ≠ own
  | _ => True

theorem unpolled_after {own : Socket} (m : Move) {n : Service} (hm : m.Silent own) (h : own ∉ n.peers.vals) :
    own ∉ (m.after n).peers.vals := by
  cases m with
  | run c => exact h
  | hello socket message io clk =>
    unfold Move.after
    dsimp only
    split
    · intro hown
      obtain ⟨boot, hboot⟩ := (OrderedMap.mem_vals _ _).mp hown
      rw [OrderedMap.find_insert] at hboot
      split_ifs at hboot
      · exact hm (Option.some.inj hboot)
      · exact h ((OrderedMap.mem_vals _ _).mpr ⟨boot, hboot⟩)
    · exact h
  | closed boot =>
    intro hown
    obtain ⟨k, hk⟩ := (OrderedMap.mem_vals _ _).mp hown
    have hk : (n.peers.erase boot).find k = some own := hk
    rw [OrderedMap.find_erase] at hk
    split_ifs at hk
    exact h ((OrderedMap.mem_vals _ _).mpr ⟨k, hk⟩)

/-- **A connection that never says hello is never polled.** -/
theorem unpolled_run {own : Socket} (moves : List Move) {n : Service} (hm : ∀ m ∈ moves, m.Silent own)
    (h : own ∉ n.peers.vals) : own ∉ (Runs.run Move.after moves n).peers.vals := by
  induction moves generalizing n with
  | nil => exact h
  | cons m moves ih =>
    rw [Runs.run_cons]
    exact ih (fun m' hm' => hm m' (List.mem_cons_of_mem _ hm')) (unpolled_after m (hm m List.mem_cons_self) h)

/-! ## A report that is never sent -/

/-- a name of 62000 characters -/
def longName : Text := ofChars (List.replicate 62000 'a')

/-- the registration of a failure domain with such a name -/
def registration (k : ℕ) : Move :=
  .run { call := ⟨ticks, .registerFailureDomain { id := ⟨UInt64.ofNat (k + 1)⟩, name := longName }⟩ }

/-- a coordinator without a store, after that many registrations -/
def crowded (k : ℕ) : Service :=
  Runs.run Move.after ((List.range k).map registration) { sys := { impl := construct ticks {}, attached := false } }

theorem longName_length : longName.length = 62000 := by
  have hall : ∀ k, (ofChars (List.replicate k 'a')).length = k := by
    intro k
    induction k with
    | zero => rfl
    | succ k ih =>
      have hchar : (String.utf8EncodeChar 'a').length = 1 := by decide
      unfold ofChars at ih ⊢
      rw [List.replicate_succ, List.flatMap_cons, List.length_append, ih, hchar]
      omega
  exact hall 62000

/-- an event that a report can list -/
structure Listed (e : HistoryEvent) : Prop where
  sequence : 1 ≤ e.sequence.value.toNat
  text : isValidUtf8 e.detail = true
  short : e.detail.length ≤ 62200

/-- the state after `k` registrations: the other identities are free, and the names are in the history -/
structure Filled (k : ℕ) (i : Impl) : Prop where
  free : ∀ j < 17, k ≤ j → i.state.topology.failureDomains.has ⟨UInt64.ofNat (j + 1)⟩ = false
  config : i.config = {}
  history : ∃ first events, i.state.history = first :: events ∧ Listed first ∧ events.length = k ∧
    ∀ e ∈ events, Listed e ∧ 62000 ≤ e.detail.length

theorem one_le_next {t : IdTag} (i : Id t) : 1 ≤ (nextGeneration i).value.toNat := by
  by_cases h : i.value.toNat = 2 ^ 64 - 1
  · unfold nextGeneration
    rw [if_pos h, h]
    decide
  · rw [nextGeneration_toNat i h]
    exact Nat.le_add_left 1 _

theorem filled_start : Filled 0 (construct ticks {}) where
  free _ _ _ := rfl
  config := rfl
  history := ⟨_, [], rfl, ⟨one_le_next _, isValidUtf8_append (isValidUtf8_lit _) (isValidUtf8_id _), by decide⟩, rfl,
    fun _ h => by cases h⟩

/-- the registration of a failure domain under a free identity -/
theorem registerFailureDomain_new (clk : Clock) (d : FailureDomain) {i : Impl} (hvalid : d.id.valid = true)
    (hfree : i.state.topology.failureDomains.has d.id = false) :
    ∃ stored e, (registerFailureDomain clk d i).impl.state.topology.failureDomains =
        i.state.topology.failureDomains.emplace d.id stored ∧
      (registerFailureDomain clk d i).impl.config = i.config ∧
      (registerFailureDomain clk d i).impl.state.history =
        Impl.trimHistory i.config.maxHistoryInMemory (i.state.history ++ [e]) ∧
      e.detail = lit "failure domain " ++ d.id.text ++ lit " " ++ d.name ∧ 1 ≤ e.sequence.value.toNat := by
  have hvalid' : ¬ ¬ (failureDomains.id d).valid = true := not_not.mpr hvalid
  have hfree' : ¬ (failureDomains.domains i.state.topology).has (failureDomains.id d) = true := by
    rw [Bool.not_eq_true]
    exact hfree
  unfold registerFailureDomain Grouping.register
  rw [if_neg hvalid', if_neg hfree']
  exact ⟨_, _, rfl, rfl, rfl, rfl, one_le_next _⟩

theorem filled_next {k : ℕ} (hk : k < 17) {i : Impl} (h : Filled k i) :
    Filled (k + 1) (registerFailureDomain ticks { id := ⟨UInt64.ofNat (k + 1)⟩, name := longName } i).impl := by
  obtain ⟨first, events, hhistory, hfirst, hlength, hevents⟩ := h.history
  have hvalid : (⟨UInt64.ofNat (k + 1)⟩ : FailureDomainId).valid = true := by
    interval_cases k <;> decide
  obtain ⟨stored, e, hdomains, hconfig, hhistory', hdetail, hsequence⟩ :=
    registerFailureDomain_new ticks { id := ⟨UInt64.ofNat (k + 1)⟩, name := longName } hvalid (h.free k hk (le_refl k))
  dsimp only at hdetail hdomains
  have hbound : e.detail.length ≤ 62200 ∧ 62000 ≤ e.detail.length := by
    have hid := length_text_le (⟨UInt64.ofNat (k + 1)⟩ : FailureDomainId)
    have hlabel : (lit "failure domain ").length = 15 := by decide
    have hblank : (lit " ").length = 1 := by decide
    rw [hdetail, List.length_append, List.length_append, List.length_append, longName_length]
    omega
  have htext : isValidUtf8 e.detail = true := by
    rw [hdetail]
    exact isValidUtf8_append (isValidUtf8_append (isValidUtf8_append (isValidUtf8_lit _) (isValidUtf8_id _))
      (isValidUtf8_lit _)) (isValidUtf8_ofChars _)
  refine ⟨fun j hj hkj => ?_, hconfig.trans h.config, first, events ++ [e], ?_, hfirst, ?_, fun e' he' => ?_⟩
  · have hne : (⟨UInt64.ofNat (k + 1)⟩ : FailureDomainId) ≠ ⟨UInt64.ofNat (j + 1)⟩ := by
      intro heq
      have hnat := congrArg (fun i : FailureDomainId => i.value.toNat) heq
      simp only [UInt64.toNat_ofNat'] at hnat
      omega
    have hother := h.free j hj (by omega)
    rw [OrderedMap.has_eq_false] at hother ⊢
    rw [hdomains, OrderedMap.find_emplace, if_neg fun hnew => hne hnew.1]
    exact hother
  · rw [hhistory', hhistory, h.config]
    unfold Impl.trimHistory
    rw [if_neg]
    · rfl
    · rintro ⟨-, hlarge⟩
      simp only [List.length_append, List.length_cons, List.length_nil, hlength] at hlarge
      omega
  · rw [List.length_append, hlength]
    rfl
  · rcases List.mem_append.mp he' with he' | he'
    · exact hevents e' he'
    · obtain rfl := List.mem_singleton.mp he'
      exact ⟨⟨hsequence, htext, hbound.1⟩, hbound.2⟩

theorem filled_crowded : ∀ k ≤ 17, Filled k (crowded k).sys.impl := by
  intro k
  induction k with
  | zero => exact fun _ => filled_start
  | succ k ih =>
    intro hk
    have hstep : crowded (k + 1) = (registration k).after (crowded k) := by
      unfold crowded
      rw [List.range_succ, List.map_append, Runs.run_append]
      rfl
    have himpl : ((registration k).after (crowded k)).sys.impl = ((registerFailureDomain ticks
        { id := ⟨UInt64.ofNat (k + 1)⟩, name := longName } (crowded k).sys.impl).void).sealed (crowded k).sys.impl :=
      (Rejections.perform_noFailure _ _).2
    have hnext := filled_next (by omega) (ih (by omega))
    rw [hstep, himpl]
    exact ⟨hnext.free, hnext.config, hnext.history⟩

theorem historyFrom_filled {i : Impl} (h : Filled 17 i) : historyFrom 1 200 i = i.state.history := by
  obtain ⟨first, events, hhistory, hfirst, hlength, hevents⟩ := h.history
  have hall : i.state.history.filter (fun e => decide (1 ≤ e.sequence.value.toNat)) = i.state.history := by
    rw [hhistory, List.filter_eq_self]
    intro e he
    rcases List.mem_cons.mp he with rfl | he
    · exact decide_eq_true hfirst.sequence
    · exact decide_eq_true (hevents e he).1.sequence
  unfold historyFrom
  dsimp only
  rw [if_neg (by decide), hall, hhistory, List.take_of_length_le]
  rw [List.length_cons, hlength]
  decide

/-- the line of an event that can be listed is a text, and no longer than texts are -/
theorem historyLine_listed {e : HistoryEvent} (h : Listed e) : isValidUtf8 (historyLine e) = true ∧
    (historyLine e).length ≤ kMaxStringBytes ∧ e.detail.length ≤ (historyLine e).length := by
  have hname : (Coded.name e.type).length ≤ 64 := by
    cases e.type <;> decide
  have hid := length_text_le e.sequence
  have hblank : (lit " ").length = 1 := by decide
  have hmax : kMaxStringBytes = 65536 := rfl
  have hshort := h.short
  refine ⟨isValidUtf8_append (isValidUtf8_append (isValidUtf8_append (isValidUtf8_append (isValidUtf8_id _)
    (isValidUtf8_lit _)) (isValidUtf8_name _)) (isValidUtf8_lit _)) h.text, ?_, ?_⟩
  · unfold historyLine
    simp only [List.length_append]
    omega
  · unfold historyLine
    simp only [List.length_append]
    omega

theorem oversized_filled {i : Impl} (h : Filled 17 i) :
    Oversized { ok := true, lines := i.state.history.map historyLine } := by
  obtain ⟨first, events, hhistory, hfirst, hlength, hevents⟩ := h.history
  have hlow : ∀ es : List HistoryEvent, (∀ e ∈ es, Listed e ∧ 62000 ≤ e.detail.length) →
      62004 * es.length ≤ ((es.map historyLine).map fun line => 4 + line.length).sum ∧
        ((es.map historyLine).map fun line => 4 + line.length).sum ≤ 65540 * es.length := by
    intro es hes
    induction es with
    | nil => exact ⟨le_refl _, le_refl _⟩
    | cons e es ih =>
      obtain ⟨hlisted, hlong⟩ := hes e List.mem_cons_self
      obtain ⟨-, hmax, hmin⟩ := historyLine_listed hlisted
      have ih := ih fun e' he' => hes e' (List.mem_cons_of_mem _ he')
      have hstring : kMaxStringBytes = 65536 := rfl
      simp only [List.map_cons, List.sum_cons, List.length_cons]
      omega
  have hsums := hlow events hevents
  obtain ⟨-, hfirstmax, -⟩ := historyLine_listed hfirst
  have hstring : kMaxStringBytes = 65536 := rfl
  have hframe : kMaxFramePayloadBytes = 1048576 := rfl
  have hdocument : kMaxDocumentBytes = 134217728 := rfl
  refine ⟨?_, ?_, ?_⟩
  · intro t ht
    rcases List.mem_cons.mp ht with rfl | ht
    · exact ⟨rfl, Nat.zero_le _⟩
    · obtain ⟨e, he, rfl⟩ := List.mem_map.mp ht
      rw [hhistory] at he
      rcases List.mem_cons.mp he with rfl | he
      · exact ⟨(historyLine_listed hfirst).1, hfirstmax⟩
      · exact ⟨(historyLine_listed (hevents e he).1).1, (historyLine_listed (hevents e he).1).2.1⟩
  · simp only [size, hhistory, List.map_cons, List.sum_cons, List.length_nil]
    omega
  · simp only [size, hhistory, List.map_cons, List.sum_cons, List.length_nil]
    omega

theorem executeEngineControl_history (fuel : ℕ) (s : Sys) :
    executeEngineControl {} fuel { command := lit "history" } s = some (historyCommand {} [] s) := by
  have hparse : parseCommand (lit "history") = some .history := by decide +kernel
  unfold executeEngineControl
  dsimp only
  rw [hparse]
  rfl

theorem historyCommand_answer (s : Sys) :
    (historyCommand {} [] s).2 = { ok := true, lines := (historyFrom 1 200 s.impl).map historyLine } := rfl

/-- a request of a command alone encodes -/
theorem encodes_command {command : Text} (hempty : command ≠ []) (htext : isValidUtf8 command = true)
    (hshort : command.length ≤ kMaxStringBytes) : ∃ payload, encodeControlRequest { command } = .ok payload ∧
      decodeControlRequest payload = .ok { command } := by
  obtain ⟨payload, henc⟩ : ∃ payload, (pair u32 controlRequestFields).enc (kProtocolFormatVersion, { command }) =
      some payload := by
    rw [(pair u32 controlRequestFields).enc_iff]
    simp [controlRequestFields, hempty, htext, hshort]
  have hmeasure : (pair u32 controlRequestFields).Measures fun p =>
      4 + ((4 + p.2.command.length) + (4 + (p.2.arguments.map fun t => 4 + t.length).sum)) :=
    (measures_word 4 _ _ _ _).pair (((measures_str.pair (measures_str.list _ _)).iso _ _ _ _).guarded _)
  have hlength : payload.length ≤ 12 + kMaxStringBytes := by
    rw [hmeasure _ _ henc]
    simp only [List.map_nil, List.sum_nil]
    omega
  have hencode : encodeControlRequest { command } = .ok payload :=
    encodePayload_ok.mpr ⟨henc, hlength.trans (by decide)⟩
  exact ⟨payload, hencode, (decode_encode_iff hencode).mpr ((controlRequestFields_insists _).mpr (Nat.zero_le _))⟩

/-- **A report that is never sent.** After seventeen registrations of failure domains with long names, the request `history`
gets no answer. -/
theorem answered_fails : ∃ payload, encodeControlRequest { command := lit "history" } = .ok payload ∧
    ¬ Answered 0 {} (fun _ => true) payload (crowded 17) := by
  obtain ⟨payload, hencode, hdecode⟩ :=
    encodes_command (by decide : lit "history" ≠ []) (isValidUtf8_lit _) (short_text (by decide))
  refine ⟨payload, hencode, fun hanswered => ?_⟩
  obtain ⟨fuel, answer, hanswer, hfits⟩ := (answered_engine hdecode (by decide) (by decide)).mp hanswered
  have hfilled := filled_crowded 17 (le_refl _)
  rw [executeEngineControl_history] at hanswer
  rw [← Option.some.inj hanswer, historyCommand_answer, historyFrom_filled hfilled] at hfits
  exact hfits (oversized_filled hfilled)

end FaultContainment.Answers
