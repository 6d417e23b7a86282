/-
The durable store (`persistence.cpp`): one snapshot file and one append-only journal.

A store is the contents of its two files. `appendRecord` may fail after any number of bytes of the record reached the file;
`saveSnapshot` replaces the snapshot and then empties the journal whatever it holds; `recover` reads both and changes
neither.

- `recover_clean`: a journal of whole records after an intact snapshot is recovered, in sequence order.
- `recover_torn`: with a torn tail the same records are recovered.
- `Files.recover`: what is recovered of files in order, and that no gap is reported.
-/
import FaultContainment.Lib.FramedLog
import FaultContainment.Lib.SequencedLog
import FaultContainment.Detail.Digest

namespace FaultContainment.Persistence

open FaultContainment.Lib FaultContainment.Ids FaultContainment.Enums FaultContainment.Records FaultContainment.Digest

abbrev kMaxJournalRecordBytes : ℕ := 8 * 1024 * 1024
abbrev kMaxSnapshotPayloadBytes : ℕ := 128 * 1024 * 1024
abbrev kMaxJournalFileBytes : ℕ := 512 * 1024 * 1024
abbrev kSnapshotHeaderBytes : ℕ := 28
abbrev kSnapshotFormatVersion : ℕ := 1

/-- magic "FCFSNAP1" -/
def kSnapshotMagic : Bytes := [0x46, 0x43, 0x46, 0x53, 0x4E, 0x41, 0x50, 0x31]

/-- the journal record layout: magic, payload length, payload checksum; a payload starts with its sequence number -/
def journalFormat : FrameFormat where
  magic := 0x314A4346
  minLen := 8
  maxLen := kMaxJournalRecordBytes
  check := crc32c
  magic_lt := by decide
  maxLen_lt := by decide

/-- the files of a store; a store that was never snapshotted has no snapshot file -/
structure Store where
  snapshotFile : Option Bytes := none
  journal : Bytes := []

/-- what the operating system made of a write: all of it, or a failure reported after some bytes reached the file -/
inductive WriteOutcome where
  | complete
  | failed (written : ℕ)
  deriving DecidableEq

/-- the payload region of a journal record -/
def journalPayload (sequence : ℕ) (payload : Bytes) : Bytes := leBytes 8 sequence ++ payload

/-- the bytes of a journal record -/
def journalRecord (sequence : ℕ) (payload : Bytes) : Bytes := journalFormat.frame (journalPayload sequence payload)

/-- `append_record` -/
def appendRecord (st : Store) (sequence : ℕ) (payload : Bytes) (io : WriteOutcome) : Store × Except Error Unit :=
  if kMaxJournalRecordBytes < payload.length then
    (st, .error (makeError .persistenceIo "persist.append" "record exceeds the journal record ceiling"
      (decimal payload.length)))
  else
    let record := journalRecord sequence payload
    match io with
    | .complete => ({ st with journal := st.journal ++ record }, .ok ())
    | .failed written =>
      ({ st with journal := st.journal ++ record.take written },
        .error (makeError .persistenceIo "persist.append"
          (if written < record.length then "journal write failed" else "journal flush failed")))

/-- the snapshot file image -/
def snapshotImage (payload : Bytes) (sequence : ℕ) : Bytes :=
  let header := kSnapshotMagic ++ leBytes 4 kSnapshotFormatVersion ++ leBytes 8 (8 + payload.length)
  let body := leBytes 8 sequence ++ payload
  header ++ leBytes 4 (crc32c header).toNat ++ leBytes 4 (crc32c body).toNat ++ body

/-- `save_snapshot`: the journal is emptied, whatever records it holds -/
def saveSnapshot (st : Store) (payload : Bytes) (sequence : ℕ) : Store × Except Error Unit :=
  if kMaxSnapshotPayloadBytes < payload.length then
    (st, .error (makeError .persistenceIo "persist.snapshot" "snapshot exceeds the payload ceiling"
      (decimal payload.length)))
  else ({ st with snapshotFile := some (snapshotImage payload sequence), journal := [] }, .ok ())

/-! ## Recovery -/

/-- what a recovery found -/
structure Recovery where
  snapshotPresent : Bool := false
  snapshotPayload : Bytes := []
  snapshotSequence : ℕ := 0
  journalRecords : List (ℕ × Bytes) := []
  tornTailBytes : ℕ := 0
  journalRecordsSkipped : ℕ := 0
  deriving DecidableEq

def recoverError (message : String) (context : Text := []) : Error :=
  makeError .persistenceCorrupt "persist.recover" message context

/-- "the journal sequence gap" error -/
def gapError (previous sequence : ℕ) : Error :=
  recoverError "journal sequence gap detected" (decimal previous ++ lit " -> " ++ decimal sequence)

def scanError : ScanError → Error
  | .badMagic offset => recoverError "journal record magic mismatch" (lit "offset=" ++ decimal offset)
  | .absurdLength offset => recoverError "journal record declares an absurd length" (lit "offset=" ++ decimal offset)
  | .badChecksum offset => recoverError "journal record checksum mismatch" (lit "offset=" ++ decimal offset)
  | .shortPayload offset =>
    recoverError "journal record is shorter than its sequence header" (lit "offset=" ++ decimal offset)

/-- the checks on the snapshot file; the sequence and the encoded state -/
def readSnapshot (bytes : Bytes) : Except Error (ℕ × Bytes) :=
  if kSnapshotHeaderBytes + 8 + kMaxSnapshotPayloadBytes < bytes.length then
    .error (makeError .persistenceCorrupt "persist.read" "durable file exceeds the size ceiling")
  else if bytes.length < kSnapshotHeaderBytes then
    .error (recoverError "snapshot header truncated" (decimal bytes.length))
  else if bytes.take 8 ≠ kSnapshotMagic then .error (recoverError "snapshot magic mismatch")
  else
    let version := leNat ((bytes.drop 8).take 4)
    let payloadLen := leNat ((bytes.drop 12).take 8)
    let payload := bytes.drop kSnapshotHeaderBytes
    if version ≠ kSnapshotFormatVersion then
      .error (makeError .persistenceUnsupportedVersion "persist.recover" "unsupported snapshot format version"
        (decimal version))
    else if kMaxSnapshotPayloadBytes < payloadLen then
      .error (recoverError "snapshot declares an absurd payload length" (decimal payloadLen))
    else if leNat ((bytes.drop 20).take 4) ≠ (crc32c (bytes.take 20)).toNat then
      .error (recoverError "snapshot header checksum mismatch")
    else if bytes.length ≠ kSnapshotHeaderBytes + payloadLen then
      .error (recoverError "snapshot length mismatch (truncated or trailing bytes)"
        (decimal bytes.length ++ lit " != " ++ decimal (kSnapshotHeaderBytes + payloadLen)))
    else if (crc32c payload).toNat ≠ leNat ((bytes.drop 24).take 4) then
      .error (recoverError "snapshot payload checksum mismatch")
    else if payload.length < 8 then
      .error (recoverError "snapshot payload is shorter than its sequence header")
    else .ok (leNat (payload.take 8), payload.drop 8)

/-- the sequence number and the event of a scanned payload -/
def splitRecord (payload : Bytes) : ℕ × Bytes := (leNat (payload.take 8), payload.drop 8)

/-- records past the snapshot in sequence order, or the gap -/
def orderRecords (snapshotSequence : ℕ) (payloads : List Bytes) : Except Error (List (ℕ × Bytes)) :=
  let kept := (payloads.map splitRecord).filter fun e => snapshotSequence < e.1
  let ordered := SequencedLog.order kept
  match SequencedLog.checkGaps snapshotSequence ordered with
  | .ok () => .ok ordered
  | .error (previous, sequence) => .error (gapError previous sequence)

/-- the checks on the journal file -/
def readJournal (bytes : Bytes) : Except Error (List Bytes × ℕ) :=
  if kMaxJournalFileBytes < bytes.length then
    .error (makeError .persistenceCorrupt "persist.read" "durable file exceeds the size ceiling")
  else
    match journalFormat.scan bytes with
    | .error e => .error (scanError e)
    | .ok r => .ok r

/-- `recover` -/
def recover (st : Store) : Except Error Recovery := do
  let base ← match st.snapshotFile with
    | none => pure none
    | some bytes => some <$> readSnapshot bytes
  let (payloads, torn) ← readJournal st.journal
  let snapshotSequence := (base.map Prod.fst).getD 0
  let ordered ← orderRecords snapshotSequence payloads
  pure {
    snapshotPresent := base.isSome, snapshotPayload := (base.map Prod.snd).getD [],
    snapshotSequence := snapshotSequence, journalRecords := ordered, tornTailBytes := torn,
    journalRecordsSkipped := payloads.length - ordered.length }

/-! ## What recovery makes of what was written -/

/-- the journal bytes of a list of records -/
def journalBytes (es : List (ℕ × Bytes)) : Bytes := journalFormat.frames (es.map fun e => journalPayload e.1 e.2)

/-- a record the scan can read back: a 64-bit number, and 8 bytes less than the append accepts -/
def Readable (e : ℕ × Bytes) : Prop := e.1 < 2 ^ 64 ∧ 8 + e.2.length ≤ kMaxJournalRecordBytes

instance (e : ℕ × Bytes) : Decidable (Readable e) := inferInstanceAs (Decidable (_ ∧ _))

/-- the snapshot a store holds is the image of `base` -/
def Holds (st : Store) (base : Option (ℕ × Bytes)) : Prop :=
  st.snapshotFile = base.map (fun b => snapshotImage b.2 b.1) ∧
    ∀ b, base = some b → b.1 < 2 ^ 64 ∧ 8 + b.2.length ≤ kMaxSnapshotPayloadBytes

/-- the sequence number a base covers -/
def baseSequence (base : Option (ℕ × Bytes)) : ℕ := (base.map Prod.fst).getD 0

@[simp] theorem journalPayload_length (n : ℕ) (p : Bytes) : (journalPayload n p).length = 8 + p.length := by
  simp [journalPayload]

@[simp] theorem journalRecord_length (n : ℕ) (p : Bytes) : (journalRecord n p).length = 20 + p.length := by
  simp [journalRecord, FrameFormat.headerLen]; omega

theorem journalPayload_legal {e : ℕ × Bytes} (h : Readable e) : journalFormat.Legal (journalPayload e.1 e.2) := by
  refine ⟨?_, ?_⟩
  · rw [journalPayload_length]; exact Nat.le_add_right 8 _
  · rw [journalPayload_length]; exact h.2

theorem splitRecord_journalPayload {n : ℕ} (hn : n < 2 ^ 64) (p : Bytes) : splitRecord (journalPayload n p) = (n, p) := by
  have h : leNat (leBytes 8 n) = n := leNat_leBytes_of_lt (lt_of_lt_of_le hn (by decide))
  simp [splitRecord, journalPayload, h]

theorem map_splitRecord {es : List (ℕ × Bytes)} (h : ∀ e ∈ es, Readable e) :
    (es.map fun e => journalPayload e.1 e.2).map splitRecord = es := by
  rw [List.map_map]
  conv_rhs => rw [← List.map_id es]
  apply List.map_congr_left
  intro e he
  exact splitRecord_journalPayload (h e he).1 e.2

@[simp] theorem journalBytes_nil : journalBytes [] = [] := rfl

theorem journalBytes_append (es fs : List (ℕ × Bytes)) : journalBytes (es ++ fs) = journalBytes es ++ journalBytes fs := by
  simp [journalBytes]

theorem journalBytes_singleton (e : ℕ × Bytes) : journalBytes [e] = journalRecord e.1 e.2 := by
  simp [journalBytes, journalRecord]

/-- a snapshot image is read back -/
theorem readSnapshot_image {n : ℕ} {p : Bytes} (hn : n < 2 ^ 64) (hp : 8 + p.length ≤ kMaxSnapshotPayloadBytes) :
    readSnapshot (snapshotImage p n) = .ok (n, p) := by
  have hn' : leNat (leBytes 8 n) = n := leNat_leBytes_of_lt (lt_of_lt_of_le hn (by decide))
  have hl : leNat (leBytes 8 (8 + p.length)) = 8 + p.length :=
    leNat_leBytes_of_lt (lt_of_le_of_lt hp (by decide))
  have hv : leNat (leBytes 4 kSnapshotFormatVersion) = 1 := leNat_leBytes_of_lt (by decide)
  have hm : kSnapshotMagic.length = 8 := rfl
  set header := kSnapshotMagic ++ leBytes 4 kSnapshotFormatVersion ++ leBytes 8 (8 + p.length) with hheader
  set body := leBytes 8 n ++ p with hbody
  have himg : snapshotImage p n = header ++ (leBytes 4 (crc32c header).toNat ++ (leBytes 4 (crc32c body).toNat ++ body)) := by
    simp [snapshotImage, hheader, hbody]
  have hhl : header.length = 20 := by simp [hheader, hm]
  have hbl : body.length = 8 + p.length := by simp [hbody]
  have hlen : (snapshotImage p n).length = 28 + (8 + p.length) := by
    rw [himg]; simp only [List.length_append, leBytes_length, hhl, hbl]; omega
  have c1 : leNat (leBytes 4 (crc32c header).toNat) = (crc32c header).toNat := leNat_leBytes_of_lt (UInt32.toNat_lt _)
  have c2 : leNat (leBytes 4 (crc32c body).toNat) = (crc32c body).toNat := leNat_leBytes_of_lt (UInt32.toNat_lt _)
  have d20 : (snapshotImage p n).drop 20 = leBytes 4 (crc32c header).toNat ++ (leBytes 4 (crc32c body).toNat ++ body) := by
    rw [himg, ← hhl, List.drop_left]
  have t20 : (snapshotImage p n).take 20 = header := by rw [himg, ← hhl, List.take_left]
  have d24 : (snapshotImage p n).drop 24 = leBytes 4 (crc32c body).toNat ++ body := by
    rw [show 24 = 20 + 4 from rfl, ← List.drop_drop, d20, List.drop_left' (leBytes_length _ _)]
  have d28 : (snapshotImage p n).drop 28 = body := by
    rw [show 28 = 24 + 4 from rfl, ← List.drop_drop, d24, List.drop_left' (leBytes_length _ _)]
  have t8 : (snapshotImage p n).take 8 = kSnapshotMagic := by
    rw [himg, hheader]; simp [← hm]
  have v8 : ((snapshotImage p n).drop 8).take 4 = leBytes 4 kSnapshotFormatVersion := by
    rw [himg, hheader]; simp [← hm]
  have l12 : ((snapshotImage p n).drop 12).take 8 = leBytes 8 (8 + p.length) := by
    have h12 : kSnapshotMagic.drop 12 = [] := rfl
    rw [himg, hheader]; simp [List.drop_append, h12, hm]
  rw [readSnapshot, if_neg (by rw [hlen]; simp only [kSnapshotHeaderBytes]; omega),
    if_neg (by rw [hlen]; simp only [kSnapshotHeaderBytes]; omega), if_neg (by rw [t8]; simp)]
  simp only [v8, l12, hv, hl, d20, d24, d28, t20, kSnapshotHeaderBytes, List.take_left' (leBytes_length _ _), c1, c2, hlen,
    hbl, kSnapshotFormatVersion, ne_eq, not_true_eq_false, if_false]
  rw [if_neg (not_lt.mpr hp), if_neg (by omega), hbody, List.take_left' (leBytes_length _ _),
    List.drop_left' (leBytes_length _ _), hn']

/-- recovery of a store with an intact snapshot depends on the journal only -/
theorem recover_of_holds {st : Store} {base : Option (ℕ × Bytes)} (h : Holds st base) :
    recover st = (do
      let (payloads, torn) ← readJournal st.journal
      let ordered ← orderRecords (baseSequence base) payloads
      pure {
        snapshotPresent := base.isSome, snapshotPayload := (base.map Prod.snd).getD [],
        snapshotSequence := baseSequence base, journalRecords := ordered, tornTailBytes := torn,
        journalRecordsSkipped := payloads.length - ordered.length }) := by
  unfold recover
  rw [h.1]
  cases base with
  | none => rfl
  | some b =>
    obtain ⟨hn, hp⟩ := h.2 b rfl
    simp only [Option.map_some, readSnapshot_image hn hp]
    rfl

/-- the payloads of the records of a list -/
def payloadsOf (es : List (ℕ × Bytes)) : List Bytes := es.map fun e => journalPayload e.1 e.2

theorem payloadsOf_legal {es : List (ℕ × Bytes)} (h : ∀ e ∈ es, Readable e) :
    ∀ q ∈ payloadsOf es, journalFormat.Legal q := by
  intro q hq
  obtain ⟨e, he, rfl⟩ := List.mem_map.mp hq
  exact journalPayload_legal (h e he)

theorem readJournal_of_scan {bytes : Bytes} {r : List Bytes × ℕ} (hsize : bytes.length ≤ kMaxJournalFileBytes)
    (h : journalFormat.scan bytes = .ok r) : readJournal bytes = .ok r := by
  rw [readJournal, if_neg (not_lt.mpr hsize), h]

theorem readJournal_ok {bytes : Bytes} {r : List Bytes × ℕ} (h : readJournal bytes = .ok r) :
    bytes.length ≤ kMaxJournalFileBytes ∧ journalFormat.scan bytes = .ok r := by
  unfold readJournal at h
  split_ifs at h with hsize
  refine ⟨not_lt.mp hsize, ?_⟩
  split at h
  · simp at h
  · next r' hr => rw [hr, Except.ok.inj h]

/-- whole records followed by any proper prefix of one more -/
theorem readJournal_torn {es : List (ℕ × Bytes)} (h : ∀ e ∈ es, Readable e) {e : ℕ × Bytes} (he : Readable e) {k : ℕ}
    (hk : k < (journalRecord e.1 e.2).length)
    (hsize : (journalBytes es ++ (journalRecord e.1 e.2).take k).length ≤ kMaxJournalFileBytes) :
    readJournal (journalBytes es ++ (journalRecord e.1 e.2).take k) = .ok (payloadsOf es, k) := by
  refine readJournal_of_scan hsize ?_
  have ht := journalFormat.scan_torn (journalPayload_legal he) (k := k) hk
  exact (journalFormat.scan_frames_ok _ (payloadsOf_legal h) _ _).mpr ⟨[], k, ht, by simp⟩

theorem readJournal_records {es : List (ℕ × Bytes)} (h : ∀ e ∈ es, Readable e)
    (hsize : (journalBytes es).length ≤ kMaxJournalFileBytes) :
    readJournal (journalBytes es) = .ok (payloadsOf es, 0) :=
  readJournal_of_scan hsize (journalFormat.scan_frames _ (payloadsOf_legal h))

/-- what is left of readable records once the snapshot covers some of them -/
theorem orderRecords_eq {es : List (ℕ × Bytes)} (h : ∀ e ∈ es, Readable e) (n : ℕ) :
    orderRecords n (payloadsOf es) =
      match SequencedLog.checkGaps n (SequencedLog.order (es.filter fun e => n < e.1)) with
      | .ok () => .ok (SequencedLog.order (es.filter fun e => n < e.1))
      | .error (previous, sequence) => .error (gapError previous sequence) := by
  have : (payloadsOf es).map splitRecord = es := map_splitRecord h
  rw [orderRecords, this]

theorem orderRecords_consecutive {es : List (ℕ × Bytes)} (h : ∀ e ∈ es, Readable e) {n : ℕ}
    (hc : SequencedLog.Consecutive (n + 1) es) : orderRecords n (payloadsOf es) = .ok es := by
  have hf : es.filter (fun e => n < e.1) = es := by
    rw [List.filter_eq_self]
    intro e he
    have := (hc.mem he).1
    simpa using this
  rw [orderRecords_eq h, hf, hc.order_eq, SequencedLog.checkGaps_of_consecutive hc]

/-- **Recovery of whole records and a torn tail.** Consecutive records after an intact snapshot are all recovered, whatever
proper prefix of another record follows them. -/
theorem recover_torn {st : Store} {base : Option (ℕ × Bytes)} (hb : Holds st base) {es : List (ℕ × Bytes)}
    (h : ∀ e ∈ es, Readable e) (hc : SequencedLog.Consecutive (baseSequence base + 1) es) {e : ℕ × Bytes}
    (he : Readable e) {k : ℕ} (hk : k < (journalRecord e.1 e.2).length)
    (hj : st.journal = journalBytes es ++ (journalRecord e.1 e.2).take k)
    (hsize : st.journal.length ≤ kMaxJournalFileBytes) :
    ∃ r, recover st = .ok r ∧ r.journalRecords = es ∧ r.snapshotSequence = baseSequence base ∧
      r.snapshotPresent = base.isSome ∧ r.snapshotPayload = (base.map Prod.snd).getD [] ∧ r.tornTailBytes = k := by
  rw [recover_of_holds hb, hj, readJournal_torn h he hk (hj ▸ hsize)]
  simp only [bind, Except.bind, orderRecords_consecutive h hc]
  exact ⟨_, rfl, rfl, rfl, rfl, rfl, rfl⟩

/-- **Recovery of whole records.** -/
theorem recover_clean {st : Store} {base : Option (ℕ × Bytes)} (hb : Holds st base) {es : List (ℕ × Bytes)}
    (h : ∀ e ∈ es, Readable e) (hc : SequencedLog.Consecutive (baseSequence base + 1) es)
    (hj : st.journal = journalBytes es) (hsize : st.journal.length ≤ kMaxJournalFileBytes) :
    ∃ r, recover st = .ok r ∧ r.journalRecords = es ∧ r.snapshotSequence = baseSequence base ∧
      r.snapshotPresent = base.isSome ∧ r.snapshotPayload = (base.map Prod.snd).getD [] ∧ r.tornTailBytes = 0 := by
  have he : Readable (0, []) := ⟨by decide, by decide⟩
  refine recover_torn hb h hc he (k := 0) (by simp) ?_ hsize
  rw [hj]; simp

/-- **Recovery of a journal with a gap.** -/
theorem recover_gap {st : Store} {base : Option (ℕ × Bytes)} (hb : Holds st base) {es : List (ℕ × Bytes)}
    (h : ∀ e ∈ es, Readable e) (hj : st.journal = journalBytes es) (hsize : st.journal.length ≤ kMaxJournalFileBytes)
    {previous sequence : ℕ} (hgap : SequencedLog.checkGaps (baseSequence base)
      (SequencedLog.order (es.filter fun e => baseSequence base < e.1)) = .error (previous, sequence)) :
    recover st = .error (gapError previous sequence) := by
  rw [recover_of_holds hb, hj, readJournal_records h (hj ▸ hsize)]
  simp only [bind, Except.bind, orderRecords_eq h, hgap]

/-! ## Stores in order -/

/-- the files hold a snapshot and the records after it, in order -/
structure Files (st : Store) (base : Option (ℕ × Bytes)) (es : List (ℕ × Bytes)) : Prop where
  snapshot : st.snapshotFile = base.map fun b => snapshotImage b.2 b.1
  covered : baseSequence base < 2 ^ 64
  journal : st.journal = journalBytes es
  readable : ∀ e ∈ es, Readable e
  consecutive : SequencedLog.Consecutive (baseSequence base + 1) es

/-- a snapshot file is accepted within its ceiling, or refused with a text that is not the gap's -/
def Accounted (bytes : Bytes) (x : Except Error (ℕ × Bytes)) : Prop :=
  (∃ y, x = .ok y ∧ bytes.length ≤ kSnapshotHeaderBytes + kMaxSnapshotPayloadBytes) ∨
    ∃ e, x = .error e ∧ e.message ≠ lit "journal sequence gap detected"

theorem accounted_ite {bytes : Bytes} {p : Prop} [Decidable p] {x y : Except Error (ℕ × Bytes)}
    (hx : Accounted bytes x) (hy : ¬ p → Accounted bytes y) : Accounted bytes (if p then x else y) := by
  by_cases h : p
  · rwa [if_pos h]
  · rw [if_neg h]
    exact hy h

theorem accounted_error {bytes : Bytes} (code : ErrorCode) (stage : String) {m : String} (context : Text)
    (hm : lit m ≠ lit "journal sequence gap detected") : Accounted bytes (.error (makeError code stage m context)) :=
  .inr ⟨_, rfl, hm⟩

theorem readSnapshot_accounted (bytes : Bytes) : Accounted bytes (readSnapshot bytes) := by
  unfold readSnapshot
  refine accounted_ite (accounted_error _ _ _ (by decide)) fun _ => ?_
  refine accounted_ite (accounted_error _ _ _ (by decide)) fun _ => ?_
  refine accounted_ite (accounted_error _ _ _ (by decide)) fun _ => ?_
  refine accounted_ite (accounted_error _ _ _ (by decide)) fun _ => ?_
  refine accounted_ite (accounted_error _ _ _ (by decide)) fun hmax => ?_
  refine accounted_ite (accounted_error _ _ _ (by decide)) fun _ => ?_
  refine accounted_ite (accounted_error _ _ _ (by decide)) fun hlen => ?_
  refine accounted_ite (accounted_error _ _ _ (by decide)) fun _ => ?_
  refine accounted_ite (accounted_error _ _ _ (by decide)) fun _ => .inl ⟨_, rfl, ?_⟩
  rw [not_not.mp hlen]
  exact Nat.add_le_add_left (not_lt.mp hmax) _

/-- an image that is accepted is read back -/
theorem readSnapshot_image_ok {n : ℕ} {p : Bytes} {x : ℕ × Bytes} (hn : n < 2 ^ 64)
    (h : readSnapshot (snapshotImage p n) = .ok x) : x = (n, p) := by
  obtain ⟨-, -, hlen⟩ | ⟨e, he, -⟩ := readSnapshot_accounted (snapshotImage p n)
  swap
  · rw [he] at h
    simp at h
  have himg : (snapshotImage p n).length = kSnapshotHeaderBytes + (8 + p.length) := by
    have hm : kSnapshotMagic.length = 8 := rfl
    simp [snapshotImage, kSnapshotHeaderBytes, hm]; omega
  have hp : 8 + p.length ≤ kMaxSnapshotPayloadBytes := by
    rw [himg] at hlen
    exact Nat.le_of_add_le_add_left hlen
  rw [readSnapshot_image hn hp] at h
  exact (Except.ok.inj h).symm

/-- no complaint about the snapshot is a gap in the journal -/
theorem readSnapshot_no_gap {bytes : Bytes} {e : Error} (h : readSnapshot bytes = .error e) (p q : ℕ) :
    e ≠ gapError p q := by
  obtain ⟨x, hx, -⟩ | ⟨e', he, hm⟩ := readSnapshot_accounted bytes
  · rw [hx] at h
    simp at h
  · obtain rfl := Except.error.inj (he.symm.trans h)
    rintro rfl
    exact hm rfl

theorem Files.readJournal {st : Store} {base : Option (ℕ × Bytes)} {es : List (ℕ × Bytes)} (h : Files st base es)
    {r : List Bytes × ℕ} (hr : readJournal st.journal = .ok r) : r = (payloadsOf es, 0) := by
  have hsize := (readJournal_ok hr).1
  rw [h.journal, readJournal_records h.readable (h.journal ▸ hsize)] at hr
  exact (Except.ok.inj hr).symm

theorem Files.readJournal_no_gap {st : Store} {base : Option (ℕ × Bytes)} {es : List (ℕ × Bytes)} (h : Files st base es)
    {e : Error} (hr : Persistence.readJournal st.journal = .error e) (p q : ℕ) : e ≠ gapError p q := by
  by_cases hsize : st.journal.length ≤ kMaxJournalFileBytes
  · rw [h.journal, readJournal_records h.readable (h.journal ▸ hsize)] at hr
    simp at hr
  · rw [Persistence.readJournal, if_pos (not_le.mp hsize)] at hr
    obtain rfl := Except.error.inj hr
    intro he
    have hm : lit "durable file exceeds the size ceiling" = lit "journal sequence gap detected" :=
      congrArg Error.message he
    exact absurd hm (by decide)

/-- **Recovery of files in order.** It reports no gap, and what it returns are the snapshot and the records. -/
theorem Files.recover {st : Store} {base : Option (ℕ × Bytes)} {es : List (ℕ × Bytes)} (h : Files st base es) :
    (∀ p q, Persistence.recover st ≠ .error (gapError p q)) ∧
      ∀ r, Persistence.recover st = .ok r → r.snapshotSequence = baseSequence base ∧ r.journalRecords = es := by
  -- what is left once the snapshot is read, or was not there
  have hrest : ∀ loaded : Option (ℕ × Bytes), (loaded.map Prod.fst).getD 0 = baseSequence base →
      ∀ x, (do
        let (payloads, torn) ← Persistence.readJournal st.journal
        let ordered ← orderRecords (baseSequence base) payloads
        pure ({
          snapshotPresent := loaded.isSome, snapshotPayload := (loaded.map Prod.snd).getD [],
          snapshotSequence := baseSequence base, journalRecords := ordered, tornTailBytes := torn,
          journalRecordsSkipped := payloads.length - ordered.length } : Recovery)) = x →
      (∀ p q, x ≠ .error (gapError p q)) ∧
        ∀ r, x = .ok r → r.snapshotSequence = baseSequence base ∧ r.journalRecords = es := by
    rintro loaded - x rfl
    cases hj : Persistence.readJournal st.journal with
    | error e =>
      exact ⟨fun p q he => h.readJournal_no_gap hj p q (Except.error.inj he), fun r hr => by simp [bind, Except.bind] at hr⟩
    | ok r =>
      obtain rfl := h.readJournal hj
      simp only [bind, Except.bind, orderRecords_consecutive h.readable h.consecutive]
      refine ⟨fun p q he => by simp [pure, Except.pure] at he, fun r hr => ?_⟩
      obtain rfl := Except.ok.inj hr
      exact ⟨rfl, rfl⟩
  unfold Persistence.recover
  rw [h.snapshot]
  cases base with
  | none => exact hrest none rfl _ rfl
  | some b =>
    dsimp only [Option.map_some]
    cases hs : readSnapshot (snapshotImage b.2 b.1) with
    | error e =>
      exact ⟨fun p q he => readSnapshot_no_gap hs p q (Except.error.inj he), fun r hr => by simp [bind, Except.bind] at hr⟩
    | ok x =>
      obtain rfl := readSnapshot_image_ok h.covered hs
      exact hrest (some (b.1, b.2)) rfl _ rfl

end FaultContainment.Persistence
