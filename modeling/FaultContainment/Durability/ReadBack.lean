/-
What the store accepts, and what of it is read back.

The append compares a payload with the record ceiling, and the reader the payload together with its sequence number. So do the
snapshot and its reader. The ceiling of the journal file is known to the reader alone; and a record is skipped when its
number is not above the snapshot's, which is 0 where there is no snapshot.

- `readsBack_iff`: exactly when the calls that were accepted are read back.
-/
import FaultContainment.Durability.Corruption

namespace FaultContainment.Durability

open FaultContainment.Lib FaultContainment.Ids FaultContainment.Enums FaultContainment.Records
open FaultContainment.Persistence

/-! ## Accepted calls -/

/-- calls of `append_record` with the numbers from `first` on, up to the first call that fails -/
def appendSeries (st : Store) (first : ℕ) : List (Bytes × WriteOutcome) → Store × Except Error Unit
  | [] => (st, .ok ())
  | (payload, io) :: rest =>
    match appendRecord st first payload io with
    | (st, .error e) => (st, .error e)
    | (st, .ok ()) => appendSeries st (first + 1) rest

/-- payloads with the numbers from `first` on -/
def numbered (first : ℕ) : List Bytes → List (ℕ × Bytes)
  | [] => []
  | payload :: rest => (first, payload) :: numbered (first + 1) rest

/-- a store in front of the calls: an empty one, or one whose snapshot was accepted last -/
inductive Begun : Option (ℕ × Bytes) → Store → Prop where
  | empty : Begun none {}
  | saved {prior st : Store} {sequence : ℕ} {payload : Bytes} (h : saveSnapshot prior payload sequence = (st, .ok ())) :
      Begun (some (sequence, payload)) st

/-- recovery returns the snapshot and the records, and nothing else -/
def ReadsBack (st : Store) (base : Option (ℕ × Bytes)) (es : List (ℕ × Bytes)) : Prop :=
  ∃ r, recover st = .ok r ∧ r.snapshotPresent = base.isSome ∧ r.snapshotPayload = (base.map Prod.snd).getD [] ∧
    r.snapshotSequence = baseSequence base ∧ r.journalRecords = es

/-- the reader's ceilings, and a first number that continues the snapshot's -/
structure Storable (base : Option (ℕ × Bytes)) (first : ℕ) (payloads : List Bytes) : Prop where
  snapshot : ∀ b, base = some b → 8 + b.2.length ≤ kMaxSnapshotPayloadBytes
  records : ∀ p ∈ payloads, 8 + p.length ≤ kMaxJournalRecordBytes
  journal : (payloads.map fun p => 20 + p.length).sum ≤ kMaxJournalFileBytes
  follows : payloads ≠ [] → baseSequence base < first ∧ (baseSequence base ≠ 0 → first = baseSequence base + 1)

theorem consecutive_numbered (first : ℕ) (payloads : List Bytes) : SequencedLog.Consecutive first (numbered first payloads) := by
  induction payloads generalizing first with
  | nil => exact SequencedLog.consecutive_nil first
  | cons p rest ih => exact (SequencedLog.consecutive_cons _ _ _).mpr ⟨rfl, ih _⟩

@[simp] theorem numbered_length (first : ℕ) (payloads : List Bytes) : (numbered first payloads).length = payloads.length := by
  induction payloads generalizing first with
  | nil => rfl
  | cons p rest ih => exact congrArg (· + 1) (ih _)

theorem map_snd_numbered (first : ℕ) (payloads : List Bytes) : (numbered first payloads).map Prod.snd = payloads := by
  induction payloads generalizing first with
  | nil => rfl
  | cons p rest ih => exact congrArg (p :: ·) (ih _)

/-- an append that succeeded has written its record behind the others, within the writer's ceiling -/
theorem appendRecord_ok {st st' : Store} {n : ℕ} {p : Bytes} {io : WriteOutcome}
    (h : appendRecord st n p io = (st', .ok ())) :
    p.length ≤ kMaxJournalRecordBytes ∧ st' = { st with journal := st.journal ++ journalRecord n p } := by
  unfold appendRecord at h
  by_cases hmax : kMaxJournalRecordBytes < p.length
  · rw [if_pos hmax] at h
    cases h
  rw [if_neg hmax] at h
  cases io with
  | complete =>
    cases h
    exact ⟨not_lt.mp hmax, rfl⟩
  | failed written => cases h

/-- **What accepted appends leave**: their records in order behind what was there. -/
theorem appendSeries_ok {st st' : Store} {first : ℕ} {calls : List (Bytes × WriteOutcome)}
    (h : appendSeries st first calls = (st', .ok ())) :
    st'.snapshotFile = st.snapshotFile ∧ st'.journal = st.journal ++ journalBytes (numbered first (calls.map Prod.fst)) ∧
      ∀ p ∈ calls.map Prod.fst, p.length ≤ kMaxJournalRecordBytes := by
  induction calls generalizing st first with
  | nil =>
    cases h
    exact ⟨rfl, (List.append_nil _).symm, fun p hp => by cases hp⟩
  | cons call rest ih =>
    obtain ⟨p, io⟩ := call
    unfold appendSeries at h
    rcases happend : appendRecord st first p io with ⟨mid, e | u⟩
    · rw [happend] at h
      cases h
    · rw [happend] at h
      obtain ⟨hmax, rfl⟩ := appendRecord_ok happend
      obtain ⟨hfile, hjournal, hrest⟩ := ih h
      refine ⟨hfile, ?_, ?_⟩
      · rw [hjournal, List.append_assoc, ← journalBytes_singleton (first, p), ← journalBytes_append]
        rfl
      · intro q hq
        rcases List.mem_cons.mp hq with rfl | hq
        · exact hmax
        · exact hrest q hq

/-- the files in front of the calls -/
theorem Begun.files {base : Option (ℕ × Bytes)} {st : Store} (h : Begun base st) :
    st.snapshotFile = base.map (fun b => snapshotImage b.2 b.1) ∧ st.journal = [] := by
  cases h with
  | empty => exact ⟨rfl, rfl⟩
  | saved h =>
    unfold saveSnapshot at h
    split_ifs at h with hmax
    · cases (Prod.mk.inj h).2
    · obtain ⟨rfl, -⟩ := Prod.mk.inj h
      exact ⟨rfl, rfl⟩

/-! ## What recovery refuses -/

/-- a snapshot that was read is within the reader's ceiling -/
theorem recover_snapshot {st : Store} {n : ℕ} {p : Bytes} (hfile : st.snapshotFile = some (snapshotImage p n))
    {r : Recovery} (h : recover st = .ok r) : 8 + p.length ≤ kMaxSnapshotPayloadBytes := by
  have himage : (snapshotImage p n).length = kSnapshotHeaderBytes + (8 + p.length) := by
    have hmagic : kSnapshotMagic.length = 8 := rfl
    simp only [snapshotImage, List.length_append, leBytes_length, hmagic]
  obtain ⟨-, -, hlen⟩ | ⟨e, he, -⟩ := readSnapshot_accounted (snapshotImage p n)
  · rw [himage] at hlen
    exact Nat.le_of_add_le_add_left hlen
  · unfold recover at h
    rw [hfile] at h
    simp [he, bind, Except.bind, Functor.map, Except.map] at h

/-- records that were read are within the reader's ceiling -/
theorem recover_records {st : Store} {es : List (ℕ × Bytes)} (hjournal : st.journal = journalBytes es)
    (hmax : ∀ e ∈ es, e.2.length ≤ kMaxJournalRecordBytes) {r : Recovery} (h : recover st = .ok r) :
    ∀ e ∈ es, 8 + e.2.length ≤ kMaxJournalRecordBytes := by
  obtain ⟨ps, hscan, -, -⟩ := recover_ok h
  rw [hjournal] at hscan
  have hlegal : ∀ q ∈ payloadsOf es, journalFormat.Legal q := by
    refine journalFormat.scan_legal (fun q hq => ?_) hscan
    obtain ⟨e, he, rfl⟩ := List.mem_map.mp hq
    rw [journalPayload_length]
    exact ⟨Nat.le_add_right 8 _, lt_of_le_of_lt (Nat.add_le_add_left (hmax e he) 8) (by decide)⟩
  intro e he
  have hle := (hlegal _ (List.mem_map_of_mem he)).2
  rwa [journalPayload_length] at hle

/-! ## Reading back -/

/-- records in order are what is ordered of them when the first is above the snapshot, and next where that counts -/
theorem orderRecords_follows {es : List (ℕ × Bytes)} (h : ∀ e ∈ es, Readable e) {n a : ℕ}
    (hc : SequencedLog.Consecutive a es) (hfollows : es ≠ [] → n < a ∧ (n ≠ 0 → a = n + 1)) :
    orderRecords n (payloadsOf es) = .ok es := by
  rcases eq_or_ne es [] with rfl | hne
  · rfl
  obtain ⟨hlt, hnext⟩ := hfollows hne
  have hkept : es.filter (fun e => n < e.1) = es := by
    rw [List.filter_eq_self]
    intro e he
    exact decide_eq_true (lt_of_lt_of_le hlt (hc.mem he).1)
  have hgaps : SequencedLog.checkGaps n es = .ok () := by
    by_cases hn : n = 0
    · subst hn
      refine (SequencedLog.checkGaps_zero_iff es fun e he => ?_).mpr ⟨a, hc⟩
      exact (lt_of_lt_of_le hlt (hc.mem he).1).ne'
    · exact (SequencedLog.checkGaps_iff hn es).mpr (hnext hn ▸ hc)
  rw [orderRecords_eq h, hkept, hc.order_eq, hgaps]

/-- what the records come to on disk -/
theorem length_journalBytes (es : List (ℕ × Bytes)) :
    (journalBytes es).length = ((es.map Prod.snd).map fun p => 20 + p.length).sum := by
  induction es with
  | nil => rfl
  | cons e es ih =>
    rw [← List.singleton_append, journalBytes_append, List.length_append, journalBytes_singleton, journalRecord_length, ih]
    rfl

/-- **What the store accepts is not all read back.** A snapshot or nothing, and then any number of records with consecutive
numbers, all of them accepted: recovery returns them exactly when the snapshot and every record leave room for their
sequence numbers, the records fit into one file, and their numbers follow the snapshot's. -/
theorem readsBack_iff {base : Option (ℕ × Bytes)} {st st' : Store} {first : ℕ} {calls : List (Bytes × WriteOutcome)}
    (hbegun : Begun base st) (hbase : baseSequence base < 2 ^ 64) (hnumbers : first + calls.length ≤ 2 ^ 64)
    (happended : appendSeries st first calls = (st', .ok ())) :
    ReadsBack st' base (numbered first (calls.map Prod.fst)) ↔ Storable base first (calls.map Prod.fst) := by
  obtain ⟨hfile, hjournal, hmax⟩ := appendSeries_ok happended
  rw [hbegun.files.1] at hfile
  rw [hbegun.files.2, List.nil_append] at hjournal
  generalize hpayloads : calls.map Prod.fst = payloads at *
  have hcount : first + payloads.length ≤ 2 ^ 64 := by rwa [← hpayloads, List.length_map]
  have hc := consecutive_numbered first payloads
  have hnumber : ∀ e ∈ numbered first payloads, e.1 < 2 ^ 64 := by
    intro e he
    have hlt := (hc.mem he).2
    rw [numbered_length] at hlt
    exact lt_of_lt_of_le hlt hcount
  have hsize : st'.journal.length = (payloads.map fun p => 20 + p.length).sum := by
    rw [hjournal, length_journalBytes, map_snd_numbered]
  have hmem : ∀ p, p ∈ payloads ↔ ∃ e ∈ numbered first payloads, e.2 = p := by
    intro p
    rw [← map_snd_numbered first payloads, List.mem_map, map_snd_numbered]
  constructor
  · rintro ⟨r, hr, -, -, hsequence, hrecords⟩
    obtain ⟨ps, -, -, horder⟩ := recover_ok hr
    have hrecord := recover_records hjournal (fun e he => hmax e.2 ((hmem _).mpr ⟨e, he, rfl⟩)) hr
    refine ⟨fun b hb => ?_, fun p hp => ?_, hsize ▸ recover_size hr, fun hne => ?_⟩
    · rw [hb] at hfile
      exact recover_snapshot hfile hr
    · obtain ⟨e, he, rfl⟩ := (hmem p).mp hp
      exact hrecord e he
    · obtain ⟨hperm, a, ha, hnext⟩ := orderRecords_ok horder
      rw [hrecords, hsequence] at hperm
      rw [hrecords] at ha
      rw [hsequence] at hnext
      cases payloads with
      | nil => exact absurd rfl hne
      | cons p rest =>
        have hfirst : (first, p) ∈ numbered first (p :: rest) := List.mem_cons_self
        have hkept := (List.mem_filter.mp (hperm.mem_iff.mp hfirst)).2
        have ha' : first = a := ((SequencedLog.consecutive_cons _ _ _).mp ha).1
        exact ⟨of_decide_eq_true hkept, fun hn => ha'.trans (hnext hn)⟩
  · intro hstorable
    have hreadable : ∀ e ∈ numbered first payloads, Readable e := by
      intro e he
      exact ⟨hnumber e he, hstorable.records e.2 ((hmem _).mpr ⟨e, he, rfl⟩)⟩
    have hholds : Holds st' base := by
      refine ⟨hfile, fun b hb => ⟨?_, hstorable.snapshot b hb⟩⟩
      rwa [hb] at hbase
    have hordered : orderRecords (baseSequence base) (payloadsOf (numbered first payloads)) =
        .ok (numbered first payloads) := by
      refine orderRecords_follows hreadable hc fun hne => hstorable.follows ?_
      rintro rfl
      exact hne rfl
    have hwhole : (journalBytes (numbered first payloads)).length ≤ kMaxJournalFileBytes := by
      rw [← hjournal, hsize]
      exact hstorable.journal
    unfold ReadsBack
    rw [recover_of_holds hholds, hjournal, readJournal_records hreadable hwhole]
    simp only [bind, Except.bind, hordered]
    exact ⟨_, rfl, rfl, rfl, rfl, rfl⟩

/-- a snapshot and a record after it -/
theorem readsBack_iff_saved : ∃ st', ReadsBack st' (some (4, [1])) [(5, [2, 3])] := by
  have hsaved : saveSnapshot {} [1] 4 = ({ snapshotFile := some (snapshotImage [1] 4) }, .ok ()) := rfl
  have hstorable : Storable (some (4, [1])) 5 [[2, 3]] :=
    ⟨fun b hb => Option.some.inj hb ▸ by decide, by decide, by decide, fun _ => by decide⟩
  exact ⟨_, (@readsBack_iff _ _ _ 5 [([2, 3], .complete)] (.saved hsaved) (by decide) (by decide) rfl).mpr hstorable⟩

/-- writes that succeed within the writer's ceiling are all accepted -/
theorem appendSeries_complete {payloads : List Bytes} (h : ∀ p ∈ payloads, p.length ≤ kMaxJournalRecordBytes) (st : Store)
    (first : ℕ) : ∃ st', appendSeries st first (payloads.map fun p => (p, .complete)) = (st', .ok ()) := by
  induction payloads generalizing st first with
  | nil => exact ⟨st, rfl⟩
  | cons p rest ih =>
    obtain ⟨hp, hrest⟩ := List.forall_mem_cons.mp h
    obtain ⟨st', hst'⟩ := ih hrest { st with journal := st.journal ++ journalRecord first p } (first + 1)
    refine ⟨st', ?_⟩
    rw [List.map_cons, appendSeries, appendRecord, if_neg (not_lt.mpr hp)]
    exact hst'

/-- a snapshot of exactly the writer's ceiling, a record of exactly the writer's ceiling, records that come to more than a
journal file may hold, and a record with the number 0 are accepted, and not read back -/
theorem readsBack_fails :
    (∃ payload st, saveSnapshot {} payload 1 = (st, .ok ()) ∧ ∀ r, recover st ≠ .ok r) ∧
    (∃ payload st, appendRecord {} 1 payload .complete = (st, .ok ()) ∧ ∀ r, recover st ≠ .ok r) ∧
    (∃ calls st, appendSeries {} 1 calls = (st, .ok ()) ∧ (∀ p ∈ calls.map Prod.fst, 8 + p.length ≤ kMaxJournalRecordBytes) ∧
      ∀ r, recover st ≠ .ok r) ∧
    ∃ st r, appendRecord {} 0 [] .complete = (st, .ok ()) ∧ recover st = .ok r ∧ r.journalRecords = [] := by
  have hbytes : ∀ n : ℕ, ∃ p : Bytes, p.length = n := fun n => ⟨List.replicate n 0, List.length_replicate⟩
  refine ⟨?_, ?_, ?_, ?_⟩
  · obtain ⟨p, hp⟩ := hbytes kMaxSnapshotPayloadBytes
    refine ⟨p, { snapshotFile := some (snapshotImage p 1) }, if_neg (by rw [hp]; exact lt_irrefl _), fun r hr => ?_⟩
    have hle := recover_snapshot rfl hr
    rw [hp] at hle
    omega
  · obtain ⟨p, hp⟩ := hbytes kMaxJournalRecordBytes
    have happended : ∃ st, appendRecord {} 1 p .complete = (st, .ok ()) := by
      unfold appendRecord
      rw [if_neg (by rw [hp]; exact lt_irrefl _)]
      exact ⟨_, rfl⟩
    obtain ⟨st, hst⟩ := happended
    have hjournal : st.journal = journalBytes [(1, p)] := by
      have hwritten : st.journal = [] ++ journalRecord 1 p := congrArg Store.journal (appendRecord_ok hst).2
      rw [hwritten, List.nil_append, journalBytes_singleton (1, p)]
    refine ⟨p, st, hst, fun r hr => ?_⟩
    have hle := recover_records hjournal (fun e he => by rw [List.mem_singleton.mp he, hp]) hr (1, p) List.mem_cons_self
    rw [hp] at hle
    omega
  · obtain ⟨p, hp⟩ := hbytes (kMaxJournalRecordBytes - 8)
    have hmem : ∀ q ∈ List.replicate 65 p, q.length = kMaxJournalRecordBytes - 8 := by
      intro q hq
      rw [List.eq_of_mem_replicate hq, hp]
    obtain ⟨st', hst'⟩ := appendSeries_complete (fun q hq => by rw [hmem q hq]; omega) {} 1
    have hpayloads : ((List.replicate 65 p).map fun q => (q, WriteOutcome.complete)).map Prod.fst = List.replicate 65 p := by
      rw [List.map_map]
      exact List.map_id _
    refine ⟨_, st', hst', fun q hq => ?_, fun r hr => ?_⟩
    · rw [hpayloads] at hq
      rw [hmem q hq]
      exact (Nat.add_sub_of_le (by decide)).le
    · obtain ⟨-, hjournal, -⟩ := appendSeries_ok hst'
      have hsize := recover_size hr
      rw [hjournal, List.nil_append, hpayloads, length_journalBytes, map_snd_numbered, List.map_replicate,
        List.sum_replicate, hp] at hsize
      revert hsize
      decide
  · have hholds : Holds { journal := [] ++ journalRecord 0 [] } none := ⟨rfl, fun b hb => by cases hb⟩
    have hread := @readJournal_records [(0, [])] (by decide) (by rw [length_journalBytes]; decide)
    have horder : orderRecords 0 (payloadsOf [(0, [])]) = .ok [] := by
      rw [orderRecords_eq (by decide)]
      rfl
    have hrecover : recover { journal := [] ++ journalRecord 0 [] } = .ok { journalRecordsSkipped := 1 } := by
      rw [recover_of_holds hholds, ← journalBytes_singleton (0, []), List.nil_append, hread]
      simp only [bind, Except.bind]
      rw [baseSequence, Option.map_none, Option.getD_none, horder]
      rfl
    exact ⟨_, _, rfl, hrecover, rfl⟩

end FaultContainment.Durability
