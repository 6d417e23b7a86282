/-
Corruption that recovery does not notice.

Recovery cuts the journal into whole records and a torn tail, and discards the tail unread. A damaged length word makes the
last header it reads announce more than the file holds, and then whatever follows is discarded with it. The check for missing
records starts from the snapshot's sequence, and from nothing when that is 0.

- `overruns_iff`: when a discarded tail holds a complete record.
- `corruption_reported_iff`: recovery reports all corruption, apart from overrun lengths and lost leading records.
-/
import FaultContainment.Persistence

namespace FaultContainment.Durability

open FaultContainment.Lib FaultContainment.Ids FaultContainment.Enums FaultContainment.Records
open FaultContainment.Persistence

/-! ## What recovery should report -/

/-- the bytes start with a complete record: magic, length within bounds and within the bytes, checksum -/
def RecordAt (bs : Bytes) : Prop := ∃ p, journalFormat.Legal p ∧ journalFormat.frame p <+: bs

/-- nothing was lost silently: no complete record is discarded with the torn tail, and the records returned start right
after the snapshot -/
structure Reported (st : Store) (r : Recovery) : Prop where
  tail : ∀ k, 0 < k → ¬ RecordAt (st.journal.drop (st.journal.length - r.tornTailBytes + k))
  sequence : SequencedLog.Consecutive (r.snapshotSequence + 1) r.journalRecords

/-- the last header that is read announces more than the file holds, and a complete record follows it -/
def Overruns (journal : Bytes) : Prop :=
  ∃ ps n rest k, (∀ p ∈ ps, journalFormat.Legal p) ∧ n ≤ kMaxJournalRecordBytes ∧ rest.length < 4 + n ∧
    journal = journalFormat.frames ps ++ (leBytes 4 journalFormat.magic ++ leBytes 4 n ++ rest) ∧ RecordAt (rest.drop k)

/-- the sequence number in the snapshot file, 0 when there is none -/
def snapshotNumber (st : Store) : ℕ :=
  (st.snapshotFile.map fun bytes => leNat ((bytes.drop kSnapshotHeaderBytes).take 8)).getD 0

/-- no snapshot counts, and the journal holds numbered records without the first -/
def LeadLost (st : Store) : Prop :=
  snapshotNumber st = 0 ∧ ∃ ps tail, (∀ p ∈ ps, journalFormat.Legal p) ∧ journalFormat.Torn tail ∧
    st.journal = journalFormat.frames ps ++ tail ∧ (∃ p ∈ ps, 0 < (splitRecord p).1) ∧ ∀ p ∈ ps, (splitRecord p).1 ≠ 1

/-! ## The discarded tail -/

/-- a record is longer than a header -/
theorem RecordAt.length {bs : Bytes} (h : RecordAt bs) : 20 ≤ bs.length := by
  obtain ⟨p, hp, hprefix⟩ := h
  have hle := hprefix.length_le
  rw [FrameFormat.frame_length] at hle
  have hmin : 8 ≤ p.length := hp.1
  simp only [FrameFormat.headerLen] at hle
  omega

theorem leBytes_magic : leBytes 4 journalFormat.magic = [0x46, 0x43, 0x4A, 0x31] := by decide

/-- a record starts with the magic number -/
theorem RecordAt.magic {bs : Bytes} (h : RecordAt bs) : bs.take 4 = [0x46, 0x43, 0x4A, 0x31] := by
  obtain ⟨p, -, rest, rfl⟩ := h
  rw [journalFormat.header_take4, leBytes_magic]

/-- a length below the ceiling has a small last byte -/
theorem lastByte_of_le {b0 b1 b2 b3 : UInt8} (h : leNat [b0, b1, b2, b3] ≤ kMaxJournalRecordBytes) : b3 < 0x31 := by
  rw [UInt8.lt_iff_toNat_lt]
  simp only [leNat, kMaxJournalRecordBytes] at h
  have h31 : (0x31 : UInt8).toNat = 49 := rfl
  omega

/-- no record starts inside the magic number or the length of a header -/
theorem eight_le_of_recordAt {bs : Bytes} {k : ℕ} (hk : 0 < k) (hmagic : bs.take 4 = [0x46, 0x43, 0x4A, 0x31])
    (hlen : leNat ((bs.drop 4).take 4) ≤ kMaxJournalRecordBytes) (h : RecordAt (bs.drop k)) : 8 ≤ k := by
  have hlong := h.length
  have hstart := h.magic
  rw [List.length_drop] at hlong
  obtain ⟨c0, c1, c2, c3, c4, c5, c6, c7, rest, rfl⟩ : ∃ c0 c1 c2 c3 c4 c5 c6 c7 rest,
      bs = c0 :: c1 :: c2 :: c3 :: c4 :: c5 :: c6 :: c7 :: rest := by
    match bs, (by omega : 8 ≤ bs.length) with
    | c0 :: c1 :: c2 :: c3 :: c4 :: c5 :: c6 :: c7 :: rest, _ => exact ⟨c0, c1, c2, c3, c4, c5, c6, c7, rest, rfl⟩
  have hlast : c7 < 0x31 := lastByte_of_le hlen
  simp only [List.take_succ_cons, List.take_zero, List.cons.injEq, and_true] at hmagic
  obtain ⟨rfl, rfl, rfl, rfl⟩ := hmagic
  have hbig : ¬ (c7 = 0x31 ∨ c7 = 0x4A ∨ c7 = 0x43 ∨ c7 = 0x46) := by
    rintro (rfl | rfl | rfl | rfl) <;> exact absurd hlast (by decide)
  by_contra hsmall
  interval_cases k <;> simp [List.drop, List.take] at hstart
  · exact hbig (.inl hstart.2.2.2)
  · exact hbig (.inr (.inl hstart.2.2.1))
  · exact hbig (.inr (.inr (.inl hstart.2.1)))
  · exact hbig (.inr (.inr (.inr hstart.1)))

/-- a header that announces more than is left is a torn tail -/
theorem torn_overrun {n : ℕ} {rest : Bytes} (hn : n ≤ kMaxJournalRecordBytes) (hrest : rest.length < 4 + n) :
    journalFormat.Torn (leBytes 4 journalFormat.magic ++ leBytes 4 n ++ rest) := by
  have hn' : leNat (leBytes 4 n) = n := leNat_leBytes_of_lt (lt_of_le_of_lt hn journalFormat.maxLen_lt)
  have hmagic : leNat (leBytes 4 journalFormat.magic) = journalFormat.magic := leNat_leBytes_of_lt journalFormat.magic_lt
  have hlen : ((leBytes 4 journalFormat.magic ++ leBytes 4 n ++ rest).drop 4).take 4 = leBytes 4 n := by
    simp [List.append_assoc]
  refine .inr ?_
  rw [hlen, hn']
  refine ⟨?_, hn, ?_⟩
  · simp [List.append_assoc, hmagic]
  · simp only [List.length_append, leBytes_length, FrameFormat.headerLen]
    omega

/-- **The tail.** A discarded tail holds a complete record exactly when its header announces more than the file holds. -/
theorem overruns_iff {journal : Bytes} {ps : List Bytes} {torn : ℕ} (h : journalFormat.scan journal = .ok (ps, torn)) :
    Overruns journal ↔ ∃ k, 0 < k ∧ RecordAt (journal.drop (journal.length - torn + k)) := by
  obtain ⟨tail, rfl, rfl, hlegal, htorn⟩ := journalFormat.scan_cut h
  have hdrop : ∀ k, (journalFormat.frames ps ++ tail).drop ((journalFormat.frames ps ++ tail).length - tail.length + k) =
      tail.drop k := by
    intro k
    rw [List.length_append, Nat.add_sub_cancel, ← List.drop_drop, List.drop_left]
  simp only [hdrop]
  constructor
  · rintro ⟨qs, n, rest, k, hqs, hn, hrest, hsplit, hrecord⟩
    -- the cut is the one that was read
    rw [hsplit, journalFormat.scan_of_cut hqs (torn_overrun hn hrest)] at h
    obtain ⟨rfl, -⟩ := Prod.mk.inj (Except.ok.inj h)
    obtain rfl := List.append_cancel_left hsplit
    refine ⟨8 + k, by omega, ?_⟩
    have h8 : (leBytes 4 journalFormat.magic ++ leBytes 4 n ++ rest).drop (8 + k) = rest.drop k := by
      rw [← List.drop_drop, List.drop_left' (by simp)]
    rwa [h8]
  · rintro ⟨k, hk, hrecord⟩
    have hlong := hrecord.length
    rw [List.length_drop] at hlong
    rcases htorn with hshort | ⟨hmagic, hlen, hshort⟩
    · simp only [FrameFormat.headerLen] at hshort
      omega
    · have hm : leBytes 4 journalFormat.magic = tail.take 4 := by
        rw [← hmagic]
        have hback := leBytes_leNat (tail.take 4)
        rwa [List.length_take_of_le (by omega)] at hback
      have hn : leBytes 4 (leNat ((tail.drop 4).take 4)) = (tail.drop 4).take 4 := by
        have hback := leBytes_leNat ((tail.drop 4).take 4)
        rwa [List.length_take_of_le (by rw [List.length_drop]; omega)] at hback
      have h8 : 8 ≤ k := eight_le_of_recordAt hk (hm ▸ leBytes_magic) hlen hrecord
      refine ⟨ps, leNat ((tail.drop 4).take 4), tail.drop 8, k - 8, hlegal, hlen, ?_, ?_, ?_⟩
      · rw [List.length_drop]
        simp only [FrameFormat.headerLen] at hshort
        omega
      · rw [hm, hn]
        have htail : tail.drop 4 = (tail.drop 4).take 4 ++ tail.drop 8 := by
          have hcut := (List.take_append_drop 4 (tail.drop 4)).symm
          rwa [List.drop_drop] at hcut
        rw [List.append_assoc, ← htail, List.take_append_drop]
      · rwa [List.drop_drop, Nat.add_sub_cancel' h8]

/-! ## The sequence -/

theorem ok_of_check {α : Type} {p : Prop} [Decidable p] {e : Error} {x : Except Error α} {y : α}
    (h : (if p then .error e else x) = .ok y) : x = .ok y := by
  by_cases hp : p
  · rw [if_pos hp] at h
    simp at h
  · rwa [if_neg hp] at h

/-- an accepted snapshot carries the sequence number in the file -/
theorem readSnapshot_number {bytes : Bytes} {x : ℕ × Bytes} (h : readSnapshot bytes = .ok x) :
    x.1 = leNat ((bytes.drop kSnapshotHeaderBytes).take 8) := by
  unfold readSnapshot at h
  replace h := ok_of_check (ok_of_check (ok_of_check h))
  replace h := ok_of_check (ok_of_check (ok_of_check h))
  replace h := ok_of_check (ok_of_check (ok_of_check h))
  rw [← Except.ok.inj h]

/-- what a recovery that succeeds has read -/
theorem recover_ok {st : Store} {r : Recovery} (h : recover st = .ok r) :
    ∃ ps, journalFormat.scan st.journal = .ok (ps, r.tornTailBytes) ∧ r.snapshotSequence = snapshotNumber st ∧
      orderRecords r.snapshotSequence ps = .ok r.journalRecords := by
  -- what is left once the snapshot is read, or was not there
  have hrest : ∀ loaded : Option (ℕ × Bytes), (loaded.map Prod.fst).getD 0 = snapshotNumber st → (do
        let cut ← readJournal st.journal
        let ordered ← orderRecords ((loaded.map Prod.fst).getD 0) cut.1
        pure ({
          snapshotPresent := loaded.isSome, snapshotPayload := (loaded.map Prod.snd).getD [],
          snapshotSequence := (loaded.map Prod.fst).getD 0, journalRecords := ordered, tornTailBytes := cut.2,
          journalRecordsSkipped := cut.1.length - ordered.length } : Recovery)) = .ok r →
      ∃ ps, journalFormat.scan st.journal = .ok (ps, r.tornTailBytes) ∧ r.snapshotSequence = snapshotNumber st ∧
        orderRecords r.snapshotSequence ps = .ok r.journalRecords := by
    intro loaded hnumber hr
    cases hj : readJournal st.journal with
    | error e => simp [hj, bind, Except.bind] at hr
    | ok cut =>
      obtain ⟨ps, torn⟩ := cut
      cases ho : orderRecords ((loaded.map Prod.fst).getD 0) ps with
      | error e => simp [hj, ho, bind, Except.bind] at hr
      | ok ordered =>
        simp only [hj, ho, bind, Except.bind, pure, Except.pure, Except.ok.injEq] at hr
        subst hr
        exact ⟨ps, (readJournal_ok hj).2, hnumber, ho⟩
  unfold recover at h
  cases hfile : st.snapshotFile with
  | none =>
    rw [hfile] at h
    exact hrest none (by simp [snapshotNumber, hfile]) h
  | some bytes =>
    rw [hfile] at h
    cases hs : readSnapshot bytes with
    | error e => simp [hs, bind, Except.bind, Functor.map, Except.map] at h
    | ok x =>
      simp only [hs, Functor.map, Except.map] at h
      refine hrest (some x) ?_ h
      simp [snapshotNumber, hfile, readSnapshot_number hs]

/-- a journal file above its ceiling is not read -/
theorem recover_size {st : Store} {r : Recovery} (h : recover st = .ok r) :
    st.journal.length ≤ kMaxJournalFileBytes := by
  by_contra hsize
  have hjournal : ∃ e, readJournal st.journal = .error e := ⟨_, if_pos (not_le.mp hsize)⟩
  obtain ⟨e, he⟩ := hjournal
  unfold recover at h
  cases hfile : st.snapshotFile with
  | none => simp [hfile, he, bind, Except.bind, pure, Except.pure] at h
  | some bytes =>
    cases hs : readSnapshot bytes with
    | error e => simp [hfile, hs, bind, Except.bind, Functor.map, Except.map] at h
    | ok x => simp [hfile, hs, he, bind, Except.bind, Functor.map, Except.map] at h

/-- the records that recovery returns are consecutive, from a first number that only a counting snapshot fixes -/
theorem orderRecords_ok {n : ℕ} {ps : List Bytes} {es : List (ℕ × Bytes)} (h : orderRecords n ps = .ok es) :
    es.Perm ((ps.map splitRecord).filter fun e => n < e.1) ∧ ∃ a, SequencedLog.Consecutive a es ∧
      (n ≠ 0 → a = n + 1) := by
  unfold orderRecords at h
  dsimp only at h
  split at h
  · next hgaps =>
    obtain rfl := Except.ok.inj h
    have hperm := SequencedLog.order_perm ((ps.map splitRecord).filter fun e => n < e.1)
    refine ⟨hperm, ?_⟩
    by_cases hn : n = 0
    · subst hn
      have hpos : ∀ e ∈ SequencedLog.order ((ps.map splitRecord).filter fun e => 0 < e.1), e.1 ≠ 0 := by
        intro e he
        have hmem := hperm.mem_iff.mp he
        have hlt := of_decide_eq_true (List.mem_filter.mp hmem).2
        omega
      obtain ⟨a, ha⟩ := (SequencedLog.checkGaps_zero_iff _ hpos).mp hgaps
      exact ⟨a, ha, fun h => absurd rfl h⟩
    · exact ⟨n + 1, (SequencedLog.checkGaps_iff hn _).mp hgaps, fun _ => rfl⟩
  · simp at h

/-- **The sequence.** The records start right after the snapshot, unless no snapshot counts and the first is missing. -/
theorem leadLost_iff {st : Store} {r : Recovery} (h : recover st = .ok r) :
    SequencedLog.Consecutive (r.snapshotSequence + 1) r.journalRecords ↔ ¬ LeadLost st := by
  obtain ⟨ps, hscan, hnumber, horder⟩ := recover_ok h
  obtain ⟨tail, hjournal, -, hlegal, htorn⟩ := journalFormat.scan_cut hscan
  obtain ⟨hperm, a, ha, hstart⟩ := orderRecords_ok horder
  by_cases hn : r.snapshotSequence = 0
  swap
  · rw [hstart hn] at ha
    exact ⟨fun _ hlost => hn (hnumber.trans hlost.1), fun _ => ha⟩
  rw [hn] at hperm ⊢
  constructor
  · rintro hfirst ⟨-, qs, tail', hqs, htorn', hsplit, ⟨q, hq, hpos⟩, hnone⟩
    rw [hsplit, journalFormat.scan_of_cut hqs htorn'] at hscan
    obtain ⟨rfl, -⟩ := Prod.mk.inj (Except.ok.inj hscan)
    -- some record is returned, so the first is, and it has number 1
    have hmem : splitRecord q ∈ r.journalRecords :=
      hperm.mem_iff.mpr (List.mem_filter.mpr ⟨List.mem_map_of_mem hq, decide_eq_true hpos⟩)
    cases hes : r.journalRecords with
    | nil =>
      rw [hes] at hmem
      simp at hmem
    | cons e es =>
      rw [hes] at hfirst hperm
      have he := ((SequencedLog.consecutive_cons _ _ _).mp hfirst).1
      obtain ⟨q', hq', rfl⟩ := List.mem_map.mp (List.mem_filter.mp (hperm.mem_iff.mp List.mem_cons_self)).1
      exact hnone q' hq' he
  · intro hkept
    cases hes : r.journalRecords with
    | nil => exact SequencedLog.consecutive_nil _
    | cons e es =>
      rw [hes] at ha hperm
      have he := ((SequencedLog.consecutive_cons _ _ _).mp ha).1
      obtain ⟨hmem, hpos⟩ := List.mem_filter.mp (hperm.mem_iff.mp List.mem_cons_self)
      obtain ⟨q, hq, rfl⟩ := List.mem_map.mp hmem
      -- the record with number 1 is among those returned, and they start at the smallest
      by_contra hne
      refine hkept ⟨hnumber ▸ hn, ps, tail, hlegal, htorn, hjournal, ⟨q, hq, of_decide_eq_true hpos⟩, fun q' hq' h1 => ?_⟩
      have hin : splitRecord q' ∈ splitRecord q :: es :=
        hperm.mem_iff.mpr (List.mem_filter.mpr ⟨List.mem_map_of_mem hq', decide_eq_true (by omega)⟩)
      have hge := (ha.mem hin).1
      have hpos := of_decide_eq_true hpos
      have hone : a = 1 := by omega
      rw [hone] at ha
      exact hne ha

/-- **Corruption is reported, but for two kinds of it.** A recovery that succeeds has lost nothing silently exactly when no
length overruns the file in front of a complete record, and the first record is there or a snapshot counts. -/
theorem corruption_reported_iff (st : Store) (r : Recovery) (h : recover st = .ok r) :
    Reported st r ↔ ¬ Overruns st.journal ∧ ¬ LeadLost st := by
  obtain ⟨ps, hscan, -, -⟩ := recover_ok h
  rw [← leadLost_iff h, overruns_iff hscan]
  constructor
  · rintro ⟨htail, hsequence⟩
    exact ⟨fun ⟨k, hk, hrecord⟩ => htail k hk hrecord, hsequence⟩
  · rintro ⟨htail, hsequence⟩
    exact ⟨fun k hk hrecord => htail ⟨k, hk, hrecord⟩, hsequence⟩

/-- the journal of one record is recovered, whatever torn tail follows it -/
theorem recover_one {st : Store} (hs : st.snapshotFile = none) {tail : Bytes} (ht : journalFormat.Torn tail)
    (hj : st.journal = journalBytes [(1, [])] ++ tail) (hsize : st.journal.length ≤ kMaxJournalFileBytes) :
    ∃ r, recover st = .ok r ∧ r.journalRecords = [(1, [])] ∧ r.snapshotSequence = 0 ∧ r.tornTailBytes = tail.length := by
  have hread : ∀ e ∈ [((1 : ℕ), ([] : Bytes))], Readable e := by decide
  have hscan : journalFormat.scan st.journal = .ok (payloadsOf [(1, [])], tail.length) := by
    rw [hj]
    exact journalFormat.scan_of_cut (payloadsOf_legal hread) ht
  have hholds : Holds st none := ⟨hs, fun _ h => by simp at h⟩
  rw [recover_of_holds hholds, readJournal_of_scan hsize hscan]
  simp only [bind, Except.bind, orderRecords_consecutive hread (n := baseSequence none) rfl]
  exact ⟨_, rfl, rfl, rfl, rfl⟩

/-- the first records of a journal -/
def firstRecords : List (ℕ × Bytes) := [(1, [1, 2]), (2, []), (3, [7])]

/-- and the write of a fourth, torn -/
def interrupted : Store where
  journal := journalBytes firstRecords ++ (journalRecord 4 [8, 9]).take 15

/-- whole records in front of a torn tail are reported in full -/
theorem corruption_reported_interrupted : ∃ r, recover interrupted = .ok r ∧ r.journalRecords = firstRecords ∧
    r.tornTailBytes = 15 ∧ Reported interrupted r := by
  have hsize : interrupted.journal.length ≤ kMaxJournalFileBytes := by
    simp [interrupted, journalBytes, firstRecords]
    decide
  have hholds : Holds interrupted none := ⟨rfl, fun _ h => by simp at h⟩
  have hread : ∀ e ∈ firstRecords, Readable e := by decide
  have hnext : Readable ((4 : ℕ), ([8, 9] : Bytes)) := by decide
  obtain ⟨r, hr, hrecords, hsequence, -, -, htorn⟩ := recover_torn hholds hread rfl hnext (k := 15) (by simp) rfl hsize
  refine ⟨r, hr, hrecords, htorn, (corruption_reported_iff interrupted r hr).mpr ⟨fun hover => ?_, (leadLost_iff hr).mp ?_⟩⟩
  · obtain ⟨ps, hscan, -, -⟩ := recover_ok hr
    obtain ⟨k, -, hrecord⟩ := (overruns_iff hscan).mp hover
    have hlong := hrecord.length
    rw [List.length_drop, htorn] at hlong
    omega
  · rw [hrecords, hsequence]
    rfl

/-- what is left of a second record with a damaged length word, and a third record -/
def overrun : Bytes := (journalRecord 2 []).drop 8 ++ journalRecord 3 []

/-- three records, the length word of the second damaged -/
def damaged : Store where
  journal := journalBytes [(1, [])] ++ (leBytes 4 journalFormat.magic ++ leBytes 4 4096 ++ overrun)

/-- a damaged length word discards the intact record behind it -/
theorem damaged_length_unreported : ¬ ∀ (st : Store) (r : Recovery), recover st = .ok r → Reported st r := by
  intro h
  have hlen : overrun.length = 32 := by simp [overrun]
  obtain ⟨r, hr, -, -, -⟩ := @recover_one damaged rfl _
    (torn_overrun (n := 4096) (by decide) (by rw [hlen]; decide)) rfl
    (by rw [damaged, journalBytes_singleton]; simp [hlen]; decide)
  have hover : Overruns damaged.journal := by
    refine ⟨payloadsOf [(1, [])], 4096, overrun, 12, payloadsOf_legal (by decide), by decide, by rw [hlen]; decide, rfl,
      journalPayload 3 [], journalPayload_legal (e := (3, [])) (by decide), ?_⟩
    rw [overrun, List.drop_left' (by simp)]
    exact List.prefix_rfl
  obtain ⟨ps, hscan, -, -⟩ := recover_ok hr
  obtain ⟨k, hk, hrecord⟩ := (overruns_iff hscan).mp hover
  exact (h damaged r hr).tail k hk hrecord

end FaultContainment.Durability
