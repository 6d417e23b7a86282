/-
What a failed recovery leaves of the engine it was called on.

`recover_from_store` reads the files first and edits nothing when the store rejects them. After that it works in place: the
state, the releases and the known authority losses are cleared before the snapshot is decoded, the journal is applied record
by record, and the two sections that record the recovery are flushed at the end. Whatever fails past the store's own checks
therefore leaves a cleared or partly replayed engine.

- `recoverFromStore_ok_iff`: when a recovery succeeds, in terms of the files and the writes.
- `failedRecovery_iff`: for which files and writes a recovery that fails leaves every engine alone.
-/
import FaultContainment.Engine.Recovery
import FaultContainment.Durability.Corruption

namespace FaultContainment.Durability

open FaultContainment.Lib FaultContainment.Ids FaultContainment.Enums FaultContainment.Records
open FaultContainment.DurableEvent FaultContainment.Persistence FaultContainment.Engine FaultContainment.StateCodec
open FaultContainment.Utf8 FaultContainment.Lib.Codec

/-! ## The conditions -/

/-- all that a recovery sets is as it was -/
structure Unchanged (s s' : Sys) : Prop where
  state : s'.impl.state = s.impl.state
  releases : s'.impl.releases = s.impl.releases
  losses : s'.impl.authorityLossFaults = s.impl.authorityLossFaults
  digests : s'.impl.faultByDigest = s.impl.faultByDigest
  nextFault : s'.impl.nextFault = s.impl.nextFault
  nextAction : s'.impl.nextAction = s.impl.nextAction
  nextDegraded : s'.impl.nextDegraded = s.impl.nextDegraded
  sequence : s'.impl.durableSequence = s.impl.durableSequence
  attached : s'.attached = s.attached

/-- the store refuses its own files -/
def Rejected (st : Store) : Prop := ∃ e, recover st = .error e

/-- the snapshot, if there is one, decodes and is consumed exactly, and every record past it decodes and applies -/
structure Replayable (r : Recovery) : Prop where
  snapshot : r.snapshotPresent = true → ∃ s, StateDocument.readStateDocument r.snapshotPayload = some (s, [])
  records : ∀ record ∈ r.journalRecords, (decodeEvent record.2).isSome = true

/-- both appends of each of the two sections that record a recovery complete -/
def Written (io : ℕ → Io) : Prop := ∀ j < 2, ∀ k < 2, (io j).outcome k = .complete

/-- nothing fails past the store's own checks -/
def Completes (st : Store) (io : ℕ → Io) : Prop := (∃ r, recover st = .ok r ∧ Replayable r) ∧ Written io

/-! ## What a recovery records -/

/-- a text of at most `k` bytes that the writers accept -/
structure Plain (k : ℕ) (t : Text) : Prop where
  valid : isValidUtf8 t = true
  short : t.length ≤ k

theorem Plain.append {j k : ℕ} {s t : Text} (hs : Plain j s) (ht : Plain k t) : Plain (j + k) (s ++ t) :=
  ⟨isValidUtf8_append hs.valid ht.valid, by
    rw [List.length_append]
    exact Nat.add_le_add hs.short ht.short⟩

theorem plain_ofChars {cs : List Char} {k : ℕ} (h : cs.length ≤ k) : Plain (4 * k) (ofChars cs) := by
  refine ⟨isValidUtf8_ofChars cs, le_trans ?_ (Nat.mul_le_mul_left 4 h)⟩
  clear h
  induction cs with
  | nil => exact le_rfl
  | cons c cs ih =>
    have hc : (String.utf8EncodeChar c).length ≤ 4 := by
      rw [String.length_utf8EncodeChar]
      exact Char.utf8Size_le_four c
    have hsplit : ofChars (c :: cs) = String.utf8EncodeChar c ++ ofChars cs := rfl
    rw [hsplit, List.length_append, List.length_cons]
    omega

theorem plain_lit {s : String} {k : ℕ} (h : s.toList.length ≤ k) : Plain (4 * k) (lit s) := plain_ofChars h

/-- a number of at most `k` digits -/
theorem plain_decimal {n k : ℕ} (hk : 0 < k) (h : n < 10 ^ k) : Plain (4 * k) (decimal n) :=
  plain_ofChars (Nat.toDigits_length 10 n k hk h)

theorem plain_epoch (epoch : CoordinatorEpoch) : Plain 100 epoch.text := by
  have hname : Plain 16 (IdTag.name .coordinatorEpoch) := ⟨isValidUtf8_tag _, by decide⟩
  have hcolon : Plain 4 (lit ":") := plain_lit (k := 1) (by decide)
  have hvalue : Plain 80 (if epoch.valid then decimal epoch.value.toNat else lit "invalid") := by
    split_ifs
    · exact plain_decimal (k := 20) (by decide) (lt_of_lt_of_le epoch.value.toNat_lt (by decide))
    · exact ⟨isValidUtf8_lit _, by decide⟩
  exact (hname.append hcolon).append hvalue

/-- an audit record of two plain texts can be encoded, on an event whose body is empty -/
theorem audit_encodes {e : Event} {h : HistoryEvent} (hbody : (bodyCodec e.kind).enc e.body = some [])
    (he : e.history = some h) (hd : Plain kMaxStringBytes h.detail) (ha : Plain kMaxStringBytes h.authority) :
    (encodeEvent e).isSome = true := by
  obtain ⟨hclean, hfits⟩ := ((bodyCodec e.kind).enc_iff e.body).mp ⟨[], hbody⟩
  have htexts : historyEvent.clean h ∧ historyEvent.fits h := by
    simp [historyEvent, hd.valid, ha.valid, hd.short, ha.short, str]
  refine Option.isSome_iff_exists.mpr ((encodeEvent_iff e).mpr ⟨⟨hclean, ?_⟩, hfits, ?_, ?_⟩)
  · intro h' hh'
    obtain rfl := Option.some.inj (he.symm.trans hh')
    exact htexts.1
  · intro h' hh'
    obtain rfl := Option.some.inj (he.symm.trans hh')
    exact htexts.2
  · intro bs hbs
    obtain rfl := Option.some.inj (hbody.symm.trans hbs)
    exact Nat.zero_le _

theorem counters_encodes (i : Impl) : (encodeEvent i.countersEvent).isSome = true := by
  have hid : ∀ {t : IdTag}, (ident : Codec (Id t)).AtMost 8 := atMost_ident
  have hword : u64.AtMost 8 := Codec.atMost_word 8 _ _ _ _
  have hshort : countersCodec.AtMost 80 :=
    (hid.pair <| hid.pair <| hid.pair <| hid.pair <| hid.pair <| hid.pair <| hid.pair <| hword.pair <|
      hword.pair hword).iso _ _ _ _
  refine Option.isSome_iff_exists.mpr ((encodeEvent_iff _).mpr ⟨⟨?_, ?_⟩, ?_, ?_, ?_⟩)
  · simp [Impl.countersEvent, bodyCodec, countersCodec]
  · simp [Impl.countersEvent]
  · simp [Impl.countersEvent, bodyCodec, countersCodec]
  · simp [Impl.countersEvent]
  · intro bs hbs
    exact (hshort _ _ hbs).trans (by decide)

theorem Plain.mono {j k : ℕ} {t : Text} (h : Plain j t) (hjk : j ≤ k) : Plain k t := ⟨h.valid, h.short.trans hjk⟩

theorem recoverySection_encodes (clk : Clock) (r : Recovery) (i : Impl) (hr : r.journalRecords.length < 10 ^ 10) :
    ∀ e ∈ (recoverySection clk r i).staged, (encodeEvent e).isSome = true := by
  unfold recoverySection
  dsimp only
  generalize (if r.tornTailBytes ≠ 0 then _ else i) = j
  intro e he
  simp only [commit, List.nil_append, List.mem_cons, List.not_mem_nil, or_false] at he
  rcases he with rfl | rfl
  · have hyes : Plain 12 (lit (if r.snapshotPresent then "yes" else "no")) := by
      cases r.snapshotPresent
      · exact ⟨isValidUtf8_lit _, by decide⟩
      · exact ⟨isValidUtf8_lit _, by decide⟩
    have hcount : Plain 40 (decimal r.journalRecords.length) := plain_decimal (k := 10) (by decide) hr
    have hdetail := ((((plain_lit (s := "recovered durable state at epoch ") (k := 40) (by decide)).append
      (plain_epoch j.state.epoch)).append (plain_lit (s := "; snapshot=") (k := 20) (by decide))).append hyes).append
      (plain_lit (s := " journal records applied=") (k := 40) (by decide)) |>.append hcount
    exact audit_encodes (h := j.stamped _ _) rfl rfl (hdetail.mono (by decide)) ⟨rfl, Nat.zero_le _⟩
  · exact counters_encodes _

theorem beginEpoch_encodes (clk : Clock) (nowMs : UInt64) {reason : Text} (hreason : Plain 1000 reason) (i : Impl) :
    ∀ e ∈ (beginEpoch clk nowMs reason i).staged, (encodeEvent e).isSome = true := by
  intro e he
  simp only [beginEpoch, commit, List.nil_append, List.mem_cons, List.not_mem_nil, or_false] at he
  rcases he with rfl | rfl
  · have hepoch := plain_epoch (nextGeneration i.state.epoch)
    have hdetail := ((plain_lit (s := "epoch advanced to ") (k := 20) (by decide)).append hepoch).append
      (plain_lit (s := ": ") (k := 2) (by decide)) |>.append hreason
    have hauthority := (plain_lit (s := "CoordinatorEpoch ") (k := 20) (by decide)).append hepoch
    exact audit_encodes rfl rfl (hdetail.mono (by decide)) (hauthority.mono (by decide))
  · exact counters_encodes _

/-! ## When a flush succeeds -/

/-- a section whose events can all be encoded is flushed exactly when each append completes -/
theorem perform_isOk_iff {α : Type} {io : Io} {step : Step α} {s : Sys} (hattached : s.attached = true)
    (hflushed : step.flushed = true) (hresult : step.result.isOk = true)
    (hencodes : ∀ e ∈ step.staged, (encodeEvent e).isSome = true) :
    (s.perform io step).2.isOk = true ↔ ∀ k < step.staged.length, io.outcome k = .complete := by
  have hall := @appendAll_none_iff io.outcome (encodeStaged s.impl.durableSequence step.staged)
    (fun w => encodeStaged_short (w := w)) 0 s.store
  simp only [Nat.zero_add, (encodeStaged_length_iff _ _).mpr hencodes] at hall
  rw [← hall]
  simp only [Sys.perform, Sys.flush, Step.pending, hflushed, hattached, if_true]
  rcases appendAll io.outcome 0 s.store (encodeStaged s.impl.durableSequence step.staged) with ⟨st, _ | e⟩
  · simpa using hresult
  · simp [Except.isOk, Except.toBool]

theorem perform_attached {α : Type} (io : Io) (step : Step α) (s : Sys) :
    (s.perform io step).1.attached = s.attached := by
  unfold Sys.perform Sys.flush
  dsimp only
  split_ifs
  · split <;> rfl
  · rfl
  · rfl

/-! ## When a recovery succeeds -/

theorem loadSnapshot_isSome_iff (r : Recovery) (i : Impl) : (loadSnapshot r i).isSome = true ↔
    (r.snapshotPresent = true → ∃ s, StateDocument.readStateDocument r.snapshotPayload = some (s, [])) := by
  unfold loadSnapshot
  split_ifs with h
  · split
    · next s hs => simp [hs, h]
    · next hno =>
      simp only [Option.isSome_none, Bool.false_eq_true, false_iff]
      rintro hall
      obtain ⟨s, hs⟩ := hall h
      exact hno s hs
  · simp [h]

theorem replay_isOk_iff (index last : ℕ) (records : List (ℕ × Bytes)) (i : Impl) :
    (replay index last records i).2.isOk = true ↔ ∀ record ∈ records, (decodeEvent record.2).isSome = true := by
  induction records generalizing index last i with
  | nil => simp [replay, Except.isOk, Except.toBool]
  | cons record records ih =>
    rw [List.forall_mem_cons, replay]
    unfold decodeEvent
    split
    · next h => simp [h, Except.isOk, Except.toBool]
    · next raw h =>
      rw [h, Option.bind_some]
      split
      · next hbody => simp [hbody, Except.isOk, Except.toBool]
      · next e hbody =>
        rw [ih, hbody]
        exact (and_iff_right rfl).symm

/-- the records a recovery returns are frames of the journal file, so they are not many -/
theorem recover_count {st : Store} {r : Recovery} (h : recover st = .ok r) : r.journalRecords.length < 10 ^ 10 := by
  obtain ⟨ps, hscan, -, horder⟩ := recover_ok h
  obtain ⟨tail, hsplit, -, -⟩ := journalFormat.scan_split hscan
  have hframes : ps.length ≤ (journalFormat.frames ps).length := by
    rw [FrameFormat.frames_length]
    clear hsplit hscan horder
    induction ps with
    | nil => exact le_rfl
    | cons p ps ih =>
      rw [List.map_cons, List.sum_cons, List.length_cons]
      simp only [FrameFormat.headerLen] at ih ⊢
      omega
  have hkept : r.journalRecords.length ≤ ps.length := by
    rw [(orderRecords_ok horder).1.length_eq]
    exact (List.length_filter_le _ _).trans_eq (List.length_map splitRecord)
  have hsize := recover_size h
  rw [hsplit, List.length_append] at hsize
  simp only [kMaxJournalFileBytes] at hsize
  omega

/-- the two sections that record a recovery succeed when their four appends complete -/
theorem resume_isOk_iff {clk : ℕ → Clock} {io : ℕ → Io} {nowMs : UInt64} {r : Recovery} {s : Sys}
    (hattached : s.attached = true) (hr : r.journalRecords.length < 10 ^ 10) :
    (resume clk io nowMs r s).2.isOk = true ↔ Written io := by
  have hfirst : (s.perform (io 0) (recoverySection (clk 0) r s.impl)).2.isOk = true ↔
      ∀ k < 2, (io 0).outcome k = .complete :=
    perform_isOk_iff hattached rfl rfl (recoverySection_encodes (clk 0) r s.impl hr)
  have hkept := perform_attached (io 0) (recoverySection (clk 0) r s.impl) s
  have hboth : Written io ↔ (∀ k < 2, (io 0).outcome k = .complete) ∧ ∀ k < 2, (io 1).outcome k = .complete := by
    constructor
    · exact fun h => ⟨h 0 (by decide), h 1 (by decide)⟩
    · rintro ⟨h0, h1⟩ (_ | _ | j) hj
      · exact h0
      · exact h1
      · omega
  unfold resume
  rcases hp : s.perform (io 0) (recoverySection (clk 0) r s.impl) with ⟨s', e | ⟨⟩⟩
  · rw [hp] at hfirst
    rw [hboth, ← hfirst]
    simp [Except.isOk, Except.toBool]
  · rw [hp] at hfirst hkept
    have hreason : Plain 1000 (lit "coordinator restart; live authority requires revalidation") :=
      ⟨isValidUtf8_lit _, by decide⟩
    have hsecond : (s'.perform (io 1) (beginEpoch (clk 1) nowMs
        (lit "coordinator restart; live authority requires revalidation") s'.impl)).2.isOk = true ↔
        ∀ k < 2, (io 1).outcome k = .complete :=
      perform_isOk_iff (hkept.trans hattached) rfl rfl (beginEpoch_encodes (clk 1) nowMs hreason s'.impl)
    rw [hboth, ← hfirst]
    exact hsecond.trans (and_iff_right rfl).symm

/-- **When a recovery succeeds.** The store accepts its files, the snapshot decodes, every record of the journal applies,
and every append completes. -/
theorem recoverFromStore_ok_iff (clk : ℕ → Clock) (io : ℕ → Io) (nowMs : UInt64) (s : Sys) :
    (recoverFromStore clk io nowMs s).2.isOk = true ↔ Completes s.store io := by
  unfold Completes recoverFromStore
  cases hr : recover s.store with
  | error e => simp [Except.isOk, Except.toBool]
  | ok r =>
    have hload := loadSnapshot_isSome_iff r (resetForRecovery s.impl)
    simp only [Except.ok.injEq, exists_eq_left']
    cases hl : loadSnapshot r (resetForRecovery s.impl) with
    | none =>
      rw [hl] at hload
      have hno : ¬ Replayable r := fun h => by simpa using hload.mpr h.snapshot
      simp [hno, Except.isOk, Except.toBool]
    | some loaded =>
      rw [hl] at hload
      have hreplay := replay_isOk_iff 0 r.snapshotSequence r.journalRecords loaded
      rcases hp : replay 0 r.snapshotSequence r.journalRecords loaded with ⟨i, e | last⟩
      · rw [hp] at hreplay
        have hno : ¬ Replayable r := fun h => by simpa [Except.isOk, Except.toBool] using hreplay.mpr h.records
        simp [hno, hp, Except.isOk, Except.toBool]
      · rw [hp] at hreplay
        have hyes : Replayable r := ⟨hload.mp rfl, hreplay.mp rfl⟩
        rw [and_iff_right hyes]
        simp only [hp]
        exact resume_isOk_iff rfl (recover_count hr)

/-! ## What a failure leaves -/

theorem applyEvent_releases (e : Event) (i : Impl) : (applyEvent e i).releases = i.releases := by
  obtain ⟨kind, body, history⟩ := e
  cases kind
  case history => cases history <;> rfl
  all_goals rfl

/-- what the reset establishes and every later part of a recovery keeps, a recovery past the store's own checks leaves,
whether or not it succeeds -/
theorem recoverFromStore_leaves {P : Impl → Prop} (hseal : ∀ i n, P i → P { i with durableSequence := n })
    (hfault : ∀ clk e i, P i → P (persistenceFault clk e i).impl)
    (hhistory : ∀ time entry i, P i → P (i.addHistory time entry))
    (hepoch : ∀ clk nowMs reason i, P i → P (beginEpoch clk nowMs reason i).impl)
    (hreset : ∀ i, P (resetForRecovery i)) (hload : ∀ i s, P i → P { i with state := s })
    (hevent : ∀ e i, P i → P (applyEvent e i)) (hcount : ∀ i last nowMs, P i → P (takeOver last nowMs (deriveCounters i)))
    {clk : ℕ → Clock} {io : ℕ → Io} {nowMs : UInt64} {s : Sys} {r : Recovery} (hr : recover s.store = .ok r) :
    P (recoverFromStore clk io nowMs s).1.impl := by
  have hresume : ∀ s' : Sys, P s'.impl → P (resume clk io nowMs r s').1.impl := by
    intro s' h
    have hmarked : P (s'.perform (io 0) (recoverySection (clk 0) r s'.impl)).1.impl := by
      refine perform_keeps hseal hfault (hhistory _ _ _ ?_)
      split_ifs
      · exact hhistory _ _ _ h
      · exact h
    unfold resume
    split
    · next s'' e hs'' =>
      rw [hs''] at hmarked
      exact hmarked
    · next s'' hs'' =>
      rw [hs''] at hmarked
      exact perform_keeps hseal hfault (hepoch _ _ _ _ hmarked)
  unfold recoverFromStore
  simp only [hr]
  cases hloaded : loadSnapshot r (resetForRecovery s.impl) with
  | none => exact hreset _
  | some loaded =>
    have hl : P loaded := by
      unfold loadSnapshot at hloaded
      split_ifs at hloaded
      · split at hloaded
        · exact Option.some.inj hloaded ▸ hload _ _ (hreset _)
        · simp at hloaded
      · exact Option.some.inj hloaded ▸ hreset _
    have hreplay := replay_keeps hevent r.journalRecords 0 r.snapshotSequence hl
    rcases hp : replay 0 r.snapshotSequence r.journalRecords loaded with ⟨i, detail | last⟩
    · rw [hp] at hreplay
      simp only [hp]
      exact hreplay
    · rw [hp] at hreplay
      simp only [hp]
      exact hresume _ (hcount _ _ _ hreplay)

/-- past the store's own checks, nothing of the releases the engine knew is left -/
theorem recoverFromStore_forgets {clk : ℕ → Clock} {io : ℕ → Io} {nowMs : UInt64} {s : Sys} {r : Recovery}
    (hr : recover s.store = .ok r) : (recoverFromStore clk io nowMs s).1.impl.releases = ∅ :=
  recoverFromStore_leaves (P := fun i => i.releases = ∅) (fun _ _ h => h) (fun _ _ _ h => h) (fun _ _ _ h => h)
    (fun _ _ _ _ h => h) (fun _ => rfl) (fun _ _ h => h) (fun e i h => (applyEvent_releases e i).trans h)
    (fun _ _ _ h => h) hr

/-- an engine that knows of one release -/
def oneRelease : Impl := { releases := (∅ : OrderedMap ResourceId ReleaseAssessment).insert ⟨5⟩ {} }

/-- **What a failed recovery leaves alone.** For every store content and every outcome of the writes: a recovery that
fails leaves every engine on that store as it was exactly when the store itself rejects the files, or nothing can fail
past its checks. -/
theorem failedRecovery_iff (clk : ℕ → Clock) (io : ℕ → Io) (nowMs : UInt64) (st : Store) :
    (∀ s : Sys, s.store = st → (recoverFromStore clk io nowMs s).2.isOk = false →
      Unchanged s (recoverFromStore clk io nowMs s).1) ↔ Rejected st ∨ Completes st io := by
  constructor
  · intro h
    cases hr : recover st with
    | error e => exact .inl ⟨e, hr⟩
    | ok r =>
      refine .inr ?_
      by_contra hno
      -- an engine that knows of a release
      let s : Sys := { impl := oneRelease, store := st }
      have hfails : (recoverFromStore clk io nowMs s).2.isOk = false := by
        rw [← Bool.not_eq_true, recoverFromStore_ok_iff]
        exact hno
      have hkept : oneRelease.releases = ∅ := (h s rfl hfails).releases ▸ recoverFromStore_forgets (s := s) hr
      have hknown : (oneRelease.releases.find ⟨5⟩).isSome = true := by decide
      rw [hkept] at hknown
      exact absurd hknown (by decide)
  · rintro (⟨e, he⟩ | hcompletes) s rfl hfails
    · have hstays : (recoverFromStore clk io nowMs s).1 = s := by
        unfold recoverFromStore
        rw [he]
      rw [hstays]
      exact ⟨rfl, rfl, rfl, rfl, rfl, rfl, rfl, rfl, rfl⟩
    · rw [(recoverFromStore_ok_iff clk io nowMs s).mpr hcompletes] at hfails
      exact absurd hfails (by decide)

/-- an engine that holds a resource and was never attached to a store, and a new store -/
def unattached : Sys :=
  { impl := (registerResource ticks { id := ⟨5⟩ } (construct ticks {})).impl, store := {}, attached := false }

/-- a disk that takes nothing -/
def fullDisk : ℕ → Io := fun _ => { outcome := fun _ => .failed 0 }

/-- the recovery fails at its first append: the resource is gone, and the engine is attached to the store -/
theorem failedRecovery_clears : ¬ ∀ (clk : ℕ → Clock) (io : ℕ → Io) (nowMs : UInt64) (s : Sys),
    (recoverFromStore clk io nowMs s).2.isOk = false → Unchanged s (recoverFromStore clk io nowMs s).1 := by
  intro h
  have hcleared : (recoverFromStore (fun _ => ticks) fullDisk 9 unattached).2.isOk = false ∧
      ((recoverFromStore (fun _ => ticks) fullDisk 9 unattached).1.impl.state.topology.resources.find ⟨5⟩).isSome = false ∧
        (unattached.impl.state.topology.resources.find ⟨5⟩).isSome = true := by
    decide +kernel
  obtain ⟨hfails, hgone, hheld⟩ := hcleared
  rw [(h _ _ _ _ hfails).state, hheld] at hgone
  exact absurd hgone (by decide)

end FaultContainment.Durability
