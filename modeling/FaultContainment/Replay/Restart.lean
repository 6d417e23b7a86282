/-
A restart restores the engine that stopped.

A node is an engine with its store. Sections append what they stage, a snapshot replaces the files by the state, and a restart
is a new process on the files the old one left. `Restorable` says that the files hold what the engine is: the state a recovery
starts from, and events that take any replica of it where the engine is. What a recovery does not bring back is what no view
looks at: placements and member lists, the resources noted on an incarnation, releases and known losses.

- `Backed.perform`, `Backed.recovers`: a section extends the files, a recovery replays them.
- `restorable_after`: every act that can be read back keeps a node restorable.
- `restart_run`: in every run, a restart restores.
-/
import FaultContainment.Documents.RoundTrip
import FaultContainment.Durability.FailedRecovery
import FaultContainment.Durability.Journal
import FaultContainment.Replay.Rebuilt

namespace FaultContainment.Replay

open FaultContainment.Lib FaultContainment.Ids FaultContainment.Enums FaultContainment.Records
open FaultContainment.DurableEvent FaultContainment.Engine FaultContainment.Persistence
open FaultContainment.Durability (Honest honest_run honest_recoverySection noFailure scopedOp perform_complete
  recoverySection_encodes beginEpoch_encodes recover_count Plain)
open FaultContainment.StateDocument (document readStateDocument writeStateDocument read_write WellFormed stateDocument
  sound_iff)

/-! ## Records -/

/-- an event that the journal gives back: its texts and collections keep to the ceilings of writer and reader -/
def Recorded (e : Event) : Prop := Clean e ∧ Fits e ∧ DurableEvent.Sound e ∧ DurableEvent.Counted e

theorem Recorded.decodes {e : Event} (h : Recorded e) : ∃ bytes, encodeEvent e = some bytes ∧ decodeEvent bytes = some e := by
  obtain ⟨hclean, hfits, hsound, hcounted⟩ := h
  obtain ⟨bytes, hbytes⟩ := (encodeEvent_iff e).mpr ⟨hclean, hfits⟩
  exact ⟨bytes, hbytes, decode_encode e hsound hcounted bytes hbytes⟩

theorem Recorded.encodes {e : Event} (h : Recorded e) : (encodeEvent e).isSome = true := by
  obtain ⟨bytes, hbytes, -⟩ := h.decodes
  rw [hbytes, Option.isSome_some]

theorem recorded_of_encodes {e : Event} (hencodes : (encodeEvent e).isSome = true) (hsound : DurableEvent.Sound e)
    (hcounted : DurableEvent.Counted e) : Recorded e := by
  obtain ⟨hclean, hfits⟩ := (encodeEvent_iff e).mp (Option.isSome_iff_exists.mp hencodes)
  exact ⟨hclean, hfits, hsound, hcounted⟩

/-- an event is recorded exactly when what is written of it decodes to it -/
theorem recorded_iff (e : Event) :
    Recorded e ↔ (encodeEvent e).any (fun bytes => decodeEvent bytes = some e) = true := by
  constructor
  · intro h
    obtain ⟨bytes, hbytes, hdecoded⟩ := h.decodes
    rw [hbytes]
    exact decide_eq_true hdecoded
  · intro h
    obtain ⟨bytes, hbytes, hdecoded⟩ := (Option.any_eq_true _ _).mp h
    obtain ⟨raw, -, hbody⟩ := Option.bind_eq_some_iff.mp (of_decide_eq_true hdecoded)
    unfold readBody at hbody
    split at hbody
    · next body hread =>
      split_ifs at hbody with hlost
      obtain rfl := Option.some.inj hbody
      obtain ⟨-, hsound, hcounted⟩ := (bodyCodec raw.kind).of_dec _ _ _ hread
      exact recorded_of_encodes (Option.isSome_iff_exists.mpr ⟨bytes, hbytes⟩)
        ⟨hsound, fun hkind hnone => hlost ⟨hkind, hnone⟩⟩ hcounted
    · simp at hbody

instance decidableRecorded (e : Event) : Decidable (Recorded e) := decidable_of_iff' _ (recorded_iff e)

/-- a journal gives back the recorded events that were staged -/
theorem encodeStaged_decoded {es : List Event} (h : ∀ e ∈ es, Recorded e) (n : ℕ) :
    (encodeStaged n es).map (fun record => decodeEvent record.2) = es.map some := by
  induction es generalizing n with
  | nil => rfl
  | cons e es ih =>
    obtain ⟨he, hes⟩ := List.forall_mem_cons.mp h
    obtain ⟨bytes, hbytes, hdecoded⟩ := he.decodes
    unfold encodeStaged
    rw [hbytes]
    dsimp only
    rw [List.map_cons, List.map_cons, hdecoded, ih hes]

theorem recorded_counters (i : Impl) : Recorded i.countersEvent :=
  recorded_of_encodes (Durability.counters_encodes i)
    ⟨by simp [Impl.countersEvent, bodyCodec, countersCodec], by simp [Impl.countersEvent]⟩
    (by simp [DurableEvent.Counted, Impl.countersEvent, bodyCodec, countersCodec])

/-- what a recovery records of itself is given back -/
theorem recorded_recovery (clk : Clock) (r : Recovery) (i : Impl) (hr : r.journalRecords.length < 10 ^ 10) :
    ∀ e ∈ (recoverySection clk r i).staged, Recorded e := by
  intro e he
  have hencodes := recoverySection_encodes clk r i hr e he
  unfold recoverySection commit at he
  dsimp only at he
  rw [List.nil_append, List.nil_append] at he
  rcases List.mem_cons.mp he with rfl | he
  · exact recorded_of_encodes hencodes ⟨trivial, by simp⟩ trivial
  · rw [List.mem_singleton.mp he]
    exact recorded_counters _

theorem recorded_beginEpoch (clk : Clock) (nowMs : UInt64) {reason : Text} (hreason : Plain 1000 reason) (i : Impl) :
    ∀ e ∈ (beginEpoch clk nowMs reason i).staged, Recorded e := by
  intro e he
  have hencodes := beginEpoch_encodes clk nowMs hreason i e he
  unfold beginEpoch commit at he
  dsimp only at he
  rw [List.nil_append, List.nil_append] at he
  rcases List.mem_cons.mp he with rfl | he
  · exact recorded_of_encodes hencodes ⟨trivial, by simp⟩ trivial
  · rw [List.mem_singleton.mp he]
    exact recorded_counters _

/-! ## The files -/

/-- the state a recovery starts its replay from -/
inductive Based (config : Config) : Option (ℕ × Bytes) → RuntimeSnapshot → Prop where
  | empty : Based config none config.emptyState
  | snapshot {n : ℕ} {payload : Bytes} {s : RuntimeSnapshot} :
    readStateDocument payload = some (s, []) → 8 + payload.length ≤ kMaxSnapshotPayloadBytes →
    Based config (some (n, payload)) s

/-- the files hold a state and events, numbered up to the durable sequence -/
structure Backed (config : Config) (start : RuntimeSnapshot) (events : List Event) (s : Sys) : Prop where
  attached : s.attached = true
  files : ∃ base es, Files s.store base es ∧ s.impl.durableSequence = baseSequence base + es.length ∧
    es.map (fun record => decodeEvent record.2) = events.map some ∧ Based config base start

/-- a node after a section whose events all reached the files -/
def extended {α : Type} (step : Step α) (s : Sys) : Sys :=
  { s with
    impl := step.sealed s.impl
    store := { s.store with journal := s.store.journal ++ journalBytes (step.pending s.impl) } }

/-- recorded events are all encoded -/
theorem length_pending {α : Type} {step : Step α} (hrecorded : ∀ e ∈ step.staged, Recorded e) (i : Impl) :
    (step.pending i).length = step.staged.length :=
  (encodeStaged_length_iff _ _).mpr fun e he => (hrecorded e he).encodes

theorem sequence_extended {α : Type} {step : Step α} (hrecorded : ∀ e ∈ step.staged, Recorded e) (s : Sys) :
    (extended step s).impl.durableSequence = s.impl.durableSequence + step.staged.length :=
  congrArg (s.impl.durableSequence + ·) (length_pending hrecorded s.impl)

theorem readable_pending {α : Type} {step : Step α} {i : Impl} (hrecorded : ∀ e ∈ step.staged, Recorded e)
    (hsmall : i.durableSequence + step.staged.length < 2 ^ 64) : ∀ w ∈ step.pending i, Readable w := fun _ hw =>
  encodeStaged_readable (lt_of_eq_of_lt (congrArg (i.durableSequence + ·) (length_pending hrecorded i)) hsmall) hw

/-- a section without failures reaches the files -/
theorem perform_recorded {α : Type} {s : Sys} {step : Step α} (ha : s.attached = true) (hs : Honest step)
    (hrecorded : ∀ e ∈ step.staged, Recorded e) (hsmall : s.impl.durableSequence + step.staged.length < 2 ^ 64) :
    s.perform {} step = (extended step s, step.result) :=
  perform_complete ha hs (readable_pending hrecorded hsmall)

/-- so the files hold its events too -/
theorem Backed.extended {config : Config} {start : RuntimeSnapshot} {events : List Event} {s : Sys} {α : Type}
    {step : Step α} (h : Backed config start events s) (hrecorded : ∀ e ∈ step.staged, Recorded e)
    (hsmall : s.impl.durableSequence + step.staged.length < 2 ^ 64) :
    Backed config start (events ++ step.staged) (extended step s) := by
  obtain ⟨base, es, hf, hseq, hdecoded, hbased⟩ := h.files
  have hread := readable_pending hrecorded hsmall
  have hnext := encodeStaged_consecutive s.impl.durableSequence step.staged
  refine ⟨h.attached, base, es ++ step.pending s.impl, ⟨hf.snapshot, hf.covered, ?_, fun e he => ?_, ?_⟩, ?_, ?_, hbased⟩
  · show s.store.journal ++ journalBytes (step.pending s.impl) = _
    rw [journalBytes_append, ← hf.journal]
  · exact (List.mem_append.mp he).elim (hf.readable e) (hread e)
  · refine (SequencedLog.consecutive_append _ _ _).mpr ⟨hf.consecutive, ?_⟩
    rwa [show baseSequence base + 1 + es.length = s.impl.durableSequence + 1 by omega]
  · rw [sequence_extended hrecorded, List.length_append, length_pending hrecorded, hseq, Nat.add_assoc]
  · rw [List.map_append, List.map_append, hdecoded]
    exact congrArg (events.map some ++ ·) (encodeStaged_decoded hrecorded _)

/-! ## A recovery -/

theorem Based.holds {config : Config} {base : Option (ℕ × Bytes)} {start : RuntimeSnapshot} (h : Based config base start)
    {st : Store} (hfile : st.snapshotFile = base.map fun b => snapshotImage b.2 b.1) (hcovered : baseSequence base < 2 ^ 64) :
    Holds st base := by
  refine ⟨hfile, fun b hb => ?_⟩
  cases h with
  | empty => simp at hb
  | snapshot _ hsize =>
    obtain rfl := Option.some.inj hb
    exact ⟨hcovered, hsize⟩

/-- a recovery loads the state a snapshot holds, or starts from none -/
theorem Based.loads {config : Config} {base : Option (ℕ × Bytes)} {start : RuntimeSnapshot} (h : Based config base start)
    {r : Recovery} (hpresent : r.snapshotPresent = base.isSome) (hpayload : r.snapshotPayload = (base.map Prod.snd).getD [])
    {i : Impl} (hi : i.config = config) :
    ∃ loaded, loadSnapshot r (resetForRecovery i) = some loaded ∧ loaded.state = start := by
  unfold loadSnapshot
  rw [hpresent, hpayload]
  cases h with
  | empty => exact ⟨_, rfl, congrArg Config.emptyState hi⟩
  | snapshot hread _ =>
    refine ⟨{ resetForRecovery i with state := start }, ?_, rfl⟩
    rw [Option.isSome_some, if_pos rfl, Option.map_some, Option.getD_some, hread]

/-- a recovery loads the state and applies the events, whatever proper prefix of a record follows them -/
theorem recovers_torn {config : Config} {base : Option (ℕ × Bytes)} {start : RuntimeSnapshot} {es : List (ℕ × Bytes)}
    {events : List Event} {s : Sys} (hbased : Based config base start) (hb : Holds s.store base)
    (hread : ∀ e ∈ es, Readable e) (hconsecutive : SequencedLog.Consecutive (baseSequence base + 1) es)
    (hdecoded : es.map (fun record => decodeEvent record.2) = events.map some) {e : ℕ × Bytes} (he : Readable e) {k : ℕ}
    (hk : k < (journalRecord e.1 e.2).length) (hjournal : s.store.journal = journalBytes es ++ (journalRecord e.1 e.2).take k)
    (hsize : s.store.journal.length ≤ kMaxJournalFileBytes) (clk : ℕ → Clock) (io : ℕ → Io) (nowMs : UInt64) {j : Impl}
    (hj : j.config = config) :
    ∃ r loaded, loaded.state = start ∧ r.journalRecords.length < 10 ^ 10 ∧
      recoverFromStore clk io nowMs { s with impl := j, attached := false } = resume clk io nowMs r
        { s with
          impl := takeOver (baseSequence base + es.length) nowMs (deriveCounters (applyAll events loaded))
          attached := true } := by
  obtain ⟨r, hr, hrecords, hsequence, hpresent, hpayload, -⟩ := recover_torn hb hread hconsecutive he hk hjournal hsize
  obtain ⟨loaded, hload, hstart⟩ := hbased.loads hpresent hpayload hj
  rw [← hrecords] at hdecoded
  obtain ⟨last, hreplay⟩ := replay_all hdecoded 0 r.snapshotSequence loaded
  have hlast : last = baseSequence base + es.length := by
    rw [hsequence, hrecords] at hreplay
    exact replay_sequence hconsecutive hreplay
  refine ⟨r, loaded, hstart, recover_count hr, ?_⟩
  unfold recoverFromStore
  rw [hr]
  dsimp only
  rw [hload]
  dsimp only
  rw [hreplay]
  dsimp only
  rw [hlast]

/-- a recovery brings back what the files hold -/
theorem Backed.recovers {config : Config} {start : RuntimeSnapshot} {events : List Event} {s : Sys}
    (h : Backed config start events s) (hsize : s.store.journal.length ≤ kMaxJournalFileBytes) (clk : ℕ → Clock)
    (io : ℕ → Io) (nowMs : UInt64) {j : Impl} (hj : j.config = config) :
    ∃ r loaded, loaded.state = start ∧ r.journalRecords.length < 10 ^ 10 ∧
      recoverFromStore clk io nowMs { s with impl := j, attached := false } = resume clk io nowMs r
        { s with impl := takeOver s.impl.durableSequence nowMs (deriveCounters (applyAll events loaded)) } := by
  obtain ⟨base, es, hf, hseq, hdecoded, hbased⟩ := h.files
  have he : Readable (0, []) := ⟨by decide, by decide⟩
  have hjournal : s.store.journal = journalBytes es ++ (journalRecord 0 []).take 0 := by
    rw [hf.journal, List.take_zero, List.append_nil]
  have hrecovers := recovers_torn hbased (hbased.holds hf.snapshot hf.covered) hf.readable hf.consecutive hdecoded he
    (k := 0) (by simp) hjournal hsize clk io nowMs hj
  rwa [← hseq, ← h.attached] at hrecovers

/-! ## Nodes -/

/-- what becomes of a node: a section, a snapshot, or a new process on the files the old one left -/
inductive Act where
  | call (c : Call)
  | snapshot
  | restart (clk : ℕ → Clock) (nowMs : UInt64)

/-- a node after an act, no write failing -/
def Act.after (config : Config) : Act → Sys → Sys
  | .call c, s => (s.call {} c).1
  | .snapshot, s => s.persistSnapshot.1
  | .restart clk nowMs, s => (Engine.restart clk noFailure config nowMs s).1

/-- a call whose records last: it flushes what it stages, a containment has its generation and its action identities, each
record can be read back, and there are sequence numbers for all of them -/
def Journaled (c : Call) (s : Sys) : Prop :=
  scopedOp c.op s.impl ∧ Room c s.impl ∧ (∀ e ∈ events c s.impl, Recorded e) ∧
    s.impl.durableSequence + (events c s.impl).length < 2 ^ 64

instance decidableJournaled (c : Call) (s : Sys) : Decidable (Journaled c s) := by
  unfold Journaled
  infer_instance

/-- the conditions on an act: the records of a call last, a snapshot that is written can be read back, and a recovery finds a
journal it reads and sequence numbers for its own records -/
def Lasting : Act → Sys → Prop
  | .call c, s => Journaled c s
  | .snapshot, s => s.impl.durableSequence < 2 ^ 64 ∧ ∀ payload, writeStateDocument s.impl.state = some payload →
      StateDocument.Sound (document s.impl.state) ∧ StateDocument.Counted (document s.impl.state) ∧
        8 + payload.length ≤ kMaxSnapshotPayloadBytes
  | .restart _ _, s => s.store.journal.length ≤ kMaxJournalFileBytes ∧ s.impl.durableSequence + 4 < 2 ^ 64

/-- a run of calls lasts when the records of each do -/
theorem journaled_run (config : Config) (cs : List Call) (s : Sys) :
    Runs.Along (Act.after config) Lasting (cs.map Act.call) s ↔
      Runs.Along (fun c s => (s.call {} c).1) Journaled cs s :=
  Runs.along_map Act.call cs s

/-- the snapshot of a well-formed state lasts when it fits -/
theorem lasting_snapshot {s : Sys} (hwell : WellFormed s.impl.state) (hsmall : s.impl.durableSequence < 2 ^ 64)
    (hsize : (stateDocument.enc (document s.impl.state)).all (fun payload => 8 + payload.length ≤ kMaxSnapshotPayloadBytes) =
      true) : Lasting .snapshot s := by
  obtain ⟨-, hsound, hcounted⟩ := hwell.wf
  refine ⟨hsmall, fun payload hpayload => ⟨(sound_iff _).mp hsound, hcounted, ?_⟩⟩
  rw [(Option.filter_eq_some_iff.mp hpayload).1] at hsize
  exact of_decide_eq_true hsize

/-- a node whose files hold what its engine is -/
structure Restorable (config : Config) (s : Sys) : Prop where
  fit : Fit s.impl
  backed : ∃ start events, Backed config start events s ∧
    ∀ k : Impl, k.state = start → Mirrors s.impl (applyAll events k)

theorem Fit.sealed {i : Impl} (h : Fit i) (n : ℕ) : Fit { i with durableSequence := n } :=
  ⟨h.named, ⟨h.cataloged.keyed, h.cataloged.stored⟩, h.numbered, h.verified, h.actions, h.allocated, h.contracts,
    h.genuine, h.settled, h.epoch⟩

theorem Fit.addHistory {i : Impl} (h : Fit i) (time : UInt64) (entry : HistoryEvent) : Fit (i.addHistory time entry) :=
  ⟨h.named, ⟨h.cataloged.keyed, h.cataloged.stored⟩, h.numbered, h.verified, h.actions, h.allocated, h.contracts,
    h.genuine, h.settled, h.epoch⟩

theorem mirrors_sealed (i : Impl) (n : ℕ) : Mirrors i { i with durableSequence := n } :=
  ⟨rfl, rfl, rfl, rfl, rfl, rfl, rfl, rfl, rfl, rfl⟩

theorem mirrors_extended {α : Type} (step : Step α) (s : Sys) : Mirrors step.impl (extended step s).impl :=
  mirrors_sealed step.impl _

theorem Fit.extended {α : Type} {step : Step α} (h : Fit step.impl) (s : Sys) : Fit (extended step s).impl :=
  h.sealed _

theorem mirrors_addHistory (i : Impl) (time : UInt64) (entry : HistoryEvent) : Mirrors i (i.addHistory time entry) :=
  ⟨rfl, rfl, rfl, rfl, rfl, rfl, rfl, rfl, rfl, rfl⟩

/-- a section keeps a node restorable -/
theorem Restorable.call {config : Config} {s : Sys} (h : Restorable config s) {c : Call}
    (hlasting : Lasting (.call c) s) : Restorable config (s.call {} c).1 := by
  obtain ⟨hscope, hroom, hrecorded, hsmall⟩ := hlasting
  obtain ⟨start, es, hbacked, hmirrors⟩ := h.backed
  have hcall : (s.call {} c).1 = extended (c.op.run c.clk s.impl) s :=
    congrArg Prod.fst (perform_recorded hbacked.attached (honest_run c s.impl hscope) hrecorded hsmall)
  rw [hcall]
  refine ⟨(fit_after c h.fit hroom).extended s, start, es ++ events c s.impl, hbacked.extended hrecorded hsmall,
    fun k hk => ?_⟩
  rw [applyAll_append]
  exact (mirrors_extended (c.op.run c.clk s.impl) s).symm.trans (mirrors_after c h.fit hroom (hmirrors k hk))

/-- a snapshot keeps a node restorable -/
theorem Restorable.snapshot {config : Config} {s : Sys} (h : Restorable config s)
    (hlasting : Lasting .snapshot s) : Restorable config s.persistSnapshot.1 := by
  obtain ⟨hsmall, hgiven⟩ := hlasting
  obtain ⟨start, es, hbacked, hmirrors⟩ := h.backed
  unfold Sys.persistSnapshot writeCapture saveSnapshot
  rw [if_pos hbacked.attached]
  dsimp only
  split
  · exact h
  · next payload hpayload =>
    split_ifs
    · exact h
    · obtain ⟨hsound, hcounted, hsize⟩ := hgiven payload hpayload
      obtain ⟨saved, hread, hdocument⟩ := read_write hsound hcounted hpayload
      refine ⟨h.fit, saved, [], ⟨hbacked.attached, some (s.impl.durableSequence, payload), [], ?_, rfl, rfl,
        .snapshot hread hsize⟩, fun k hk => mirrors_of_document ?_⟩
      · exact ⟨rfl, hsmall, rfl, by simp, SequencedLog.consecutive_nil _⟩
      · rw [applyAll_nil, hk, hdocument]

/-! ## A restart -/

abbrev renewalReason : Text := lit "coordinator restart; live authority requires revalidation"

/-- the epoch advance a recovery ends with -/
def renewal (clk : Clock) (nowMs : UInt64) : Call := ⟨clk, .beginEpoch nowMs renewalReason⟩

theorem room_renewal (clk : Clock) (nowMs : UInt64) (i : Impl) : Room (renewal clk nowMs) i :=
  fun id expected h => by simp [renewal] at h

theorem recorded_renewal (clk : Clock) (nowMs : UInt64) (i : Impl) :
    ∀ e ∈ (beginEpoch clk nowMs renewalReason i).staged, Recorded e :=
  recorded_beginEpoch clk nowMs ⟨Utf8.isValidUtf8_lit _, by decide⟩ i

theorem mirrors_noted (p : Prop) [Decidable p] (i : Impl) (time : UInt64) (entry : HistoryEvent) :
    Mirrors i (if p then i.addHistory time entry else i) := by
  split_ifs
  · exact mirrors_addHistory i time entry
  · exact .refl i

theorem Fit.noted {i : Impl} (h : Fit i) (p : Prop) [Decidable p] (time : UInt64) (entry : HistoryEvent) :
    Fit (if p then i.addHistory time entry else i) := by
  split_ifs
  · exact h.addHistory time entry
  · exact h

theorem mirrors_recovery (clk : Clock) (r : Recovery) (i : Impl) : Mirrors i (recoverySection clk r i).impl :=
  (mirrors_noted (r.tornTailBytes ≠ 0) i _ _).trans (mirrors_addHistory _ _ _)

theorem fit_recovery (clk : Clock) (r : Recovery) {i : Impl} (h : Fit i) : Fit (recoverySection clk r i).impl :=
  (h.noted (r.tornTailBytes ≠ 0) _ _).addHistory _ _

/-- what a recovery records of itself takes a replica nowhere -/
theorem mirrors_recorded (clk : Clock) (r : Recovery) {i j : Impl} (hm : Mirrors i j) :
    Mirrors (recoverySection clk r i).impl (applyAll (recoverySection clk r i).staged j) := by
  have hrecorded := mirrors_recovery clk r i
  refine hrecorded.symm.trans (hm.trans ?_)
  have hpolicy := congrArg Prod.snd (hm.symm.trans hrecorded).policy
  have hstamps := (hm.symm.trans hrecorded).stamps
  exact ⟨rfl, rfl, rfl, rfl, Prod.ext rfl hpolicy, rfl, rfl, rfl, rfl, hstamps⟩

/-- a recovery ends in two sections, its own record and the next epoch -/
theorem resume_extended {s : Sys} (ha : s.attached = true) {r : Recovery} (hcount : r.journalRecords.length < 10 ^ 10)
    (clk : ℕ → Clock) (nowMs : UInt64) (hsmall : s.impl.durableSequence + 4 < 2 ^ 64) :
    let noted := extended (recoverySection (clk 0) r s.impl) s
    noted.impl.durableSequence = s.impl.durableSequence + 2 ∧ resume clk noFailure nowMs r s =
      (extended (beginEpoch (clk 1) nowMs renewalReason noted.impl) noted, .ok (nextGeneration s.impl.state.epoch)) := by
  intro noted
  have hrecorded := recorded_recovery (clk 0) r s.impl hcount
  have hsequence : noted.impl.durableSequence = s.impl.durableSequence + 2 := sequence_extended hrecorded s
  have hnoted : s.perform {} (recoverySection (clk 0) r s.impl) = (noted, .ok ()) :=
    perform_recorded ha (honest_recoverySection (clk 0) r s.impl) hrecorded
      (lt_of_le_of_lt (Nat.add_le_add_left (by decide : 2 ≤ 4) _) hsmall)
  have hepoch : noted.impl.state.epoch = s.impl.state.epoch :=
    congrArg Prod.fst (mirrors_recovery (clk 0) r s.impl).stamps
  have hattached : noted.attached = true := ha
  refine ⟨hsequence, ?_⟩
  unfold resume
  dsimp only [noFailure]
  rw [hnoted]
  clear_value noted
  have hroom : noted.impl.durableSequence + 2 < 2 ^ 64 := by omega
  have hrenewed := perform_recorded hattached (.inl rfl) (recorded_renewal (clk 1) nowMs noted.impl) hroom
  rw [← hepoch]
  exact hrenewed

/-- the record of a recovery keeps a node restorable -/
theorem Restorable.noted {config : Config} {s : Sys} (h : Restorable config s) (clk : Clock) {r : Recovery}
    (hcount : r.journalRecords.length < 10 ^ 10) (hsmall : s.impl.durableSequence + 2 < 2 ^ 64) :
    Restorable config (extended (recoverySection clk r s.impl) s) := by
  obtain ⟨start, es, hbacked, hmirrors⟩ := h.backed
  refine ⟨(fit_recovery clk r h.fit).extended s, start, _,
    hbacked.extended (recorded_recovery clk r s.impl hcount) hsmall, fun k hk => ?_⟩
  rw [applyAll_append]
  exact (mirrors_extended (recoverySection clk r s.impl) s).symm.trans (mirrors_recorded clk r (hmirrors k hk))

/-- so does the next epoch -/
theorem Restorable.renewed {config : Config} {s : Sys} (h : Restorable config s) (clk : Clock) (nowMs : UInt64)
    (hsmall : s.impl.durableSequence + 2 < 2 ^ 64) :
    Restorable config (extended (beginEpoch clk nowMs renewalReason s.impl) s) := by
  obtain ⟨start, es, hbacked, hmirrors⟩ := h.backed
  refine ⟨(fit_after (renewal clk nowMs) h.fit (room_renewal clk nowMs s.impl)).extended s, start, _,
    hbacked.extended (recorded_renewal clk nowMs s.impl) hsmall, fun k hk => ?_⟩
  rw [applyAll_append]
  exact (mirrors_extended (beginEpoch clk nowMs renewalReason s.impl) s).symm.trans
    (mirrors_after (renewal clk nowMs) h.fit (room_renewal clk nowMs s.impl) (hmirrors k hk))

/-- a recovery that reaches its end begins the next epoch of the engine it rebuilt -/
theorem resume_mirrors {s : Sys} (ha : s.attached = true) {r : Recovery} (hcount : r.journalRecords.length < 10 ^ 10)
    (clk : ℕ → Clock) (nowMs : UInt64) (hsmall : s.impl.durableSequence + 4 < 2 ^ 64) :
    (resume clk noFailure nowMs r s).2 = .ok (nextGeneration s.impl.state.epoch) ∧
      Mirrors (beginEpoch (clk 1) nowMs renewalReason s.impl).impl (resume clk noFailure nowMs r s).1.impl := by
  have hnoted := (mirrors_recovery (clk 0) r s.impl).trans (mirrors_extended (recoverySection (clk 0) r s.impl) s)
  rw [(resume_extended ha hcount clk nowMs hsmall).2]
  generalize extended (recoverySection (clk 0) r s.impl) s = noted at hnoted ⊢
  exact ⟨rfl, (mirrors_beginEpoch hnoted (clk 1) (clk 1) nowMs nowMs renewalReason renewalReason).trans
    (mirrors_extended _ noted)⟩

theorem Restorable.resumed {config : Config} {s : Sys} (h : Restorable config s) {r : Recovery}
    (hcount : r.journalRecords.length < 10 ^ 10) (clk : ℕ → Clock) (nowMs : UInt64)
    (hsmall : s.impl.durableSequence + 4 < 2 ^ 64) : Restorable config (resume clk noFailure nowMs r s).1 := by
  obtain ⟨start, es, hbacked, -⟩ := h.backed
  obtain ⟨hsequence, hresume⟩ := resume_extended hbacked.attached hcount clk nowMs hsmall
  rw [hresume]
  refine (h.noted (clk 0) hcount (by omega)).renewed (clk 1) nowMs ?_
  rw [hsequence]
  omega

/-- **A restart restores.** A new process on the files of a restorable node recovers, begins the next epoch, and mirrors
the engine that stopped as that epoch finds it; and its node is restorable. -/
theorem Restorable.restart {config : Config} {s : Sys} (h : Restorable config s) {clk : ℕ → Clock} {nowMs : UInt64}
    (hlasting : Lasting (.restart clk nowMs) s) :
    Restorable config (Engine.restart clk noFailure config nowMs s).1 ∧
      (Engine.restart clk noFailure config nowMs s).2 = .ok (nextGeneration s.impl.state.epoch) ∧
      Mirrors ((renewal (clk 0) nowMs).after s.impl) (Engine.restart clk noFailure config nowMs s).1.impl := by
  obtain ⟨hsize, hsmall⟩ := hlasting
  obtain ⟨start, es, hbacked, hmirrors⟩ := h.backed
  obtain ⟨r, loaded, hstart, hcount, hrecovered⟩ := hbacked.recovers hsize (fun k => clk (k + 1)) noFailure nowMs
    (j := construct (clk 0) config) rfl
  have heq : Engine.restart clk noFailure config nowMs s = resume (fun k => clk (k + 1)) noFailure nowMs r
      { s with impl := takeOver s.impl.durableSequence nowMs (deriveCounters (applyAll es loaded)) } := hrecovered
  rw [heq]
  -- the engine as it was rebuilt
  have hreplayed := hmirrors loaded hstart
  have hsane := hreplayed.sane h.fit
  have hrebuilt := hreplayed.trans (mirrors_derived hsane s.impl.durableSequence nowMs)
  have hready : Restorable config
      { s with impl := takeOver s.impl.durableSequence nowMs (deriveCounters (applyAll es loaded)) } :=
    ⟨fit_derived hsane s.impl.durableSequence nowMs, start, es, ⟨hbacked.attached, hbacked.files⟩,
      fun k hk => hrebuilt.symm.trans (hmirrors k hk)⟩
  obtain ⟨hresult, hrenewed⟩ := resume_mirrors
    (s := { s with impl := takeOver s.impl.durableSequence nowMs (deriveCounters (applyAll es loaded)) }) hbacked.attached
    hcount (fun k => clk (k + 1)) nowMs hsmall
  refine ⟨hready.resumed hcount (fun k => clk (k + 1)) nowMs hsmall, ?_, Mirrors.trans ?_ hrenewed⟩
  · rw [hresult]
    exact congrArg (fun p => Except.ok (nextGeneration p.1)) hrebuilt.stamps
  · exact mirrors_beginEpoch hrebuilt (clk 0) (clk 2) nowMs nowMs renewalReason renewalReason

/-! ## Runs -/

/-- an act that lasts keeps a node restorable -/
theorem restorable_after {config : Config} (a : Act) (s : Sys) (hlasting : Lasting a s) (h : Restorable config s) :
    Restorable config (a.after config s) := by
  cases a with
  | call c => exact h.call hlasting
  | snapshot => exact h.snapshot hlasting
  | restart clk nowMs => exact (h.restart hlasting).1

/-- a new engine on an empty store -/
def fresh (clk : Clock) (config : Config) : Sys := { impl := construct clk config }

theorem restorable_fresh (clk : Clock) (config : Config) : Restorable config (fresh clk config) := by
  have hfiles : Files ({} : Store) none [] := ⟨rfl, by decide, rfl, by simp, SequencedLog.consecutive_nil _⟩
  refine ⟨fit_construct clk config, config.emptyState, [], ⟨rfl, none, [], hfiles, rfl, rfl, .empty⟩, fun k hk => ?_⟩
  rw [applyAll_nil]
  refine Mirrors.trans (j := { (construct clk config) with state := config.emptyState }) ?_ ?_
  · exact ⟨rfl, rfl, rfl, rfl, rfl, rfl, rfl, rfl, rfl, rfl⟩
  · exact mirrors_of_document (congrArg document hk)

/-- **A restart restores, in every run.** A run of sections, snapshots and restarts whose records can be read back leaves
files from which a new process recovers: it begins the next epoch, and it has the resources, domains, dependencies, workers,
policy, faults, containments, actions, degraded modes and stamps of the engine that stopped, as that epoch finds them. -/
theorem restart_run (clk : Clock) (config : Config) (acts : List Act) (clk' : ℕ → Clock) (nowMs : UInt64)
    (hlasting : Runs.Along (Act.after config) Lasting (acts ++ [.restart clk' nowMs]) (fresh clk config)) :
    let s := Runs.run (Act.after config) acts (fresh clk config)
    let s' := Engine.restart clk' noFailure config nowMs s
    s'.2 = .ok (nextGeneration s.impl.state.epoch) ∧ Mirrors ((renewal (clk' 0) nowMs).after s.impl) s'.1.impl := by
  intro s s'
  obtain ⟨hacts, hrestart, -⟩ := (Runs.along_append _ _ _ _ _).mp hlasting
  have hs : Restorable config s := Runs.run_inv restorable_after hacts (restorable_fresh clk config)
  exact (hs.restart hrestart).2

/-- a worker with two resources in a domain, one of which needs the other, and the death of the other -/
def failing : List Call := [
  ⟨ticks, .registerWorker ⟨1⟩ ⟨11⟩ (lit "127.0.0.1:7001") ⟨1⟩⟩,
  ⟨ticks, .registerResource { id := ⟨5⟩, name := lit "gpu", ownerWorker := ⟨1⟩, ownerBoot := ⟨11⟩ }⟩,
  ⟨ticks, .registerResource { id := ⟨6⟩, name := lit "model", ownerWorker := ⟨1⟩, ownerBoot := ⟨11⟩ }⟩,
  ⟨ticks, .registerDomain { id := ⟨1⟩, name := lit "rack", members := [⟨5⟩, ⟨6⟩] }⟩,
  ⟨ticks, .registerDependency
    { id := ⟨1⟩, source := ⟨5⟩, destination := ⟨6⟩, freshness := .fresh, integrity := .verified }⟩,
  ⟨ticks, .publishFault { subject := ⟨5⟩, kind := .processDeath, details := lit "exit 139" }⟩]

/-- the fault is contained, and the actions are handed over -/
def committing : List Call := [⟨ticks, .authorizeContainment ⟨1⟩ ⟨1⟩⟩, ⟨ticks, .dispatchBegin ⟨1⟩ true⟩]

/-- the node with the fault, all of it in the journal -/
def failed : Sys := Runs.run (Act.after {}) (failing.map Act.call) (fresh ticks {})

theorem lasting_failing : Runs.Along (Act.after {}) Lasting (failing.map Act.call) (fresh ticks {}) :=
  (journaled_run _ _ _).mpr (by decide +kernel)

/-- the node with the fault, all of it in the snapshot -/
theorem lasting_failed : Lasting .snapshot failed :=
  lasting_snapshot (by decide +kernel) (by decide +kernel) (by decide +kernel)

theorem restart_run_containing :
    let s := Runs.run (Act.after {}) (failing.map Act.call ++ .snapshot :: committing.map Act.call) (fresh ticks {})
    let s' := Engine.restart (fun _ => ticks) noFailure {} 9 s
    s'.2 = .ok (nextGeneration s.impl.state.epoch) ∧ Mirrors ((renewal ticks 9).after s.impl) s'.1.impl := by
  refine restart_run ticks {} _ (fun _ => ticks) 9 ?_
  rw [List.append_assoc, List.cons_append, Runs.along_append, Runs.along_cons, Runs.along_append]
  refine ⟨lasting_failing, lasting_failed, (journaled_run _ _ _).mpr ?_, ?_, trivial⟩
  · decide +kernel
  · unfold Lasting
    decide +kernel

end FaultContainment.Replay
