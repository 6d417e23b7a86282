/-
The engine together with its durable store.

A locked section hands its staged events to `flush`, which appends them one by one and stops at the first failure; `Sys` is
the engine, the files of the store, and whether the store is attached. `perform` is one section and its flush. Snapshots,
`dispatch_containment`, `worker_authority_lost` and `shutdown` are built from it.

- `encodeStaged_consecutive`: the records of a section are numbered one after another, from the durable sequence on.
- `appendAll_complete`: without a failure, a flush appends exactly the records it is given.
-/
import FaultContainment.Lib.Runs
import FaultContainment.Engine.Ops
import FaultContainment.Persistence
import FaultContainment.StateDocument

namespace FaultContainment.Engine

open FaultContainment.Lib FaultContainment.Ids FaultContainment.Enums FaultContainment.Records
open FaultContainment.DurableEvent FaultContainment.Persistence

/-! ## Staging and flushing -/

/-- what `stage` makes of a section's events: numbered records; an event that cannot be encoded is dropped -/
def encodeStaged : ℕ → List Event → List (ℕ × Bytes)
  | _, [] => []
  | n, e :: es =>
    match encodeEvent e with
    | none => encodeStaged n es
    | some bytes => (n + 1, bytes) :: encodeStaged (n + 1) es

/-- how the writes of one flush end, and the clock readings if one of them fails -/
structure Io where
  outcome : ℕ → WriteOutcome := fun _ => .complete
  clk : Clock := fun _ => 0

/-- the loop of `flush` over the appends from number `k` on -/
def appendAll (outcome : ℕ → WriteOutcome) (k : ℕ) (st : Store) : List (ℕ × Bytes) → Store × Option Error
  | [] => (st, none)
  | (n, bytes) :: ws =>
    match appendRecord st n bytes (outcome k) with
    | (st, .ok ()) => appendAll outcome (k + 1) st ws
    | (st, .error e) => (st, some e)

/-- an engine and its store -/
structure Sys where
  impl : Impl
  store : Store := {}
  attached : Bool := true

/-- `flush` -/
def Sys.flush (io : Io) (pending : List (ℕ × Bytes)) (s : Sys) : Sys × Option Error :=
  if s.attached then
    match appendAll io.outcome 0 s.store pending with
    | (st, none) => ({ s with store := st }, none)
    | (st, some e) => ({ s with store := st, impl := (persistenceFault io.clk e s.impl).impl }, some e)
  else (s, none)

/-- the records a section stages -/
def Step.pending {α : Type} (step : Step α) (i : Impl) : List (ℕ × Bytes) := encodeStaged i.durableSequence step.staged

/-- the engine after a section: every staged record took a sequence number, whether or not it is flushed -/
def Step.sealed {α : Type} (step : Step α) (i : Impl) : Impl :=
  { step.impl with durableSequence := i.durableSequence + (step.pending i).length }

/-- a section and its flush; the error of the flush comes before the section's own result -/
def Sys.perform {α : Type} (io : Io) (step : Step α) (s : Sys) : Sys × Except Error α :=
  let sealed := { s with impl := step.sealed s.impl }
  let (s, failure) := if step.flushed then sealed.flush io (step.pending s.impl) else (sealed, none)
  (s, match failure with | some e => .error e | none => step.result)

/-- a call of a public operation that is one section -/
def Sys.call (io : Io) (c : Call) (s : Sys) : Sys × Except Error Unit := s.perform io (c.op.run c.clk s.impl)

/-! ## Operations of several sections -/

/-- `dispatch_containment`: the second section runs even when the first flush failed, and the first error counts -/
def dispatchContainment (clk : ℕ → Clock) (io : ℕ → Io) (generation : ContainmentGeneration)
    (executor : Option (ContainmentAction → Except Error Text)) (s : Sys) : Sys × Except Error DispatchSummary :=
  let first := dispatchBegin (clk 0) generation executor.isSome s.impl
  match first.result with
  | .error e => ({ s with impl := first.sealed s.impl }, .error e)
  | .ok (toDispatch, summary) =>
    let (s, flushed) := s.perform (io 0) first
    let attempts := toDispatch.map fun a => (a, (executor.getD fun _ => .ok []) a)
    let (s, result) := s.perform (io 1) (dispatchEnd (clk 1) attempts summary s.impl)
    match flushed with
    | .error e => (s, .error e)
    | .ok _ => (s, result)

/-- the observation `worker_authority_lost` publishes -/
def lossEvidence (kind : FaultKind) (subject : ResourceId) (generation : ResourceGeneration) (epoch : CoordinatorEpoch)
    (observationTimeMs : UInt64) (detail : Text) : FaultEvidence :=
  { kind := kind, subject := subject, subjectGeneration := generation, reporterKind := .coordinator, epoch := epoch
    provenance := .coordinatorObservation, observationSequence := ⟨observationTimeMs⟩
    publicationTimeMs := observationTimeMs, freshness := .fresh, integrity := .verified, confidencePermille := 1000
    details := detail }

/-- `worker_authority_lost` -/
def workerAuthorityLost (clk : ℕ → Clock) (io : ℕ → Io) (worker : WorkerId) (boot : WorkerBootId) (kind : FaultKind)
    (detail : Text) (observationTimeMs : UInt64) (s : Sys) : Sys × Except Error ContainmentRecord :=
  match s.perform (io 0) (authorityLost (clk 0) worker boot detail observationTimeMs s.impl) with
  | (s, .error e) => (s, .error e)
  | (s, .ok (.alreadyContained containment)) => (s, .ok containment)
  | (s, .ok (.fenced subject generation)) =>
    let evidence := lossEvidence kind subject generation s.impl.state.epoch observationTimeMs detail
    match s.perform (io 1) (publishFault (clk 1) evidence s.impl) with
    | (s, .error e) => (s, .error e)
    | (s, .ok fault) =>
      let (s, _) := s.perform (io 2) (noteAuthorityLoss ⟨worker, boot⟩ fault.evidence.id s.impl)
      s.perform (io 3) (authorizeContainment (clk 2) fault.evidence.id fault.evidence.generation s.impl)

/-- what `persist_snapshot` copies under the lock -/
def capture (i : Impl) : RuntimeSnapshot × ℕ := (i.state, i.durableSequence)

/-- the rest of `persist_snapshot`: a state that cannot be encoded leaves the store alone -/
def writeCapture (captured : RuntimeSnapshot × ℕ) (st : Store) : Store × Except Error Unit :=
  match StateDocument.writeStateDocument captured.1 with
  | none => (st, .error (makeError .persistenceIo "persist.snapshot" "state document encoding failed"))
  | some payload => saveSnapshot st payload captured.2

/-- `persist_snapshot`, with nothing between its two sections -/
def Sys.persistSnapshot (s : Sys) : Sys × Except Error Unit :=
  if s.attached then
    let (st, result) := writeCapture (capture s.impl) s.store
    ({ s with store := st }, result)
  else (s, .ok ())

/-- `shutdown` -/
def Sys.shutdown (clk : Clock) (s : Sys) : Sys :=
  if s.impl.shuttingDown then s
  else (s.perform {} (requestShutdown clk s.impl)).1.persistSnapshot.1

/-! ## Runs of sections -/

/-- one section of a run, with its writes -/
structure Section where
  io : Io := {}
  call : Call

/-- an engine and its store after a section -/
def Section.after (c : Section) (s : Sys) : Sys := (s.call c.io c.call).1

/-- the section of `worker_authority_lost` that may stage without flushing -/
def Op.losesAuthority : Op → Bool
  | .authorityLost _ _ _ _ => true
  | _ => false

theorem perform_void {α : Type} (io : Io) (step : Step α) (s : Sys) :
    (s.perform io step.void).1 = (s.perform io step).1 := rfl

/-- `dispatch_containment` is a run of sections -/
theorem dispatchContainment_run (clk : ℕ → Clock) (io : ℕ → Io) (generation : ContainmentGeneration)
    (executor : Option (ContainmentAction → Except Error Text)) (s : Sys) :
    ∃ cs : List Section, (dispatchContainment clk io generation executor s).1 = Runs.run Section.after cs s ∧
      ∀ c ∈ cs, (∃ k, c.io = io k) ∧ c.call.op.losesAuthority = false := by
  have hfirst : ∀ s' : Sys, (⟨io 0, clk 0, .dispatchBegin generation executor.isSome⟩ : Section).after s' =
      (s'.perform (io 0) (dispatchBegin (clk 0) generation executor.isSome s'.impl)).1 := fun s' => perform_void _ _ _
  unfold dispatchContainment
  dsimp only
  split
  · next e he =>
    refine ⟨[⟨io 0, clk 0, .dispatchBegin generation executor.isSome⟩], ?_, by simp [Op.losesAuthority]⟩
    rw [Runs.run_cons, Runs.run_nil, hfirst]
    unfold dispatchBegin at he ⊢
    cases hadmitted : admitDispatch generation executor.isSome s.impl with
    | error e => rfl
    | ok record => simp [hadmitted] at he
  · next toDispatch summary hr =>
    have hsecond : ∀ attempts (s' : Sys), (⟨io 1, clk 1, .dispatchEnd attempts summary⟩ : Section).after s' =
        (s'.perform (io 1) (dispatchEnd (clk 1) attempts summary s'.impl)).1 := fun _ s' => perform_void _ _ _
    refine ⟨[⟨io 0, clk 0, .dispatchBegin generation executor.isSome⟩, ⟨io 1, clk 1, .dispatchEnd
      (toDispatch.map fun a => (a, (executor.getD fun _ => .ok []) a)) summary⟩], ?_, by simp [Op.losesAuthority]⟩
    rw [Runs.run_cons, Runs.run_cons, Runs.run_nil, hfirst, hsecond]
    split <;> rfl

/-- `worker_authority_lost` is a run of sections -/
theorem workerAuthorityLost_run (clk : ℕ → Clock) (io : ℕ → Io) (worker : WorkerId) (boot : WorkerBootId)
    (kind : FaultKind) (detail : Text) (observationTimeMs : UInt64) (s : Sys) :
    ∃ cs : List Section, (workerAuthorityLost clk io worker boot kind detail observationTimeMs s).1 =
        Runs.run Section.after (⟨io 0, clk 0, .authorityLost worker boot detail observationTimeMs⟩ :: cs) s ∧
      ∀ c ∈ cs, (∃ k, c.io = io k) ∧ c.call.op.losesAuthority = false := by
  unfold workerAuthorityLost
  rcases hp1 : s.perform (io 0) (authorityLost (clk 0) worker boot detail observationTimeMs s.impl) with
    ⟨s1, e | containment | ⟨subject, generation⟩⟩
  · exact ⟨[], congrArg Prod.fst hp1.symm, by simp⟩
  · exact ⟨[], congrArg Prod.fst hp1.symm, by simp⟩
  · have h1 : (⟨io 0, clk 0, .authorityLost worker boot detail observationTimeMs⟩ : Section).after s = s1 :=
      congrArg Prod.fst hp1
    dsimp only
    generalize lossEvidence kind subject generation s1.impl.state.epoch observationTimeMs detail = evidence
    rcases hp2 : s1.perform (io 1) (publishFault (clk 1) evidence s1.impl) with ⟨s2, e | fault⟩
    · refine ⟨[⟨io 1, clk 1, .publishFault evidence⟩], ?_, by simp [Op.losesAuthority]⟩
      rw [Runs.run_cons, h1]
      exact congrArg Prod.fst hp2.symm
    · refine ⟨[⟨io 1, clk 1, .publishFault evidence⟩, ⟨io 2, clk 1, .noteAuthorityLoss ⟨worker, boot⟩ fault.evidence.id⟩,
        ⟨io 3, clk 2, .authorizeContainment fault.evidence.id fault.evidence.generation⟩], ?_,
        by simp [Op.losesAuthority]⟩
      have h2 : (⟨io 1, clk 1, .publishFault evidence⟩ : Section).after s1 = s2 := congrArg Prod.fst hp2
      rw [Runs.run_cons, h1, Runs.run_cons, h2]
      rfl

/-! ## Facts about a flush -/

/-- a flush leaves the state alone, but for the record of a failure -/
theorem perform_impl {α : Type} (io : Io) (s : Sys) (step : Step α) :
    (s.perform io step).1.impl = step.sealed s.impl ∨
      ∃ e, (s.perform io step).1.impl = (persistenceFault io.clk e (step.sealed s.impl)).impl := by
  unfold Sys.perform Sys.flush
  dsimp only
  split
  · split
    · split
      · exact .inl rfl
      · exact .inr ⟨_, rfl⟩
    · exact .inl rfl
  · exact .inl rfl

/-- what neither the numbering of records nor the record of a failed append disturbs -/
theorem perform_keeps {α : Type} {P : Impl → Prop} (hseal : ∀ i n, P i → P { i with durableSequence := n })
    (hfault : ∀ clk e i, P i → P (persistenceFault clk e i).impl) {io : Io} {s : Sys} {step : Step α} (h : P step.impl) :
    P (s.perform io step).1.impl := by
  rcases perform_impl io s step with hp | ⟨e, hp⟩
  · rw [hp]
    exact hseal _ _ h
  · rw [hp]
    exact hfault _ _ _ (hseal _ _ h)

theorem encodeStaged_consecutive (n : ℕ) (es : List Event) : SequencedLog.Consecutive (n + 1) (encodeStaged n es) := by
  induction es generalizing n with
  | nil => exact SequencedLog.consecutive_nil _
  | cons e es ih =>
    unfold encodeStaged
    split
    · exact ih n
    · exact (SequencedLog.consecutive_cons _ _ _).mpr ⟨rfl, ih (n + 1)⟩

/-- no event is dropped exactly when each can be encoded -/
theorem encodeStaged_length_iff (n : ℕ) (es : List Event) :
    (encodeStaged n es).length = es.length ↔ ∀ e ∈ es, (encodeEvent e).isSome = true := by
  have hle : ∀ (n : ℕ) (es : List Event), (encodeStaged n es).length ≤ es.length := by
    intro n es
    induction es generalizing n with
    | nil => exact le_rfl
    | cons e es ih =>
      rw [encodeStaged]
      split
      · exact (ih n).trans (Nat.le_succ _)
      · exact Nat.succ_le_succ (ih (n + 1))
  induction es generalizing n with
  | nil => simp [encodeStaged]
  | cons e es ih =>
    rw [encodeStaged, List.forall_mem_cons]
    split
    · next he =>
      have hlt := hle n es
      simp only [he, List.length_cons, Option.isSome_none, Bool.false_eq_true, false_and, iff_false]
      omega
    · next bytes he => simp [he, ih]

/-- every record is an event that was encoded -/
theorem encodeStaged_encoded {n : ℕ} {es : List Event} {w : ℕ × Bytes} (h : w ∈ encodeStaged n es) :
    ∃ e ∈ es, encodeEvent e = some w.2 := by
  induction es generalizing n with
  | nil => simp [encodeStaged] at h
  | cons e es ih =>
    unfold encodeStaged at h
    split at h
    · obtain ⟨e', he', hw⟩ := ih h
      exact ⟨e', List.mem_cons_of_mem _ he', hw⟩
    · next bytes hb =>
      obtain rfl | h := List.mem_cons.mp h
      · exact ⟨e, List.mem_cons_self, hb⟩
      · obtain ⟨e', he', hw⟩ := ih h
        exact ⟨e', List.mem_cons_of_mem _ he', hw⟩

/-- an encoded event is below the ceiling of the append -/
theorem encodeStaged_short {n : ℕ} {es : List Event} {w : ℕ × Bytes} (h : w ∈ encodeStaged n es) :
    w.2.length ≤ kMaxJournalRecordBytes := by
  obtain ⟨e, -, he⟩ := encodeStaged_encoded h
  have hlen := encodeEvent_length he
  simp only [StateCodec.kMaxStringBytes, StateCodec.kMaxBlobBytes] at hlen
  simp only [kMaxJournalRecordBytes]
  omega

/-- what `stage` writes can be read back from a journal -/
theorem encodeStaged_readable {n : ℕ} {es : List Event} (hn : n + (encodeStaged n es).length < 2 ^ 64) {w : ℕ × Bytes}
    (h : w ∈ encodeStaged n es) : Readable w := by
  obtain ⟨e, -, he⟩ := encodeStaged_encoded h
  have hlen := encodeEvent_length he
  have hseq := ((encodeStaged_consecutive n es).mem h).2
  refine ⟨by omega, ?_⟩
  simp only [StateCodec.kMaxStringBytes, StateCodec.kMaxBlobBytes] at hlen
  simp only [kMaxJournalRecordBytes]
  omega

/-- an append of an encoded event never meets the record ceiling -/
theorem appendRecord_complete (st : Store) {w : ℕ × Bytes} (h : Readable w) :
    appendRecord st w.1 w.2 .complete = ({ st with journal := st.journal ++ journalRecord w.1 w.2 }, .ok ()) := by
  have hlen : ¬ kMaxJournalRecordBytes < w.2.length := by
    have := h.2
    omega
  rw [appendRecord, if_neg hlen]

/-- without a failure, a flush appends exactly the records it is given -/
theorem appendAll_complete (st : Store) {ws : List (ℕ × Bytes)} (h : ∀ w ∈ ws, Readable w) (k : ℕ) :
    appendAll (fun _ => .complete) k st ws = ({ st with journal := st.journal ++ journalBytes ws }, none) := by
  induction ws generalizing st k with
  | nil => simp [appendAll]
  | cons w ws ih =>
    rw [appendAll, appendRecord_complete st (h w List.mem_cons_self)]
    dsimp only
    rw [ih _ fun w' hw' => h w' (List.mem_cons_of_mem _ hw')]
    simp [journalBytes, journalRecord, FrameFormat.frames]

/-- a flush succeeds exactly when each append completes -/
theorem appendAll_none_iff (outcome : ℕ → WriteOutcome) {ws : List (ℕ × Bytes)}
    (h : ∀ w ∈ ws, w.2.length ≤ kMaxJournalRecordBytes) (k : ℕ) (st : Store) :
    (appendAll outcome k st ws).2 = none ↔ ∀ q < ws.length, outcome (k + q) = .complete := by
  induction ws generalizing k st with
  | nil => simp [appendAll]
  | cons w ws ih =>
    obtain ⟨hw, hws⟩ := List.forall_mem_cons.mp h
    rw [appendAll, appendRecord, if_neg (not_lt.mpr hw)]
    dsimp only
    have hsplit : (∀ q < (w :: ws).length, outcome (k + q) = .complete) ↔
        outcome k = .complete ∧ ∀ q < ws.length, outcome (k + 1 + q) = .complete := by
      constructor
      · intro hall
        refine ⟨hall 0 (Nat.succ_pos _), fun q hq => ?_⟩
        rw [Nat.add_assoc, Nat.add_comm 1 q]
        exact hall (q + 1) (Nat.succ_lt_succ hq)
      · rintro ⟨h0, hall⟩ (_ | q) hq
        · exact h0
        · rw [Nat.add_comm q 1, ← Nat.add_assoc]
          exact hall q (Nat.lt_of_succ_lt_succ hq)
    rw [hsplit]
    cases hk : outcome k with
    | complete => simp [ih hws]
    | failed written => simp

end FaultContainment.Engine
