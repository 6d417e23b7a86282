/-
The journal invariant: the records on disk are the numbers after the snapshot, up to the durable sequence.

A node is an engine with its store, in a run of public operations, snapshots and restarts without I/O errors. Staging takes
the numbers, flushing writes them, and a section that stages without flushing leaves a hole; `worker_authority_lost` has one
such exit.

- `journalInv_after`: every request keeps the invariant, unless it takes that exit.
- `journal_run`: so the journal has no gap in any run, and recovery reports none.
-/
import FaultContainment.Lib.Runs
import FaultContainment.Engine.Recovery

namespace FaultContainment.Durability

open FaultContainment.Lib FaultContainment.Ids FaultContainment.Enums FaultContainment.Records
open FaultContainment.DurableEvent FaultContainment.Persistence FaultContainment.Engine

/-! ## The runs -/

/-- a request to a node, with the clock readings of its sections -/
inductive Request where
  | call (c : Call)
  | dispatchContainment (clk : ℕ → Clock) (generation : ContainmentGeneration)
      (executor : Option (ContainmentAction → Except Error Text))
  | workerAuthorityLost (clk : ℕ → Clock) (worker : WorkerId) (boot : WorkerBootId) (kind : FaultKind) (detail : Text)
      (observationTimeMs : UInt64)
  | persistSnapshot
  | shutdown (clk : Clock)
  | recover (clk : ℕ → Clock) (nowMs : UInt64)
  | restart (clk : ℕ → Clock) (config : Config) (nowMs : UInt64)

/-- an engine and its store, and whether the engine took over the numbering of the store -/
structure Node where
  sys : Sys
  resumed : Bool := true

/-- a fresh engine on a fresh store -/
def Node.fresh (clk : Clock) (config : Config) : Node := { sys := { impl := construct clk config } }

/-- the writes of a request all succeed -/
abbrev noFailure : ℕ → Io := fun _ => {}

/-- a node after a request -/
def Request.after : Request → Node → Node
  | .call c, n => { n with sys := (n.sys.call {} c).1 }
  | .dispatchContainment clk generation executor, n =>
    { n with sys := (Engine.dispatchContainment clk noFailure generation executor n.sys).1 }
  | .workerAuthorityLost clk worker boot kind detail time, n =>
    { n with sys := (Engine.workerAuthorityLost clk noFailure worker boot kind detail time n.sys).1 }
  | .persistSnapshot, n => { n with sys := n.sys.persistSnapshot.1 }
  | .shutdown clk, n => { n with sys := n.sys.shutdown clk }
  | .recover clk nowMs, n =>
    let (sys, result) := recoverFromStore clk noFailure nowMs n.sys
    { sys := sys, resumed := n.resumed || result.isOk }
  | .restart clk config nowMs, n =>
    let (sys, result) := Engine.restart clk noFailure config nowMs n.sys
    { sys := sys, resumed := result.isOk }

/-! ## The invariant -/

/-- the engine counts on from the last record of its files -/
structure Synced (s : Sys) : Prop where
  attached : s.attached = true
  files : ∃ base es, Files s.store base es ∧ s.impl.durableSequence = baseSequence base + es.length
  small : s.impl.durableSequence < 2 ^ 64

/-- the files are in order, and the engine is in step with them once it has resumed -/
structure JournalInv (n : Node) : Prop where
  files : ∃ base es, Files n.sys.store base es
  synced : n.resumed = true → Synced n.sys

/-! ## One section -/

/-- a section flushes what it stages -/
def Honest {α : Type} (step : Step α) : Prop := step.flushed = true ∨ step.staged = []

theorem honest_refuse {α : Type} (i : Impl) (e : Error) : Honest (.refuse i e : Step α) := .inr rfl
theorem honest_answer {α : Type} (i : Impl) (a : α) : Honest (.answer i a) := .inr rfl

theorem honest_commit {α : Type} (i : Impl) (time : UInt64) (entry : HistoryEvent) (before : List Event)
    (event : Option HistoryEvent → Event) (after : List Event) (a : α) :
    Honest (commit i time entry before event after a) := .inl rfl

/-- an honest section appends the records it stages, when no write fails -/
theorem perform_complete {α : Type} {s : Sys} {step : Step α} (ha : s.attached = true) (hs : Honest step)
    (hread : ∀ w ∈ step.pending s.impl, Readable w) :
    s.perform {} step = ({ s with
      impl := step.sealed s.impl
      store := { s.store with journal := s.store.journal ++ journalBytes (step.pending s.impl) } }, step.result) := by
  unfold Sys.perform Sys.flush
  dsimp only
  by_cases hf : step.flushed = true
  · rw [if_pos hf, if_pos ha, appendAll_complete _ hread]
  · have hp : step.pending s.impl = [] := by
      unfold Step.pending
      rw [hs.resolve_left hf]
      rfl
    rw [if_neg hf, hp, journalBytes_nil, List.append_nil]

/-- a section that does not flush leaves the files alone -/
theorem perform_unflushed {α : Type} (io : Io) (s : Sys) {step : Step α} (hf : step.flushed = false) :
    s.perform io step = ({ s with impl := step.sealed s.impl }, step.result) := by
  unfold Sys.perform
  dsimp only
  rw [if_neg (by rw [hf]; exact Bool.false_ne_true)]

/-- a section advances the durable sequence by what it stages -/
theorem perform_sequence {α : Type} (io : Io) (s : Sys) (step : Step α) :
    (s.perform io step).1.impl.durableSequence = s.impl.durableSequence + (step.pending s.impl).length := by
  have hflush : ∀ (pending : List (ℕ × Bytes)) (t : Sys),
      (t.flush io pending).1.impl.durableSequence = t.impl.durableSequence := by
    intro pending t
    unfold Sys.flush
    split_ifs
    · split <;> rfl
    · rfl
  unfold Sys.perform
  dsimp only
  split_ifs
  · exact hflush _ _
  · rfl

/-- an honest section keeps the engine in step -/
theorem Synced.perform {α : Type} {s : Sys} (h : Synced s) {step : Step α} (hs : Honest step)
    (hsmall : (s.perform {} step).1.impl.durableSequence < 2 ^ 64) : Synced (s.perform {} step).1 := by
  obtain ⟨base, es, hf, hseq⟩ := h.files
  have hlen := hsmall
  rw [perform_sequence] at hlen
  have hread : ∀ w ∈ step.pending s.impl, Readable w := fun w hw => encodeStaged_readable hlen hw
  have hnext := encodeStaged_consecutive s.impl.durableSequence step.staged
  refine ⟨?_, ⟨base, es ++ step.pending s.impl, ?_, ?_⟩, hsmall⟩
  · rw [perform_complete h.attached hs hread]
    exact h.attached
  · rw [perform_complete h.attached hs hread]
    refine ⟨hf.snapshot, hf.covered, ?_, fun e he => ?_, ?_⟩
    · rw [journalBytes_append, ← hf.journal]
    · exact (List.mem_append.mp he).elim (hf.readable e) (hread e)
    · refine (SequencedLog.consecutive_append _ _ _).mpr ⟨hf.consecutive, ?_⟩
      rwa [show baseSequence base + 1 + es.length = s.impl.durableSequence + 1 by omega]
  · rw [perform_sequence, List.length_append, hseq, Nat.add_assoc]

/-- a snapshot covers everything up to the durable sequence -/
theorem Synced.persistSnapshot {s : Sys} (h : Synced s) : Synced s.persistSnapshot.1 := by
  unfold Sys.persistSnapshot writeCapture saveSnapshot
  rw [if_pos h.attached]
  dsimp only
  split
  · exact h
  · next payload _ =>
    split_ifs
    · exact h
    · exact ⟨h.attached, ⟨some (s.impl.durableSequence, payload), [], ⟨rfl, h.small, rfl, by simp,
        SequencedLog.consecutive_nil _⟩, rfl⟩, h.small⟩

theorem Synced.shutdown {s : Sys} (h : Synced s) (clk : Clock) : Synced (s.shutdown clk) := by
  unfold Sys.shutdown
  split_ifs with hd
  · exact h
  · refine (h.perform ?_ ?_).persistSnapshot
    · unfold requestShutdown
      rw [if_neg hd]
      exact honest_answer _ _
    · rw [perform_sequence]
      unfold requestShutdown Step.pending
      rw [if_neg hd]
      exact h.small

/-! ## Every operation -/

/-- the exit of `worker_authority_lost` that stages and does not flush: nothing to scope the loss to -/
def Scoped (worker : WorkerId) (boot : WorkerBootId) (i : Impl) : Prop :=
  (admitLoss worker boot i).isOk = true → knownLoss ⟨worker, boot⟩ i = none →
    (lossSubject (ownedBy boot i.state.topology.resources)).valid = true

instance (worker : WorkerId) (boot : WorkerBootId) (i : Impl) : Decidable (Scoped worker boot i) :=
  inferInstanceAs (Decidable (_ → _ = none → _))

theorem honest_ite {α : Type} {p : Prop} [Decidable p] {a b : Step α} (ha : Honest a) (hb : Honest b) :
    Honest (if p then a else b) := by
  split
  · exact ha
  · exact hb

theorem honest_register {t : IdTag} {D : Type} (g : Grouping t D) (normalize : D → D) (clk : Clock) (domain : D)
    (i : Impl) : Honest (g.register normalize clk domain i) :=
  honest_ite (honest_refuse _ _) (honest_ite (honest_refuse _ _) (honest_commit _ _ _ _ _ _ _))

theorem honest_unregister {t : IdTag} {D : Type} (g : Grouping t D) (notFound advanced : String) (clk : Clock)
    (id : Id t) (expected : TopologyGeneration) (i : Impl) :
    Honest (g.unregister notFound advanced clk id expected i) := by
  unfold Grouping.unregister
  split
  · exact honest_refuse _ _
  · exact honest_ite (honest_refuse _ _) (honest_commit _ _ _ _ _ _ _)

theorem honest_registerDomain (clk : Clock) (domain : ContainmentDomain) (i : Impl) :
    Honest (registerDomain clk domain i) := by
  refine honest_ite (honest_refuse _ _) (honest_ite (honest_refuse _ _) ?_)
  dsimp only
  split
  · exact honest_refuse _ _
  · exact honest_commit _ _ _ _ _ _ _

theorem honest_registerWorker (clk : Clock) (worker : WorkerId) (boot : WorkerBootId) (endpoint : Text)
    (sequence : EvidenceSequence) (i : Impl) : Honest (registerWorker clk worker boot endpoint sequence i) := by
  refine honest_ite (honest_refuse _ _) (honest_ite (honest_refuse _ _) ?_)
  split
  · exact honest_commit _ _ _ _ _ _ _
  · exact honest_ite (honest_commit _ _ _ _ _ _ _) (honest_ite (honest_refuse _ _)
      (honest_ite (honest_commit _ _ _ _ _ _ _) (honest_answer _ _)))

theorem honest_retireWorker (clk : Clock) (worker : WorkerId) (boot : WorkerBootId) (reason : Text) (i : Impl) :
    Honest (retireWorker clk worker boot reason i) := by
  unfold retireWorker
  split
  · exact honest_refuse _ _
  · exact honest_ite (honest_answer _ _) (honest_commit _ _ _ _ _ _ _)

theorem honest_removeDependency (clk : Clock) (id : DependencyId) (expected : DependencyGeneration) (i : Impl) :
    Honest (removeDependency clk id expected i) := by
  unfold removeDependency
  split
  · exact honest_refuse _ _
  · exact honest_ite (honest_refuse _ _) (honest_commit _ _ _ _ _ _ _)

theorem honest_updateDomain (clk : Clock) (domain : ContainmentDomain) (expected : TopologyGeneration) (i : Impl) :
    Honest (updateDomain clk domain expected i) := by
  unfold updateDomain
  split
  · exact honest_refuse _ _
  · exact honest_commit _ _ _ _ _ _ _

theorem honest_registerResource (clk : Clock) (record : ResourceRecord) (i : Impl) :
    Honest (registerResource clk record i) := by
  unfold registerResource
  split
  · exact honest_refuse _ _
  · exact honest_commit _ _ _ _ _ _ _

theorem honest_updateResource (clk : Clock) (record : ResourceRecord) (expected : ResourceGeneration) (i : Impl) :
    Honest (updateResource clk record expected i) := by
  unfold updateResource
  split
  · exact honest_refuse _ _
  · exact honest_commit _ _ _ _ _ _ _

theorem honest_registerDependency (clk : Clock) (edge : DependencyEdge) (i : Impl) :
    Honest (registerDependency clk edge i) := by
  unfold registerDependency
  split
  · exact honest_refuse _ _
  · exact honest_commit _ _ _ _ _ _ _

theorem honest_setPolicy (clk : Clock) (policy : ContainmentPolicy) (i : Impl) :
    Honest (setPolicy clk policy i) := by
  unfold setPolicy
  split
  · exact honest_refuse _ _
  · exact honest_commit _ _ _ _ _ _ _

theorem honest_supersedeFault (clk : Clock) (id : FaultId) (expected : FaultGeneration) (reason : Text) (i : Impl) :
    Honest (supersedeFault clk id expected reason i) := by
  unfold supersedeFault
  split
  · exact honest_refuse _ _
  · exact honest_commit _ _ _ _ _ _ _

theorem honest_verifyContainment (clk : Clock) (generation : ContainmentGeneration) (i : Impl) :
    Honest (verifyContainment clk generation i) := by
  unfold verifyContainment
  split
  · exact honest_refuse _ _
  · exact honest_commit _ _ _ _ _ _ _

theorem honest_authorizeDegradedMode (clk : Clock) (contract : DegradedModeContract) (i : Impl) :
    Honest (authorizeDegradedMode clk contract i) := by
  unfold authorizeDegradedMode
  split
  · exact honest_refuse _ _
  · exact honest_commit _ _ _ _ _ _ _

theorem honest_revalidateDegradedMode (clk : Clock) (id : DegradedModeId) (i : Impl) :
    Honest (revalidateDegradedMode clk id i) := by
  unfold revalidateDegradedMode
  split
  · exact honest_refuse _ _
  · exact honest_commit _ _ _ _ _ _ _

theorem honest_publishResourceEvidence (clk : Clock) (id : ResourceId) (expected : ResourceGeneration)
    (freshness : EvidenceFreshness) (sequence : EvidenceSequence) (mechanism : ContainmentMechanism) (source : Text)
    (i : Impl) : Honest (publishResourceEvidence clk id expected freshness sequence mechanism source i) := by
  unfold publishResourceEvidence
  split
  · exact honest_refuse _ _
  · exact honest_commit _ _ _ _ _ _ _

theorem honest_removeResource (clk : Clock) (id : ResourceId) (expected : ResourceGeneration) (i : Impl) :
    Honest (removeResource clk id expected i) := by
  unfold removeResource
  split
  · exact honest_refuse _ _
  · exact honest_ite (honest_refuse _ _) (honest_commit _ _ _ _ _ _ _)

theorem honest_publishFault (clk : Clock) (evidence : FaultEvidence) (i : Impl) :
    Honest (publishFault clk evidence i) := by
  refine honest_ite (honest_refuse _ _) (honest_ite (honest_refuse _ _) (honest_ite (honest_refuse _ _) ?_))
  split
  · exact .inl rfl
  · split
    · exact honest_refuse _ _
    · exact honest_commit _ _ _ _ _ _ _

theorem honest_authorizeContainment (clk : Clock) (id : FaultId) (expected : FaultGeneration) (i : Impl) :
    Honest (authorizeContainment clk id expected i) := by
  unfold authorizeContainment
  split
  · exact honest_refuse _ _
  · split
    · exact honest_refuse _ _
    · exact honest_commit _ _ _ _ _ _ _

theorem honest_dispatchBegin (clk : Clock) (generation : ContainmentGeneration) (executorAttached : Bool) (i : Impl) :
    Honest (dispatchBegin clk generation executorAttached i) := by
  unfold dispatchBegin
  split
  · exact honest_refuse _ _
  · exact .inl rfl

theorem honest_recordActionAck (clk : Clock) (ack : ActionAcknowledgment) (i : Impl) :
    Honest (recordActionAck clk ack i) := by
  unfold recordActionAck
  split
  · exact honest_refuse _ _
  · exact honest_ite (honest_answer _ _) (honest_ite (honest_refuse _ _) (honest_commit _ _ _ _ _ _ _))

theorem honest_recordActionResult (clk : Clock) (result : ActionResult) (i : Impl) :
    Honest (recordActionResult clk result i) := by
  unfold recordActionResult
  split
  · exact honest_refuse _ _
  · exact honest_ite (honest_answer _ _) (honest_ite (honest_refuse _ _) (honest_commit _ _ _ _ _ _ _))

theorem honest_authorizeRelease (clk : Clock) (request : ReleaseRequest) (i : Impl) :
    Honest (authorizeRelease clk request i) := by
  refine honest_ite (honest_commit _ _ _ _ _ _ _) ?_
  split
  · exact honest_refuse _ _
  · exact honest_commit _ _ _ _ _ _ _

/-- the first section of `worker_authority_lost` is honest when the loss is scoped -/
theorem honest_authorityLost (clk : Clock) (worker : WorkerId) (boot : WorkerBootId) (detail : Text) (time : UInt64)
    (i : Impl) (h : Scoped worker boot i) : Honest (authorityLost clk worker boot detail time i) := by
  unfold authorityLost
  split
  · exact honest_refuse _ _
  · next w hw =>
    split
    · exact honest_answer _ _
    · next hk =>
      have hv := h (by rw [hw]; rfl) hk
      dsimp only
      rw [Impl.withIncarnations_topology, if_neg (not_not.mpr hv)]
      exact honest_commit _ _ _ _ _ _ _

/-- at that exit the records are staged and not flushed -/
theorem authorityLost_unscoped {worker : WorkerId} {boot : WorkerBootId} {i : Impl} (h : ¬ Scoped worker boot i)
    (clk : Clock) (detail : Text) (time : UInt64) :
    (authorityLost clk worker boot detail time i).flushed = false ∧
      ∃ e, (authorityLost clk worker boot detail time i).result = .error e := by
  unfold Scoped at h
  push Not at h
  obtain ⟨hadmitted, hknown, hsubject⟩ := h
  unfold authorityLost
  split
  · next e he => rw [he] at hadmitted; exact absurd hadmitted Bool.false_ne_true
  · rw [hknown]
    dsimp only
    rw [Impl.withIncarnations_topology, if_pos hsubject]
    exact ⟨rfl, _, rfl⟩

/-- so the loss takes numbers and leaves the files as they are -/
theorem workerAuthorityLost_unscoped {worker : WorkerId} {boot : WorkerBootId} {s : Sys}
    (h : ¬ Scoped worker boot s.impl) (clk : ℕ → Clock) (io : ℕ → Io) (kind : FaultKind) (detail : Text)
    (time : UInt64) :
    (workerAuthorityLost clk io worker boot kind detail time s).1 =
      { s with impl := (authorityLost (clk 0) worker boot detail time s.impl).sealed s.impl } := by
  obtain ⟨hflushed, e, he⟩ := authorityLost_unscoped h (clk 0) detail time
  unfold workerAuthorityLost
  rw [perform_unflushed _ _ hflushed, he]

/-- the early exit as a condition on an operation -/
def scopedOp : Op → Impl → Prop
  | .authorityLost worker boot _ _, i => Scoped worker boot i
  | _, _ => True

instance : ∀ (op : Op) (i : Impl), Decidable (scopedOp op i)
  | op, i => by unfold scopedOp; split <;> infer_instance

/-- every operation flushes what it stages, apart from that exit -/
theorem honest_run (c : Call) (i : Impl) (h : scopedOp c.op i) : Honest (c.op.run c.clk i) := by
  obtain ⟨clk, op⟩ := c
  cases op with
  | registerDomain domain => exact honest_registerDomain clk domain i
  | updateDomain domain expected => exact honest_updateDomain clk domain expected i
  | removeDomain id expected => exact honest_unregister _ _ _ clk id expected i
  | registerIsolationDomain domain => exact honest_register _ _ clk domain i
  | removeIsolationDomain id expected => exact honest_unregister _ _ _ clk id expected i
  | registerFailureDomain domain => exact honest_register _ _ clk domain i
  | removeFailureDomain id expected => exact honest_unregister _ _ _ clk id expected i
  | registerResource record => exact honest_registerResource clk record i
  | updateResource record expected => exact honest_updateResource clk record expected i
  | removeResource id expected => exact honest_removeResource clk id expected i
  | registerDependency edge => exact honest_registerDependency clk edge i
  | removeDependency id expected => exact honest_removeDependency clk id expected i
  | setPolicy policy => exact honest_setPolicy clk policy i
  | publishResourceEvidence id expected freshness sequence mechanism source =>
    exact honest_publishResourceEvidence clk id expected freshness sequence mechanism source i
  | registerWorker worker boot endpoint sequence => exact honest_registerWorker clk worker boot endpoint sequence i
  | retireWorker worker boot reason => exact honest_retireWorker clk worker boot reason i
  | beginEpoch nowMs reason => exact honest_commit _ _ _ _ _ _ _
  | publishFault evidence => exact honest_publishFault clk evidence i
  | supersedeFault id expected reason => exact honest_supersedeFault clk id expected reason i
  | authorizeContainment id expected => exact honest_authorizeContainment clk id expected i
  | dispatchBegin generation executorAttached => exact honest_dispatchBegin clk generation executorAttached i
  | dispatchEnd attempts summary => exact .inl rfl
  | recordActionAck ack => exact honest_recordActionAck clk ack i
  | recordActionResult result => exact honest_recordActionResult clk result i
  | verifyContainment generation => exact honest_verifyContainment clk generation i
  | authorizeDegradedMode contract => exact honest_authorizeDegradedMode clk contract i
  | revalidateDegradedMode id => exact honest_revalidateDegradedMode clk id i
  | authorizeRelease request => exact honest_authorizeRelease clk request i
  | authorityLost worker boot detail time => exact honest_authorityLost clk worker boot detail time i h
  | noteAuthorityLoss key fault => exact honest_answer _ _
  | requestShutdown => exact honest_ite (honest_answer _ _) (honest_answer _ _)
  | persistenceFault e => exact honest_answer _ _

/-! ## Runs of sections -/

/-- a section keeps the engine in step -/
theorem Synced.section {s : Sys} (h : Synced s) (c : Call) (hscope : scopedOp c.op s.impl)
    (hsmall : ((⟨{}, c⟩ : Section).after s).impl.durableSequence < 2 ^ 64) : Synced ((⟨{}, c⟩ : Section).after s) :=
  h.perform (honest_run c s.impl hscope) hsmall

theorem le_run (cs : List Section) (s : Sys) :
    s.impl.durableSequence ≤ (Runs.run Section.after cs s).impl.durableSequence := by
  induction cs generalizing s with
  | nil => exact le_rfl
  | cons c cs ih =>
    refine le_trans ?_ (ih (c.after s))
    rw [show c.after s = (s.perform c.io (c.call.op.run c.call.clk s.impl)).1 from rfl, perform_sequence]
    exact Nat.le_add_right _ _

theorem scopedOp_of_not_losesAuthority {op : Op} (h : op.losesAuthority = false) (i : Impl) : scopedOp op i := by
  cases op <;> trivial

/-- what an operation that flushes leaves in the files -/
theorem call_store {s : Sys} (ha : s.attached = true) (c : Call) (hscope : scopedOp c.op s.impl)
    (hsmall : (s.call {} c).1.impl.durableSequence < 2 ^ 64) :
    (s.call {} c).1.store = { s.store with
      journal := s.store.journal ++ journalBytes ((c.op.run c.clk s.impl).pending s.impl) } := by
  have hlen := hsmall
  rw [Sys.call, perform_sequence] at hlen
  rw [Sys.call, perform_complete ha (honest_run c s.impl hscope) fun w hw => encodeStaged_readable hlen hw]

/-- sections that are not the first one of `worker_authority_lost` keep the engine in step -/
theorem Synced.run {s : Sys} (h : Synced s) (cs : List Section) (hio : ∀ c ∈ cs, c.io = {})
    (hcs : ∀ c ∈ cs, c.call.op.losesAuthority = false)
    (hsmall : (Runs.run Section.after cs s).impl.durableSequence < 2 ^ 64) : Synced (Runs.run Section.after cs s) := by
  induction cs generalizing s with
  | nil => exact h
  | cons c cs ih =>
    obtain ⟨io, call⟩ := c
    obtain rfl : io = {} := hio _ List.mem_cons_self
    have hscope := scopedOp_of_not_losesAuthority (hcs _ List.mem_cons_self) s.impl
    have hstep := h.section call hscope (lt_of_le_of_lt (le_run cs _) hsmall)
    exact ih hstep (fun c hc => hio c (List.mem_cons_of_mem _ hc)) (fun c hc => hcs c (List.mem_cons_of_mem _ hc)) hsmall

theorem Synced.dispatchContainment {s : Sys} (h : Synced s) (clk : ℕ → Clock) (generation : ContainmentGeneration)
    (executor : Option (ContainmentAction → Except Error Text))
    (hsmall : (dispatchContainment clk noFailure generation executor s).1.impl.durableSequence < 2 ^ 64) :
    Synced (dispatchContainment clk noFailure generation executor s).1 := by
  obtain ⟨cs, hrun, hcs⟩ := dispatchContainment_run clk noFailure generation executor s
  rw [hrun] at hsmall ⊢
  exact h.run cs (fun c hc => (hcs c hc).1.elim fun _ h => h) (fun c hc => (hcs c hc).2) hsmall

theorem Synced.workerAuthorityLost {s : Sys} (h : Synced s) (clk : ℕ → Clock) (worker : WorkerId) (boot : WorkerBootId)
    (kind : FaultKind) (detail : Text) (time : UInt64) (hscope : Scoped worker boot s.impl)
    (hsmall : (workerAuthorityLost clk noFailure worker boot kind detail time s).1.impl.durableSequence < 2 ^ 64) :
    Synced (workerAuthorityLost clk noFailure worker boot kind detail time s).1 := by
  obtain ⟨cs, hrun, hcs⟩ := workerAuthorityLost_run clk noFailure worker boot kind detail time s
  rw [hrun, Runs.run_cons] at hsmall ⊢
  have hfirst := h.section ⟨clk 0, .authorityLost worker boot detail time⟩ hscope (lt_of_le_of_lt (le_run cs _) hsmall)
  exact hfirst.run cs (fun c hc => (hcs c hc).1.elim fun _ h => h) (fun c hc => (hcs c hc).2) hsmall

/-! ## Recovery -/

theorem le_perform {α : Type} (io : Io) (s : Sys) (step : Step α) :
    s.impl.durableSequence ≤ (s.perform io step).1.impl.durableSequence := by
  rw [perform_sequence]
  exact Nat.le_add_right _ _

theorem honest_recoverySection (clk : Clock) (r : Recovery) (i : Impl) : Honest (recoverySection clk r i) :=
  honest_commit _ _ _ _ _ _ _

theorem le_resume (clk : ℕ → Clock) (io : ℕ → Io) (nowMs : UInt64) (r : Recovery) (s : Sys) :
    s.impl.durableSequence ≤ (resume clk io nowMs r s).1.impl.durableSequence := by
  have hfirst := le_perform (io 0) s (recoverySection (clk 0) r s.impl)
  unfold resume
  generalize s.perform (io 0) (recoverySection (clk 0) r s.impl) = p at hfirst ⊢
  obtain ⟨s', e | ⟨⟩⟩ := p
  · exact hfirst
  · dsimp only at hfirst ⊢
    generalize beginEpoch (clk 1) nowMs _ s'.impl = second
    exact hfirst.trans (le_perform (io 1) s' second)

/-- recording a recovery keeps the engine in step -/
theorem Synced.resume {s : Sys} (h : Synced s) (clk : ℕ → Clock) (nowMs : UInt64) (r : Recovery)
    (hsmall : (resume clk noFailure nowMs r s).1.impl.durableSequence < 2 ^ 64) :
    Synced (resume clk noFailure nowMs r s).1 := by
  have hfirst := h.perform (honest_recoverySection (clk 0) r s.impl)
  have hsecond : ∀ s' : Sys, Honest (beginEpoch (clk 1) nowMs
      (lit "coordinator restart; live authority requires revalidation") s'.impl) := fun _ => honest_commit _ _ _ _ _ _ _
  unfold Engine.resume at hsmall ⊢
  generalize s.perform _ (recoverySection (clk 0) r s.impl) = p at hfirst hsmall ⊢
  obtain ⟨s', e | ⟨⟩⟩ := p
  · exact hfirst hsmall
  · dsimp only at hfirst hsmall ⊢
    specialize hsecond s'
    generalize beginEpoch (clk 1) nowMs _ s'.impl = second at hsecond hsmall ⊢
    exact (hfirst (lt_of_le_of_lt (le_perform {} s' second) hsmall)).perform hsecond hsmall

/-- the files stay as they are, or the engine comes into step with them -/
theorem recoverFromStore_files {s : Sys} {base : Option (ℕ × Bytes)} {es : List (ℕ × Bytes)} (h : Files s.store base es)
    (clk : ℕ → Clock) (nowMs : UInt64)
    (hsmall : (recoverFromStore clk noFailure nowMs s).1.impl.durableSequence < 2 ^ 64) :
    Synced (recoverFromStore clk noFailure nowMs s).1 ∨
      ((recoverFromStore clk noFailure nowMs s).2.isOk = false ∧
        (recoverFromStore clk noFailure nowMs s).1.store = s.store ∧
        (recoverFromStore clk noFailure nowMs s).1.impl.durableSequence = s.impl.durableSequence ∧
        (s.attached = true → (recoverFromStore clk noFailure nowMs s).1.attached = true)) := by
  unfold recoverFromStore at hsmall ⊢
  cases hr : recover s.store with
  | error e => exact .inr ⟨rfl, rfl, rfl, fun ha => ha⟩
  | ok r =>
    obtain ⟨hseq, hrecords⟩ := h.recover.2 r hr
    rw [hr] at hsmall
    dsimp only at hsmall ⊢
    cases hl : loadSnapshot r (resetForRecovery s.impl) with
    | none => exact .inr ⟨rfl, rfl, rfl, fun _ => rfl⟩
    | some loaded =>
      rw [hl] at hsmall
      dsimp only at hsmall ⊢
      rcases hp : replay 0 r.snapshotSequence r.journalRecords loaded with ⟨i, detail | last⟩
      · refine .inr ⟨rfl, rfl, ?_, fun _ => rfl⟩
        have hkept := replay_durableSequence r.journalRecords 0 r.snapshotSequence loaded
        rw [hp, loadSnapshot_sequence hl] at hkept
        exact hkept
      · left
        rw [hp] at hsmall
        dsimp only at hsmall ⊢
        have hlast : last = baseSequence base + es.length := by
          rw [hrecords, hseq] at hp
          exact replay_sequence h.consecutive hp
        have hle : last ≤ _ := le_resume clk noFailure nowMs r
          { s with impl := takeOver last nowMs (deriveCounters i), attached := true }
        have hsync : Synced { s with impl := takeOver last nowMs (deriveCounters i), attached := true } :=
          ⟨rfl, ⟨base, es, h, hlast⟩, lt_of_le_of_lt hle hsmall⟩
        exact hsync.resume clk nowMs r hsmall

/-! ## The invariant over a run -/

/-- the request is a recovery, of a running engine or of a new one -/
def Request.recovers : Request → Bool
  | .recover _ _ => true
  | .restart _ _ _ => true
  | _ => false

/-- the early exit as a condition on a request -/
def Request.scoped : Request → Impl → Prop
  | .call c, i => scopedOp c.op i
  | .workerAuthorityLost _ worker boot _ _ _, i => Scoped worker boot i
  | _, _ => True

instance : ∀ (r : Request) (i : Impl), Decidable (r.scoped i)
  | r, i => by unfold Request.scoped; split <;> infer_instance

/-- a loss of authority finds a resource to scope it to, an engine that did not resume is only recovered, and the sequence
number has room -/
def Orderly (r : Request) (n : Node) : Prop :=
  r.scoped n.sys.impl ∧ (n.resumed = true ∨ r.recovers = true) ∧ (r.after n).sys.impl.durableSequence < 2 ^ 64

instance (r : Request) (n : Node) : Decidable (Orderly r n) := inferInstanceAs (Decidable (_ ∧ _ ∧ _))

theorem Synced.journalInv {s : Sys} (h : Synced s) (resumed : Bool) : JournalInv ⟨s, resumed⟩ := by
  obtain ⟨base, es, hf, -⟩ := h.files
  exact ⟨⟨base, es, hf⟩, fun _ => h⟩

/-- **Step.** Every orderly request keeps the journal invariant. -/
theorem journalInv_after (r : Request) (n : Node) (h : JournalInv n) (ho : Orderly r n) : JournalInv (r.after n) := by
  obtain ⟨hscope, hresumed, hsmall⟩ := ho
  cases r with
  | call c =>
    have hs := h.synced (hresumed.resolve_right (by simp [Request.recovers]))
    exact (hs.section c hscope hsmall).journalInv n.resumed
  | dispatchContainment clk generation executor =>
    have hs := h.synced (hresumed.resolve_right (by simp [Request.recovers]))
    exact (hs.dispatchContainment clk generation executor hsmall).journalInv n.resumed
  | workerAuthorityLost clk worker boot kind detail time =>
    have hs := h.synced (hresumed.resolve_right (by simp [Request.recovers]))
    exact (hs.workerAuthorityLost clk worker boot kind detail time hscope hsmall).journalInv n.resumed
  | persistSnapshot =>
    have hs := h.synced (hresumed.resolve_right (by simp [Request.recovers]))
    exact hs.persistSnapshot.journalInv n.resumed
  | shutdown clk =>
    have hs := h.synced (hresumed.resolve_right (by simp [Request.recovers]))
    exact (hs.shutdown clk).journalInv n.resumed
  | recover clk nowMs =>
    obtain ⟨base, es, hf⟩ := h.files
    obtain hsync | ⟨hok, hstore, hseq, hattached⟩ := recoverFromStore_files hf clk nowMs hsmall
    · exact hsync.journalInv _
    · refine ⟨⟨base, es, (hstore.symm ▸ hf : Files _ base es)⟩, fun hres => ?_⟩
      have hkept : n.resumed = true := by
        have hres : (n.resumed || (recoverFromStore clk noFailure nowMs n.sys).2.isOk) = true := hres
        rwa [hok, Bool.or_false] at hres
      obtain ⟨ha, ⟨base, es, hf, hes⟩, hlt⟩ := h.synced hkept
      exact ⟨hattached ha, ⟨base, es, hstore.symm ▸ hf, hseq.trans hes⟩, hsmall⟩
  | restart clk config nowMs =>
    obtain ⟨base, es, hf⟩ := h.files
    have hf : Files ({ n.sys with impl := construct (clk 0) config, attached := false } : Sys).store base es := hf
    obtain hsync | ⟨hok, hstore, -, -⟩ := recoverFromStore_files hf (fun k => clk (k + 1)) nowMs hsmall
    · exact hsync.journalInv _
    · refine ⟨⟨base, es, (hstore.symm ▸ hf : Files _ base es)⟩, fun hres => ?_⟩
      have hres : (recoverFromStore (fun k => clk (k + 1)) noFailure nowMs
        { n.sys with impl := construct (clk 0) config, attached := false }).2.isOk = true := hres
      rw [hok] at hres
      simp at hres

theorem journalInv_fresh (clk : Clock) (config : Config) : JournalInv (Node.fresh clk config) := by
  have hf : Files ({} : Store) none [] :=
    ⟨rfl, by decide, rfl, by simp, SequencedLog.consecutive_nil _⟩
  exact ⟨⟨none, [], hf⟩, fun _ => ⟨rfl, ⟨none, [], hf, rfl⟩, by show 0 < 2 ^ 64; decide⟩⟩

/-- the records on disk are the numbers after the snapshot, and recovery reports no gap -/
def GapFree (st : Store) : Prop :=
  (∃ base es, st.snapshotFile = base.map (fun b => snapshotImage b.2 b.1) ∧ st.journal = journalBytes es ∧
    es.map Prod.fst = List.range' (baseSequence base + 1) es.length) ∧
  ∀ previous sequence, recover st ≠ .error (gapError previous sequence)

/-- **The journal is gap-free.** In every orderly run from a fresh engine on a fresh store, the records that reached the
store since the last snapshot carry the numbers after it, one after another, and recovery never reports a gap. -/
theorem journal_run (clk : Clock) (config : Config) (requests : List Request)
    (h : Runs.Along Request.after Orderly requests (Node.fresh clk config)) :
    GapFree (Runs.run Request.after requests (Node.fresh clk config)).sys.store := by
  obtain ⟨base, es, hf⟩ := (Runs.run_inv (fun r n ho hi => journalInv_after r n hi ho) h
    (journalInv_fresh clk config)).files
  exact ⟨⟨base, es, hf.snapshot, hf.journal, hf.consecutive⟩, hf.recover.1⟩

/-- a worker with a resource is lost, and the fault that scopes the loss is published and contained -/
def scopedLoss : List Request := [
  .call ⟨ticks, .registerWorker ⟨1⟩ ⟨1⟩ [] {}⟩,
  .call ⟨ticks, .registerResource { id := ⟨5⟩, ownerWorker := ⟨1⟩, ownerBoot := ⟨1⟩ }⟩,
  .persistSnapshot,
  .workerAuthorityLost (fun _ => ticks) ⟨1⟩ ⟨1⟩ .processDeath [] 1]

/-- the condition holds along a run that takes a snapshot and loses a worker -/
theorem journal_run_scopedLoss : GapFree (Runs.run Request.after scopedLoss (Node.fresh ticks {})).sys.store :=
  journal_run ticks {} scopedLoss (by decide +kernel)

def registration : Call := ⟨ticks, .registerWorker ⟨1⟩ ⟨1⟩ [] {}⟩
def laterResource : Call := ⟨ticks, .registerResource { id := ⟨5⟩ }⟩

def afterRegistration : Sys := ((Node.fresh ticks {}).sys.call {} registration).1

/-- a worker without a resource is lost: its record takes a number and is never written -/
def afterLoss : Sys :=
  (workerAuthorityLost (fun _ => ticks) noFailure ⟨1⟩ ⟨1⟩ .processDeath [] 1 afterRegistration).1

def unscopedLoss : List Request := [
  .call registration,
  .workerAuthorityLost (fun _ => ticks) ⟨1⟩ ⟨1⟩ .processDeath [] 1,
  .call laterResource]

/-- the records a call stages -/
def recordsOf (c : Call) (i : Impl) : List (ℕ × Bytes) := (c.op.run c.clk i).pending i

theorem afterRegistration_store : afterRegistration.store.snapshotFile = none ∧
    afterRegistration.store.journal = journalBytes (recordsOf registration (Node.fresh ticks {}).sys.impl) := by
  have hempty : (Node.fresh ticks {}).sys.store = {} := rfl
  rw [afterRegistration, call_store rfl registration trivial (by decide +kernel), hempty]
  dsimp only [recordsOf]
  exact ⟨rfl, List.nil_append _⟩

theorem afterLoss_store : afterLoss.store = afterRegistration.store := by
  rw [afterLoss, workerAuthorityLost_unscoped (by decide +kernel)]

/-- the records of that run that reach the journal -/
def written : List (ℕ × Bytes) :=
  recordsOf registration (Node.fresh ticks {}).sys.impl ++ recordsOf laterResource afterLoss.impl

theorem unscopedLoss_store : (Runs.run Request.after unscopedLoss (Node.fresh ticks {})).sys.store.snapshotFile = none ∧
    (Runs.run Request.after unscopedLoss (Node.fresh ticks {})).sys.store.journal = journalBytes written := by
  simp only [unscopedLoss, Runs.run_cons, Runs.run_nil, Request.after]
  rw [← afterRegistration, ← afterLoss, call_store (by decide +kernel) laterResource trivial (by decide +kernel),
    afterLoss_store]
  dsimp only
  rw [afterRegistration_store.1, afterRegistration_store.2, written, journalBytes_append, recordsOf, recordsOf]
  exact ⟨rfl, rfl⟩

/-- Without the condition the journal has a gap, and recovery refuses it. -/
theorem journal_run_unscopedLoss :
    ¬ ∀ (clk : Clock) (config : Config) (requests : List Request),
      GapFree (Runs.run Request.after requests (Node.fresh clk config)).sys.store := by
  intro h
  refine (h ticks {} unscopedLoss).2 3 5 ?_
  have hb : Holds (Runs.run Request.after unscopedLoss (Node.fresh ticks {})).sys.store none :=
    ⟨unscopedLoss_store.1, by simp⟩
  have hread : ∀ e ∈ written, Readable e := by decide +kernel
  refine recover_gap hb hread unscopedLoss_store.2 ?_ (by decide +kernel)
  rw [unscopedLoss_store.2]
  decide +kernel

end FaultContainment.Durability
