/-
Which state documents are the encoding of what is read from them.

The reader of identity sets insists on ascending order, and the topology and policy readers refuse a repeated key; but the
keyed sections are otherwise read in whatever order they come, and those outside the topology and the policy keep the first
of two entries with one key. `documentBy` is the document codec with a choice: keyed sections as the source reads them, or
in strictly ascending order only.

- `documentBy_source`: without the order, it is the codec of the source.
- `reencode_iff`: when what was read of a document is written as the same bytes.
-/
import FaultContainment.Lib.Canonical
import FaultContainment.StateDocument

namespace FaultContainment.StateDocument

open FaultContainment.Lib FaultContainment.Ids FaultContainment.Enums FaultContainment.Records
open FaultContainment.Lib.Codec FaultContainment.StateCodec
open Function (uncurry)

/-! ## Keyed sections, in any order or in ascending order -/

section Keyed

variable {κ ν ε : Type} [LinearOrder κ]

/-- a keyed section read in ascending order only, or as the source reads it -/
def keyedBy (ascending : Bool) (l : SortedLayout κ ν ε) (strict : Bool) (c : Codec ε) (ceiling : ℕ)
    (hc : ceiling < 256 ^ 4) : Codec (OrderedMap κ ν) :=
  match ascending with
  | true => ascendingOf l c ceiling hc
  | false => mapOf l.toLayout c strict ceiling hc

/-- a section of records -/
def recordsBy (ascending strict : Bool) (key : ν → κ) (c : Codec ν) : Codec (OrderedMap κ ν) :=
  keyedBy ascending (sortedRecords key) strict c kMaxCollectionCount kMaxCollectionCount_lt

/-- a section of plain entries -/
def entriesBy (ascending : Bool) (c : Codec (κ × ν)) : Codec (OrderedMap κ ν) :=
  keyedBy ascending sortedPairs false c kMaxCollectionCount kMaxCollectionCount_lt

end Keyed

theorem kMaxEnvelopeTargets_lt : kMaxEnvelopeTargets < 256 ^ 4 := by decide
theorem kMaxRules_lt : kMaxRules < 256 ^ 4 := by decide

/-- the required resource generations of an envelope -/
def targetsBy (ascending : Bool) : Codec (OrderedMap ResourceId ResourceGeneration) :=
  keyedBy ascending sortedPairs true ((ident.check Id.valid).pair ident) kMaxEnvelopeTargets kMaxEnvelopeTargets_lt

/-- the rules of a policy -/
def rulesBy (ascending : Bool) : Codec (OrderedMap FaultKind FaultRule) :=
  keyedBy ascending (sortedRecords FaultRule.kind) true faultRule kMaxRules kMaxRules_lt

def envelopeBy (ascending : Bool) : Codec AuthorityEnvelope :=
  (pair ident <| pair ident <| pair ident <| pair ident <| pair ident <| pair ident <| pair ident <| pair ident <|
    pair ident <| pair ident <| pair ident <| pair ident <| pair ident <| pair ident <| pair ident <|
    pair (targetsBy ascending) <| u64).iso
    (fun r => (r.epoch, r.fault, r.faultGeneration, r.containmentGeneration, r.policyGeneration, r.topologyGeneration,
      r.action, r.actionGeneration, r.worker, r.workerBoot, r.target, r.targetGeneration, r.requiredEvidenceSequence,
      r.reservation, r.lease, r.requiredResourceGenerations, r.issuedAtMs))
    (uncurry fun epoch => uncurry fun fault => uncurry fun faultGeneration => uncurry fun containmentGeneration =>
     uncurry fun policyGeneration => uncurry fun topologyGeneration => uncurry fun action =>
     uncurry fun actionGeneration => uncurry fun worker => uncurry fun workerBoot => uncurry fun target =>
     uncurry fun targetGeneration => uncurry fun requiredEvidenceSequence => uncurry fun reservation =>
     uncurry fun lease => uncurry fun requiredResourceGenerations => fun issuedAtMs =>
      { epoch, fault, faultGeneration, containmentGeneration, policyGeneration, topologyGeneration, action,
        actionGeneration, worker, workerBoot, target, targetGeneration, requiredEvidenceSequence, reservation, lease,
        requiredResourceGenerations, issuedAtMs })
    (fun _ => rfl) (fun _ => rfl)

def actionBy (ascending : Bool) : Codec ContainmentAction :=
  ((pair ident <| pair ident <| pair coded <| pair ident <| pair ident <| pair ident <| pair ident <| pair coded <|
    pair (envelopeBy ascending) <| pair coded <| pair coded <| pair str <| pair u64 <| pair u64 <| pair u64 <|
    pair u64 <| pair ident <| pair str <| boolean).iso
    (fun r => (r.id, r.generation, r.kind, r.target, r.targetGeneration, r.domain, r.isolationDomain, r.mechanism,
      r.envelope, r.status, r.rejectionCode, r.rejectionDetail, r.createdAtMs, r.dispatchedAtMs, r.acknowledgedAtMs,
      r.completedAtMs, r.verificationGeneration, r.executorToken, r.destructive))
    (uncurry fun id => uncurry fun generation => uncurry fun kind => uncurry fun target =>
     uncurry fun targetGeneration => uncurry fun domain => uncurry fun isolationDomain => uncurry fun mechanism =>
     uncurry fun envelope => uncurry fun status => uncurry fun rejectionCode => uncurry fun rejectionDetail =>
     uncurry fun createdAtMs => uncurry fun dispatchedAtMs => uncurry fun acknowledgedAtMs =>
     uncurry fun completedAtMs => uncurry fun verificationGeneration => uncurry fun executorToken =>
     fun destructive =>
      { id, generation, kind, target, targetGeneration, domain, isolationDomain, mechanism, envelope, status,
        rejectionCode, rejectionDetail, createdAtMs, dispatchedAtMs, acknowledgedAtMs, completedAtMs,
        verificationGeneration, executorToken, destructive })
    (fun _ => rfl) (fun _ => rfl)).check fun a => a.id.valid

def policyBy (ascending : Bool) : Codec ContainmentPolicy :=
  ((pair ident <| pair str <| pair (rulesBy ascending) <| pair faultRule <| pair u32 <| pair boolean <| pair u64 <|
    adminOverride).iso
    (fun r => (r.generation, r.name, r.rules, r.fallback, r.maxActionsPerContainment, r.allowDegradedModeByDefault,
      r.defaultMaxEvidenceAgeMs, r.adminOverride))
    (uncurry fun generation => uncurry fun name => uncurry fun rules => uncurry fun fallback =>
     uncurry fun maxActionsPerContainment => uncurry fun allowDegradedModeByDefault =>
     uncurry fun defaultMaxEvidenceAgeMs => fun adminOverride =>
      { generation, name, rules, fallback, maxActionsPerContainment, allowDegradedModeByDefault,
        defaultMaxEvidenceAgeMs, adminOverride })
    (fun _ => rfl) (fun _ => rfl)).check fun p => p.maxActionsPerContainment != 0

def topologyBy (ascending : Bool) : Codec TopologyDocument :=
  ((pair ident <| pair (recordsBy ascending true ResourceRecord.id resource) <|
    pair (recordsBy ascending true ContainmentDomain.id containmentDomain) <|
    pair (recordsBy ascending true IsolationDomain.id isolationDomain) <|
    pair (recordsBy ascending true FailureDomain.id failureDomain) <|
    recordsBy ascending true DependencyEdge.id dependency).iso
    (fun d => (d.generation, d.resources, d.containmentDomains, d.isolationDomains, d.failureDomains, d.edges))
    (uncurry fun generation => uncurry fun resources => uncurry fun containmentDomains =>
     uncurry fun isolationDomains => uncurry fun failureDomains => fun edges =>
      { generation, resources, containmentDomains, isolationDomains, failureDomains, edges })
    (fun _ => rfl) (fun _ => rfl)).check resolves

/-- the document codec, its keyed sections read one way or the other -/
def documentBy (ascending : Bool) : Codec Document :=
  ((pair u32 <| pair ident <| pair ident <| pair ident <| pair ident <| pair ident <| pair ident <| pair ident <|
    pair u64 <| pair (topologyBy ascending) <| pair (policyBy ascending) <|
    pair (recordsBy ascending false (fun f => f.evidence.id) fault) <|
    pair (recordsBy ascending false WorkerRecord.key worker) <| pair (entriesBy ascending (pair ident ident)) <|
    pair (entriesBy ascending (pair ident ident)) <|
    pair (recordsBy ascending false ContainmentRecord.generation containment) <|
    pair (recordsBy ascending false ContainmentAction.id (actionBy ascending)) <|
    pair (recordsBy ascending false DegradedModeAssessment.contract degraded) <|
    pair (recordsBy ascending false DegradedModeContract.id degradedContract) <| pair (many historyEvent) u64).through
    (fun d => ((1 : UInt32), d.epoch, d.topologyGeneration, d.policyGeneration, d.containmentGeneration,
      d.verificationGeneration, d.releaseGeneration, d.historySequence, d.nowMs, d.topology, d.policy, d.faults,
      d.incarnations, d.currentBoot, d.lastIncarnation, d.containments, d.actions, d.degradedModes,
      d.degradedContracts, d.history, d.historyTotal))
    (uncurry fun version => uncurry fun epoch => uncurry fun topologyGeneration => uncurry fun policyGeneration =>
     uncurry fun containmentGeneration => uncurry fun verificationGeneration => uncurry fun releaseGeneration =>
     uncurry fun historySequence => uncurry fun nowMs => uncurry fun topology => uncurry fun policy =>
     uncurry fun faults => uncurry fun incarnations => uncurry fun currentBoot => uncurry fun lastIncarnation =>
     uncurry fun containments => uncurry fun actions => uncurry fun degradedModes => uncurry fun degradedContracts =>
     uncurry fun history => fun historyTotal =>
      if version = 1 then
        some { epoch, topologyGeneration, policyGeneration, containmentGeneration, verificationGeneration,
               releaseGeneration, historySequence, nowMs, topology, policy, faults, incarnations, currentBoot,
               lastIncarnation, containments, actions, degradedModes, degradedContracts, history, historyTotal }
      else none)
    (fun _ => rfl) (by
      rintro ⟨version, _⟩ d h
      dsimp only [uncurry] at h
      split_ifs at h with hv
      subst hv
      obtain rfl := Option.some.inj h
      rfl)).check fun d => d.history.length ≤ d.historyTotal.toNat

/-- the source reads its keyed sections in any order -/
theorem documentBy_source : documentBy false = stateDocument := rfl

/-! ## Everything else has one encoding -/

section Values

variable {t : IdTag} {α : Type} [DecidableEq α] [Coded α]

instance canonicalIdent : Canonical (ident : Codec (Id t)) := by
  unfold ident
  infer_instance

instance canonicalStr : Canonical str := by
  unfold str
  infer_instance

instance canonicalBoolean : Canonical boolean := by
  unfold boolean
  infer_instance

instance canonicalCoded : Canonical (coded : Codec α) := by
  unfold coded
  infer_instance

instance canonicalIds (n : ℕ) (hn) : Canonical (ids n hn : Codec (IdSet t)) := by
  unfold ids
  infer_instance

instance canonicalEnumSet : Canonical (enumSet : Codec (EnumSet α)) := by
  unfold enumSet
  infer_instance

instance canonicalMany {β : Type} (c : Codec β) [Canonical c] : Canonical (many c) := by
  unfold many
  infer_instance

instance canonicalDigest : Canonical digest := by
  unfold digest
  infer_instance

end Values

/-! ### Records -/

instance canonicalResource : Canonical resource := by
  unfold resource
  infer_instance

instance canonicalContainmentDomain : Canonical containmentDomain := by
  unfold containmentDomain
  infer_instance

instance canonicalIsolationDomain : Canonical isolationDomain := by
  unfold isolationDomain
  infer_instance

instance canonicalFailureDomain : Canonical failureDomain := by
  unfold failureDomain
  infer_instance

instance canonicalDependency : Canonical dependency := by
  unfold dependency
  infer_instance

instance canonicalFaultEvidence : Canonical faultEvidence := by
  unfold faultEvidence
  infer_instance

instance canonicalFault : Canonical fault := by
  unfold fault
  infer_instance

instance canonicalWorkerKey : Canonical workerKey := by
  unfold workerKey
  infer_instance

instance canonicalWorker : Canonical worker := by
  unfold worker
  infer_instance

instance canonicalFaultRule : Canonical faultRule := by
  unfold faultRule
  infer_instance

instance canonicalAdminOverride : Canonical adminOverride := by
  unfold adminOverride
  infer_instance

instance canonicalPropagationHop : Canonical propagationHop := by
  unfold propagationHop
  infer_instance

instance canonicalExplanationLine : Canonical explanationLine := by
  unfold explanationLine
  infer_instance

instance canonicalVerificationFinding : Canonical verificationFinding := by
  unfold verificationFinding
  infer_instance

instance canonicalVerification : Canonical verification := by
  unfold verification
  infer_instance

instance canonicalContainment : Canonical containment := by
  unfold containment
  infer_instance

instance canonicalDegraded : Canonical degraded := by
  unfold degraded
  infer_instance

instance canonicalDegradedContract : Canonical degradedContract := by
  unfold degradedContract
  infer_instance

instance canonicalHistoryEvent : Canonical historyEvent := by
  unfold historyEvent
  infer_instance

/-! ## The order is all that may be missing -/

section Keyed

variable {κ ν ε : Type} [LinearOrder κ]

instance narrowsKeyed (l : SortedLayout κ ν ε) (strict : Bool) (c' c : Codec ε) [Narrows c' c] (ceiling : ℕ) (hc) :
    Narrows (keyedBy true l strict c' ceiling hc) (keyedBy false l strict c ceiling hc) :=
  narrowsAscending c' c l strict ceiling hc

instance narrowsRecords (strict : Bool) (key : ν → κ) (c' c : Codec ν) [Narrows c' c] :
    Narrows (recordsBy true strict key c') (recordsBy false strict key c) := narrowsKeyed _ _ c' c _ _

instance narrowsEntries (c : Codec (κ × ν)) [Canonical c] :
    Narrows (entriesBy true c) (entriesBy false c) := narrowsKeyed _ _ c c _ _

end Keyed

instance narrowsTargets : Narrows (targetsBy true) (targetsBy false) := narrowsKeyed _ _ _ _ _ _

instance narrowsRules : Narrows (rulesBy true) (rulesBy false) := narrowsKeyed _ _ _ _ _ _

instance narrowsEnvelope : Narrows (envelopeBy true) (envelopeBy false) := by
  unfold envelopeBy
  refine @narrowsIso _ _ _ _ ?_ _ _ _ _
  infer_instance

instance narrowsAction : Narrows (actionBy true) (actionBy false) := by
  unfold actionBy
  refine @narrowsCheck _ _ _ (@narrowsIso _ _ _ _ ?_ _ _ _ _) _
  infer_instance

instance narrowsPolicy : Narrows (policyBy true) (policyBy false) := by
  unfold policyBy
  refine @narrowsCheck _ _ _ (@narrowsIso _ _ _ _ ?_ _ _ _ _) _
  infer_instance

instance narrowsTopology : Narrows (topologyBy true) (topologyBy false) := by
  unfold topologyBy
  refine @narrowsCheck _ _ _ (@narrowsIso _ _ _ _ ?_ _ _ _ _) _
  infer_instance

instance narrowsDocument : Narrows (documentBy true) (documentBy false) := by
  unfold documentBy
  refine @narrowsCheck _ _ _ (@narrowsThrough _ _ _ _ ?_ _ _ _ _) _
  infer_instance

/-- every keyed section of the document, and of the policy and the envelopes in it, lists its keys in strictly ascending
order -/
def Ascending (b : Bytes) : Prop := ((documentBy true).dec b).isSome = true

instance (b : Bytes) : Decidable (Ascending b) := inferInstanceAs (Decidable (_ = true))

/-- **Which documents are the encoding of their state.** Of a document that was read to its end, the state is written as
the same bytes exactly when its keyed sections ascend and it keeps to the ceiling of the writer. -/
theorem reencode_iff {b : Bytes} {s : RuntimeSnapshot} (h : readStateDocument b = some (s, [])) :
    writeStateDocument s = some b ↔ Ascending b ∧ b.length ≤ kMaxDocumentBytes := by
  obtain ⟨⟨d, rest⟩, hd, hp⟩ := Option.map_eq_some_iff.mp h
  obtain ⟨rfl, rfl⟩ := Prod.mk.inj hp
  have hedges := ((sound_iff d).mp (stateDocument.of_dec _ _ _ hd).2.1).edges.1
  have hexact : stateDocument.enc d = some b ↔ Ascending b := narrowsDocument.exact_iff hd
  rw [← hexact]
  unfold writeStateDocument
  rw [load_document d hedges, Option.filter_eq_some_iff, decide_eq_true_eq]

/-- a state that knows the current boots of two workers -/
def twoBoots : RuntimeSnapshot :=
  { workers := { currentBoot := ((∅ : OrderedMap WorkerId WorkerBootId).insert ⟨1⟩ ⟨7⟩).insert ⟨2⟩ ⟨9⟩ } }

/-- its document: the two boots are entries of sixteen bytes, the second one from byte 249 on -/
def twoBootsDocument : Bytes := (writeStateDocument twoBoots).getD []

/-- a document as it was written is written again -/
theorem reencode_iff_twoBoots : ∃ s, readStateDocument twoBootsDocument = some (s, []) ∧
    writeStateDocument s = some twoBootsDocument := by
  have hread : (readStateDocument twoBootsDocument).any (fun p => p.2 = []) = true := by decide +kernel
  obtain ⟨p, hp, hrest⟩ := (Option.any_eq_true _ _).mp hread
  have hp : readStateDocument twoBootsDocument = some (p.1, []) := by
    rw [hp, ← of_decide_eq_true hrest]
  exact ⟨p.1, hp, (reencode_iff hp).mpr ⟨by decide +kernel, by decide +kernel⟩⟩

/-- the second boot renamed to the first worker -/
def repeatedBoot : Bytes := twoBootsDocument.set 249 1

/-- the reader keeps the first of the two boots, and the state is written without the second -/
theorem repeatedBoot_merged : ¬ ∀ (b : Bytes) (s : RuntimeSnapshot), readStateDocument b = some (s, []) →
    writeStateDocument s = some b := by
  intro h
  have hread : (readStateDocument repeatedBoot).any
      (fun p => p.2 = [] && writeStateDocument p.1 != some repeatedBoot) = true := by decide +kernel
  obtain ⟨p, hp, hdiffers⟩ := (Option.any_eq_true _ _).mp hread
  obtain ⟨hrest, hdiffers⟩ := Bool.and_eq_true_iff.mp hdiffers
  refine bne_iff_ne.mp hdiffers (h _ _ ?_)
  rw [hp, ← of_decide_eq_true hrest]

end FaultContainment.StateDocument
