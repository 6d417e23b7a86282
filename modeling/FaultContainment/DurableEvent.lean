/-
Durable events: what one journal record carries.

An event is a kind, a body of the kind's own type, and optionally an audit record. `encodeEvent` is what `stage` writes (two
byte writers, either of which may refuse), `decodeDurableEvent` and `readBody` are what recovery reads.

- `decode_encode`: an event that was written, and whose body and audit record the readers accept, is read back.
- `encodeEvent_length`: an event is always shorter than a journal record may be.
-/
import FaultContainment.StateCodec

namespace FaultContainment.DurableEvent

open FaultContainment.Lib FaultContainment.Ids FaultContainment.Enums FaultContainment.Records
open FaultContainment.Lib.Codec FaultContainment.StateCodec

/-- kind tags of journal events -/
inductive DurableEventKind where
  | resourceUpsert | resourceRemove | containmentDomainUpsert | containmentDomainRemove | isolationDomainUpsert
  | isolationDomainRemove | failureDomainUpsert | failureDomainRemove | dependencyUpsert | dependencyRemove
  | policySet | faultUpsert | containmentUpsert | actionUpsert | workerUpsert | workerCurrentBoot | currentFault
  | degradedUpsert | counters | history | recoveryMark
  deriving DecidableEq, Repr

instance : Coded DurableEventKind where
  table := [(.resourceUpsert, "RESOURCE_UPSERT"), (.resourceRemove, "RESOURCE_REMOVE"),
    (.containmentDomainUpsert, "CONTAINMENT_DOMAIN_UPSERT"), (.containmentDomainRemove, "CONTAINMENT_DOMAIN_REMOVE"),
    (.isolationDomainUpsert, "ISOLATION_DOMAIN_UPSERT"), (.isolationDomainRemove, "ISOLATION_DOMAIN_REMOVE"),
    (.failureDomainUpsert, "FAILURE_DOMAIN_UPSERT"), (.failureDomainRemove, "FAILURE_DOMAIN_REMOVE"),
    (.dependencyUpsert, "DEPENDENCY_UPSERT"), (.dependencyRemove, "DEPENDENCY_REMOVE"), (.policySet, "POLICY_SET"),
    (.faultUpsert, "FAULT_UPSERT"), (.containmentUpsert, "CONTAINMENT_UPSERT"), (.actionUpsert, "ACTION_UPSERT"),
    (.workerUpsert, "WORKER_UPSERT"), (.workerCurrentBoot, "WORKER_CURRENT_BOOT"), (.currentFault, "CURRENT_FAULT"),
    (.degradedUpsert, "DEGRADED_UPSERT"), (.counters, "COUNTERS"), (.history, "HISTORY"),
    (.recoveryMark, "RECOVERY_MARK")]
  complete a := by cases a <;> decide
  small := by decide
  distinct := by decide

/-- the monotonic counters; `release_generation` is written but never filled in or applied -/
structure Counters where
  epoch : CoordinatorEpoch := {}
  topologyGeneration : TopologyGeneration := {}
  policyGeneration : PolicyGeneration := {}
  containmentGeneration : ContainmentGeneration := {}
  verificationGeneration : VerificationGeneration := {}
  releaseGeneration : ReleaseGeneration := {}
  historySequence : HistorySequence := {}
  nextFaultId : UInt64 := 0
  nextActionId : UInt64 := 0
  nextDegradedId : UInt64 := 0
  deriving DecidableEq

/-- `write_counters`, `read_counters` -/
def countersCodec : Codec Counters :=
  (pair ident <| pair ident <| pair ident <| pair ident <| pair ident <| pair ident <| pair ident <| pair u64 <|
    pair u64 <| u64).iso
    (fun r => (r.epoch, r.topologyGeneration, r.policyGeneration, r.containmentGeneration, r.verificationGeneration,
      r.releaseGeneration, r.historySequence, r.nextFaultId, r.nextActionId, r.nextDegradedId))
    (fun (epoch, topologyGeneration, policyGeneration, containmentGeneration, verificationGeneration,
      releaseGeneration, historySequence, nextFaultId, nextActionId, nextDegradedId) =>
      { epoch, topologyGeneration, policyGeneration, containmentGeneration, verificationGeneration, releaseGeneration,
        historySequence, nextFaultId, nextActionId, nextDegradedId })
    (fun _ => rfl) (fun _ => rfl)

/-- what the body of an event of each kind is -/
abbrev Body : DurableEventKind → Type
  | .resourceUpsert => ResourceRecord
  | .resourceRemove => ResourceId
  | .containmentDomainUpsert => ContainmentDomain
  | .containmentDomainRemove => ContainmentDomainId
  | .isolationDomainUpsert => IsolationDomain
  | .isolationDomainRemove => IsolationDomainId
  | .failureDomainUpsert => FailureDomain
  | .failureDomainRemove => FailureDomainId
  | .dependencyUpsert => DependencyEdge
  | .dependencyRemove => DependencyId
  | .policySet => ContainmentPolicy
  | .faultUpsert => FaultRecord
  | .containmentUpsert => ContainmentRecord
  | .actionUpsert => ContainmentAction
  | .workerUpsert => WorkerRecord
  | .workerCurrentBoot => WorkerId × WorkerBootId
  | .currentFault => FaultId
  | .degradedUpsert => DegradedModeContract × DegradedModeAssessment
  | .counters => Counters
  | .history => Unit
  | .recoveryMark => Unit

instance decidableEqBody : (kind : DurableEventKind) → DecidableEq (Body kind)
  | .resourceUpsert => inferInstanceAs (DecidableEq ResourceRecord)
  | .resourceRemove => inferInstanceAs (DecidableEq ResourceId)
  | .containmentDomainUpsert => inferInstanceAs (DecidableEq ContainmentDomain)
  | .containmentDomainRemove => inferInstanceAs (DecidableEq ContainmentDomainId)
  | .isolationDomainUpsert => inferInstanceAs (DecidableEq IsolationDomain)
  | .isolationDomainRemove => inferInstanceAs (DecidableEq IsolationDomainId)
  | .failureDomainUpsert => inferInstanceAs (DecidableEq FailureDomain)
  | .failureDomainRemove => inferInstanceAs (DecidableEq FailureDomainId)
  | .dependencyUpsert => inferInstanceAs (DecidableEq DependencyEdge)
  | .dependencyRemove => inferInstanceAs (DecidableEq DependencyId)
  | .policySet => inferInstanceAs (DecidableEq ContainmentPolicy)
  | .faultUpsert => inferInstanceAs (DecidableEq FaultRecord)
  | .containmentUpsert => inferInstanceAs (DecidableEq ContainmentRecord)
  | .actionUpsert => inferInstanceAs (DecidableEq ContainmentAction)
  | .workerUpsert => inferInstanceAs (DecidableEq WorkerRecord)
  | .workerCurrentBoot => inferInstanceAs (DecidableEq (WorkerId × WorkerBootId))
  | .currentFault => inferInstanceAs (DecidableEq FaultId)
  | .degradedUpsert => inferInstanceAs (DecidableEq (DegradedModeContract × DegradedModeAssessment))
  | .counters => inferInstanceAs (DecidableEq Counters)
  | .history => inferInstanceAs (DecidableEq Unit)
  | .recoveryMark => inferInstanceAs (DecidableEq Unit)

/-- how the body of each kind is written by `stage` and read by `apply_event` -/
def bodyCodec : (kind : DurableEventKind) → Codec (Body kind)
  | .resourceUpsert => resource
  | .resourceRemove => ident
  | .containmentDomainUpsert => containmentDomain
  | .containmentDomainRemove => ident
  | .isolationDomainUpsert => isolationDomain
  | .isolationDomainRemove => ident
  | .failureDomainUpsert => failureDomain
  | .failureDomainRemove => ident
  | .dependencyUpsert => dependency
  | .dependencyRemove => ident
  | .policySet => policy
  | .faultUpsert => fault
  | .containmentUpsert => containment
  | .actionUpsert => action
  | .workerUpsert => worker
  | .workerCurrentBoot => pair ident ident
  | .currentFault => ident
  | .degradedUpsert => pair degradedContract degraded
  | .counters => countersCodec
  | .history => unit
  | .recoveryMark => unit

/-- an event as the engine stages it -/
structure Event where
  kind : DurableEventKind
  body : Body kind
  history : Option HistoryEvent := none
  deriving DecidableEq

/-- an event as the journal carries it: the body is still bytes -/
structure RawEvent where
  kind : DurableEventKind
  history : Option HistoryEvent
  payload : Bytes

/-- `write_durable_event`, `read_durable_event` -/
def envelope : Codec RawEvent :=
  (pair coded <| pair (optional boolean (fun b => by cases b <;> exact ⟨⟨trivial, trivial⟩, trivial, trivial⟩)
    historyEvent) <| blob kMaxBlobBytes (by decide)).iso
    (fun e => (e.kind, e.history, e.payload)) (fun (kind, history, payload) => { kind, history, payload })
    (fun _ => rfl) (fun _ => rfl)

/-- the two writers of `stage`: the body, then the event around it -/
def encodeEvent (e : Event) : Option Bytes :=
  ((bodyCodec e.kind).enc e.body).bind fun payload => envelope.enc ⟨e.kind, e.history, payload⟩

/-- `decode_durable_event`: a whole event and nothing after it -/
def decodeDurableEvent (bytes : Bytes) : Option RawEvent :=
  match envelope.dec bytes with
  | some (e, []) => some e
  | _ => none

/-- the readers of `apply_event`: the body and nothing after it, and a HISTORY event carries its audit record -/
def readBody (e : RawEvent) : Option Event :=
  match (bodyCodec e.kind).dec e.payload with
  | some (body, []) => if e.kind = .history ∧ e.history = none then none else some ⟨e.kind, body, e.history⟩
  | _ => none

/-- what recovery makes of one journal record -/
def decodeEvent (bytes : Bytes) : Option Event := (decodeDurableEvent bytes).bind readBody

/-! ## What the two sides insist on -/

/-- every text of the event is UTF-8 -/
def Clean (e : Event) : Prop := (bodyCodec e.kind).clean e.body ∧ ∀ h, e.history = some h → historyEvent.clean h

/-- every text and the body itself keep to their byte ceilings -/
def Fits (e : Event) : Prop :=
  (bodyCodec e.kind).fits e.body ∧ (∀ h, e.history = some h → historyEvent.fits h) ∧
    ∀ bs, (bodyCodec e.kind).enc e.body = some bs → bs.length ≤ kMaxBlobBytes

/-- the readers accept the content of the body -/
def Sound (e : Event) : Prop := (bodyCodec e.kind).sound e.body ∧ (e.kind = .history → e.history ≠ none)

/-- every collection of the body keeps to the reader's ceiling -/
def Counted (e : Event) : Prop := (bodyCodec e.kind).counted e.body

theorem historyEvent_sound (h : HistoryEvent) : historyEvent.sound h := by
  simp [historyEvent]

theorem historyEvent_counted (h : HistoryEvent) : historyEvent.counted h := by
  simp [historyEvent]

theorem encodeEvent_iff (e : Event) : (∃ bs, encodeEvent e = some bs) ↔ Clean e ∧ Fits e := by
  have hbody := (bodyCodec e.kind).enc_iff e.body
  constructor
  · rintro ⟨bs, h⟩
    obtain ⟨payload, hp, he⟩ := Option.bind_eq_some_iff.mp h
    obtain ⟨hc, hf⟩ := (envelope.enc_iff ⟨e.kind, e.history, payload⟩).mp ⟨bs, he⟩
    obtain ⟨hbc, hbf⟩ := hbody.mp ⟨payload, hp⟩
    refine ⟨⟨hbc, hc.2.1⟩, hbf, hf.2.1, fun bs' h' => ?_⟩
    obtain rfl : payload = bs' := Option.some.inj (hp.symm.trans h')
    exact hf.2.2
  · rintro ⟨⟨hbc, hhc⟩, hbf, hhf, hlen⟩
    obtain ⟨payload, hp⟩ := hbody.mpr ⟨hbc, hbf⟩
    have henv : envelope.clean ⟨e.kind, e.history, payload⟩ ∧ envelope.fits ⟨e.kind, e.history, payload⟩ :=
      ⟨⟨trivial, hhc, trivial⟩, trivial, hhf, hlen payload hp⟩
    obtain ⟨bs, hbs⟩ := (envelope.enc_iff _).mpr henv
    exact ⟨bs, by simp [encodeEvent, hp, hbs]⟩

/-- **An event is read back.** What `stage` wrote of a sound, counted event decodes to that event. -/
theorem decode_encode (e : Event) (hs : Sound e) (hn : Counted e) (bs : Bytes) (h : encodeEvent e = some bs) :
    decodeEvent bs = some e := by
  obtain ⟨payload, hp, he⟩ := Option.bind_eq_some_iff.mp h
  have henv := envelope.dec_enc_nil (a := ⟨e.kind, e.history, payload⟩)
    ⟨trivial, fun h' _ => historyEvent_sound h', trivial⟩ ⟨trivial, fun h' _ => historyEvent_counted h', trivial⟩ he
  have hbody := (bodyCodec e.kind).dec_enc_nil hs.1 hn hp
  have hk : ¬ (e.kind = .history ∧ e.history = none) := fun hk => hs.2 hk.1 hk.2
  obtain ⟨kind, body, history⟩ := e
  simp only [decodeEvent, decodeDurableEvent, henv, Option.bind_some, readBody, hbody, if_neg hk]

/-- **An event fits a journal record.** Whatever its body, it is far below 8 MiB. -/
theorem encodeEvent_length {e : Event} {bs : Bytes} (h : encodeEvent e = some bs) :
    bs.length ≤ 3 + (66 + 2 * (4 + kMaxStringBytes)) + (4 + kMaxBlobBytes) := by
  obtain ⟨payload, -, he⟩ := Option.bind_eq_some_iff.mp h
  have hflag : boolean.AtMost 1 := (atMost_word 1 _ _ _ _).through _ _ _ _
  have henv : envelope.AtMost (2 + ((1 + (66 + 2 * (4 + kMaxStringBytes))) + (4 + kMaxBlobBytes))) :=
    (atMost_coded.pair ((hflag.optional atMost_historyEvent _).pair (atMost_blob _ _))).iso _ _ _ _
  have := henv _ _ he
  omega

end FaultContainment.DurableEvent
