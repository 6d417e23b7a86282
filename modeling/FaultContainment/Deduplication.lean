/-
Deduplication of observations.

A publication is merged into a stored fault when the digests of the two observations agree. The digest covers every field but
the identity, and is a hash of their encoding; an observation that cannot be encoded has the all-zero digest, which all such
observations share. An identity is allocated from a counter that identities chosen by reporters may have reached already.

A run has operations, snapshots and recoveries. It keeps the observations the faults were first published from and the fault
records it has written; a recovery may find any of those records in the files.

- `digestBytes_same`: two observations with one encoding agree in every field but identity and digest.
- `known_after`: every operation keeps index, faults and observations in step.
- `known_run`: so does every run.
- `deduplicates_iff`: when a publication is merged into the fault of its own observation only, and never conflicts over an
  allocated identity.
-/
import FaultContainment.Engine.Staged
import FaultContainment.Engine.Lives
import FaultContainment.OperatorReports

namespace FaultContainment.Deduplication

open FaultContainment.Lib FaultContainment.Ids FaultContainment.Enums FaultContainment.Records FaultContainment.StateCodec
open FaultContainment.DurableEvent FaultContainment.Engine FaultContainment.Dispatching FaultContainment.Containments
open FaultContainment.Observations
open FaultContainment.OperatorReports

/-! ## The digest -/

/-- the bytes the digest is taken of -/
def digestBytes (e : FaultEvidence) : Option Bytes :=
  digestCodec.enc
    (e.generation.value, Coded.name e.kind, e.subject.value, e.subjectGeneration.value, Coded.name e.reporterKind,
      e.reporterWorker.value, e.reporterBoot.value, e.epoch.value, Coded.name e.provenance,
      e.observationSequence.value, e.publicationTimeMs, Coded.name e.freshness, Coded.name e.integrity,
      e.confidencePermille, e.details)

theorem computeEvidenceDigest_eq (e : FaultEvidence) :
    computeEvidenceDigest e = (digestBytes e).elim default Digest.sha256 := by
  unfold computeEvidenceDigest digestBytes
  cases digestCodec.enc _ <;> rfl

/-- an enumeration whose spellings differ is told apart by them -/
theorem name_injective {α : Type} [DecidableEq α] [Coded α]
    (h : ((Coded.table (α := α)).map fun p => lit p.2).Nodup) : Function.Injective (Coded.name : α → Text) := by
  have hname : ∀ a : α, ∃ p ∈ Coded.table (α := α), p.1 = a ∧ Coded.name a = lit p.2 := by
    intro a
    obtain ⟨p, hp, hpa⟩ := List.mem_map.mp (Coded.complete a)
    cases hfind : (Coded.table (α := α)).find? fun p => p.1 = a with
    | none =>
      rw [List.find?_eq_none] at hfind
      exact absurd (decide_eq_true hpa) (hfind p hp)
    | some q =>
      refine ⟨q, List.mem_of_find?_eq_some hfind, by simpa using List.find?_some hfind, ?_⟩
      unfold Coded.name
      rw [hfind]
  intro a b hab
  obtain ⟨p, hp, rfl, hpa⟩ := hname a
  obtain ⟨q, hq, rfl, hqb⟩ := hname b
  rw [List.inj_on_of_nodup_map h hp hq ((hpa.symm.trans hab).trans hqb)]

/-- the same in every field but identity and digest -/
def SameObservation (o e : FaultEvidence) : Prop := { o with id := e.id, digest := e.digest } = e

instance (o e : FaultEvidence) : Decidable (SameObservation o e) := by
  unfold SameObservation
  infer_instance

theorem digestBytes_congr {o e : FaultEvidence} (h : SameObservation o e) : digestBytes o = digestBytes e := by
  rw [← h]
  rfl

/-- what the writer writes, it reads back -/
theorem digestCodec_injective {a b : UInt64 × Text × UInt64 × UInt64 × Text × UInt64 × UInt64 × UInt64 × Text × UInt64 ×
    UInt64 × Text × Text × UInt16 × Text} {bytes : Bytes} (ha : digestCodec.enc a = some bytes)
    (hb : digestCodec.enc b = some bytes) : a = b := by
  have hread : ∀ c, digestCodec.enc c = some bytes → digestCodec.dec bytes = some (c, []) := by
    intro c hc
    refine digestCodec.dec_enc_nil ?_ ?_ hc
    · exact ⟨trivial, trivial, trivial, trivial, trivial, trivial, trivial, trivial, trivial, trivial, trivial, trivial,
        trivial, trivial, trivial⟩
    · exact ⟨trivial, trivial, trivial, trivial, trivial, trivial, trivial, trivial, trivial, trivial, trivial, trivial,
        trivial, trivial, trivial⟩
  exact congrArg Prod.fst (Option.some.inj ((hread a ha).symm.trans (hread b hb)))

/-- **The digest covers the observation.** One encoding, one observation. -/
theorem digestBytes_same {o e : FaultEvidence} {bytes : Bytes} (ho : digestBytes o = some bytes)
    (he : digestBytes e = some bytes) : SameObservation o e := by
  have hfields := digestCodec_injective ho he
  simp only [Prod.mk.injEq] at hfields
  obtain ⟨hgeneration, hkind, hsubject, hsubjectGeneration, hreporterKind, hworker, hboot, hepoch, hprovenance, hsequence,
    htime, hfreshness, hintegrity, hconfidence, hdetails⟩ := hfields
  have hid : ∀ {t : IdTag} {a b : Ids.Id t}, a.value = b.value → a = b := fun h => congrArg Ids.Id.mk h
  obtain ⟨⟩ := e
  rw [SameObservation, FaultEvidence.mk.injEq]
  exact ⟨rfl, hid hgeneration, name_injective (by decide +kernel) hkind, hid hsubject, hid hsubjectGeneration,
    name_injective (by decide +kernel) hreporterKind, hid hworker, hid hboot, hid hepoch,
    name_injective (by decide +kernel) hprovenance, hid hsequence, htime, name_injective (by decide +kernel) hfreshness,
    name_injective (by decide +kernel) hintegrity, hconfidence, hdetails, rfl⟩

/-! ## Runs with snapshots and recoveries -/

/-- an engine, the observation each of its faults was first published from, and the fault records it has written -/
structure Life where
  impl : Impl
  origins : OrderedMap FaultId FaultEvidence := ∅
  recorded : List FaultRecord := []

/-- a new engine, nothing published or written -/
def Life.start (clk : Clock) (config : Config) : Life := { impl := construct clk config }

/-- the fault a journal record is about -/
def faultRecord : DurableEvent.Event → Option FaultRecord
  | ⟨.faultUpsert, f, _⟩ => some f
  | _ => none

/-- a publication that stores a fault under an identity that was free is the first of that fault -/
def originsAfter (c : Call) (i : Impl) (origins : OrderedMap FaultId FaultEvidence) : OrderedMap FaultId FaultEvidence :=
  match c.op with
  | .publishFault evidence =>
    let e := normalizeEvidence evidence i
    if i.state.faults.has e.id = false ∧ (c.after i).state.faults.has e.id = true then origins.insert e.id e else origins
  | _ => origins

/-- after a recovery the files hold nothing about faults that were lost -/
def Life.after : Move → Life → Life
  | .call c, l =>
    { impl := c.after l.impl
      origins := originsAfter c l.impl l.origins
      recorded := l.recorded ++ (c.op.run c.clk l.impl).staged.filterMap faultRecord }
  | .snapshot, l => { l with recorded := l.recorded ++ l.impl.state.faults.vals }
  | .recover clk io nowMs s, l =>
    let i := (recoverFromStore clk io nowMs s).1.impl
    { l with impl := i, recorded := l.recorded.filter fun r => i.state.faults.has r.evidence.id }

/-- the files hold fault records the run has written, all of them or some -/
def Holds (l : Life) (s : Sys) : Prop :=
  Finds s fun _ loaded es => (∀ id f, loaded.state.faults.find id = some f → f ∈ l.recorded) ∧
    ∀ e ∈ es, ∀ f, faultRecord e = some f → f ∈ l.recorded

/-- recoveries succeed, on files of this run -/
def Kept : Move → Life → Prop :=
  Move.Promised fun clk io nowMs s l => Holds l s ∧ (recoverFromStore clk io nowMs s).2.isOk = true

/-- the evidence of a fault is an observation, the generation apart -/
def From (f : FaultRecord) (o : FaultEvidence) : Prop := { f.evidence with generation := o.generation } = o

/-- index, faults, observations and written records are in step -/
structure Known (l : Life) : Prop where
  cataloged : Cataloged l.impl
  indexed : ∀ id f, l.impl.state.faults.find id = some f → l.impl.faultByDigest.find f.evidence.digest = some id
  origin : ∀ id f, l.impl.state.faults.find id = some f → ∃ o, l.origins.find id = some o ∧ From f o
  genuine : ∀ id o, l.origins.find id = some o → o.digest = computeEvidenceDigest o
  recorded : ∀ r ∈ l.recorded, ∃ f o, l.impl.state.faults.find r.evidence.id = some f ∧
    f.evidence.digest = r.evidence.digest ∧ l.origins.find r.evidence.id = some o ∧ From r o

theorem known_start (clk : Clock) (config : Config) : Known (.start clk config) where
  cataloged := cataloged_start (.fresh clk config) trivial
  indexed id f hf := by
    have hnone : (construct clk config).state.faults.find id = none := OrderedMap.find_empty id
    exact absurd (hnone.symm.trans hf) (by simp)
  origin id f hf := by
    have hnone : (construct clk config).state.faults.find id = none := OrderedMap.find_empty id
    exact absurd (hnone.symm.trans hf) (by simp)
  genuine id o ho := absurd ((OrderedMap.find_empty id).symm.trans ho) (by simp)
  recorded r hr := absurd hr List.not_mem_nil

/-! ## Written records -/

theorem kind_of_faultRecord {e : DurableEvent.Event} {f : FaultRecord} (h : faultRecord e = some f) :
    e.kind = .faultUpsert := by
  obtain ⟨kind, body, history⟩ := e
  cases kind <;> first | rfl | simp [faultRecord] at h

/-- a fault record that an edit stages is stored -/
theorem stageFault_written {id : FaultId} {f : Option FaultRecord} {i : Impl} {e : DurableEvent.Event} {r : FaultRecord}
    (he : e ∈ (stageFault id f i).2) (hr : faultRecord e = some r) :
    (stageFault id f i).1.state.faults.find id = some r := by
  cases f with
  | none => exact absurd he List.not_mem_nil
  | some f =>
    rw [List.mem_singleton.mp he] at hr
    obtain rfl := Option.some.inj hr
    exact OrderedMap.find_insert_self _ _ _

/-- the fault records around an audited event -/
theorem commit_written {α : Type} {i : Impl} {time : UInt64} {entry : HistoryEvent} {before : List DurableEvent.Event}
    {event : Option HistoryEvent → DurableEvent.Event} {after : List DurableEvent.Event} {a : α} {r : FaultRecord}
    {e : DurableEvent.Event} (he : e ∈ (commit i time entry before event after a).staged) (hr : faultRecord e = some r) :
    e ∈ before ∨ faultRecord (event (some (i.stamped time entry))) = some r ∨ e ∈ after := by
  rcases List.mem_append.mp he with he | he
  · exact .inl he
  rcases List.mem_cons.mp he with rfl | he
  · exact .inr (.inl hr)
  rcases List.mem_append.mp he with he | he
  · exact .inr (.inr he)
  · rw [List.mem_singleton.mp he] at hr
    simp [Impl.countersEvent, faultRecord] at hr

/-- a section that turns its request down writes nothing -/
theorem refuse_written {α : Type} {i : Impl} {error : Error} {e : DurableEvent.Event}
    (he : e ∈ (Step.refuse i error : Step α).staged) : False := List.not_mem_nil he

theorem publishFault_written (clk : Clock) (evidence : FaultEvidence) (i : Impl) {e : DurableEvent.Event} {r : FaultRecord}
    (he : e ∈ (publishFault clk evidence i).staged) (hr : faultRecord e = some r) :
    ∃ id, (publishFault clk evidence i).impl.state.faults.find id = some r := by
  cases publishFault_cases clk evidence i with
  | rejected j error _ _ _ h => exact (refuse_written (h ▸ he)).elim
  | refused error _ _ _ h => exact (refuse_written (h ▸ he)).elim
  | duplicate id _ _ h =>
    rw [h] at he ⊢
    rw [List.mem_singleton.mp he] at hr
    obtain rfl := Option.some.inj hr
    exact ⟨id, OrderedMap.find_insert_self _ _ _⟩
  | fresh _ _ hadmitted h =>
    rw [← admitFault_allocate _ evidence] at hadmitted
    obtain ⟨-, hfaults, -, -⟩ := storeFault_stored clk hadmitted
    rw [h] at he ⊢
    rw [hfaults]
    rcases commit_written he hr with he | hr | he
    · exact absurd he List.not_mem_nil
    · obtain rfl := Option.some.inj hr
      exact ⟨_, OrderedMap.find_insert_self _ _ _⟩
    · rw [List.mem_singleton.mp he] at hr
      simp [faultRecord] at hr

theorem supersedeFault_written (clk : Clock) (id : FaultId) (expected : FaultGeneration) (reason : Text) (i : Impl)
    {e : DurableEvent.Event} {r : FaultRecord} (he : e ∈ (supersedeFault clk id expected reason i).staged)
    (hr : faultRecord e = some r) : ∃ k, (supersedeFault clk id expected reason i).impl.state.faults.find k = some r := by
  unfold supersedeFault at he ⊢
  split at he
  · exact (refuse_written he).elim
  · rcases commit_written he hr with he | hr | he
    · exact absurd he List.not_mem_nil
    · obtain rfl := Option.some.inj hr
      exact ⟨id, OrderedMap.find_insert_self _ _ _⟩
    · exact absurd he List.not_mem_nil

theorem authorizeContainment_written (clk : Clock) (id : FaultId) (expected : FaultGeneration) (i : Impl)
    {e : DurableEvent.Event} {r : FaultRecord} (he : e ∈ (authorizeContainment clk id expected i).staged)
    (hr : faultRecord e = some r) : ∃ k, (authorizeContainment clk id expected i).impl.state.faults.find k = some r := by
  unfold authorizeContainment at he ⊢
  split at he
  · exact (refuse_written he).elim
  split at he
  · exact (refuse_written he).elim
  · refine ⟨id, ?_⟩
    rw [commitContainment_faults, OrderedMap.find_insert_self]
    unfold commitContainment at he
    rcases commit_written he hr with he | hr | he
    · have hkind := kind_of_faultRecord hr
      rcases List.mem_append.mp he with he | he
      · rcases List.mem_append.mp he with he | he
        · exact absurd ((kind_editEach he).symm.trans hkind) (by decide)
        · exact absurd ((kind_editEach he).symm.trans hkind) (by decide)
      · obtain ⟨a, -, rfl⟩ := List.mem_map.mp he
        exact absurd (show DurableEventKind.actionUpsert = .faultUpsert from hkind) (by decide)
    · simp [faultRecord] at hr
    · rw [List.mem_singleton.mp he] at hr
      exact hr

theorem verifyContainment_written (clk : Clock) (generation : ContainmentGeneration) (i : Impl)
    {e : DurableEvent.Event} {r : FaultRecord} (he : e ∈ (verifyContainment clk generation i).staged)
    (hr : faultRecord e = some r) : ∃ k, (verifyContainment clk generation i).impl.state.faults.find k = some r := by
  unfold verifyContainment at he ⊢
  split at he
  · exact (refuse_written he).elim
  · next record _ =>
    rcases commit_written he hr with he | hr | he
    · exact ⟨record.fault, stageFault_written he hr⟩
    · simp [faultRecord] at hr
    · exact absurd he List.not_mem_nil

theorem authorizeRelease_written (clk : Clock) (request : ReleaseRequest) (i : Impl)
    {e : DurableEvent.Event} {r : FaultRecord} (he : e ∈ (authorizeRelease clk request i).staged)
    (hr : faultRecord e = some r) : ∃ k, (authorizeRelease clk request i).impl.state.faults.find k = some r := by
  have htaken : ∀ g id (j : Impl), (∀ e ∈ (takeOffContainment clk g id j).2.1, faultRecord e = some r →
      ∃ k, (takeOffContainment clk g id j).1.state.faults.find k = some r) ∧
      ∀ e ∈ (takeOffContainment clk g id j).2.2, faultRecord e ≠ some r := by
    intro g id j
    unfold takeOffContainment
    split
    · exact ⟨fun _ he => absurd he List.not_mem_nil, fun _ he => absurd he List.not_mem_nil⟩
    · next c hc =>
      dsimp only
      refine ⟨?_, fun e he => ?_⟩
      · split
        · exact fun e he hr => ⟨c.fault, stageFault_written he hr⟩
        · exact fun _ he => absurd he List.not_mem_nil
      · rw [List.mem_singleton.mp he]
        simp [faultRecord]
  unfold authorizeRelease at he ⊢
  dsimp only at he ⊢
  split at he
  · rcases commit_written he hr with he | hr | he
    · exact absurd he List.not_mem_nil
    · simp [faultRecord] at hr
    · exact absurd he List.not_mem_nil
  · next hgranted =>
    rw [if_neg hgranted]
    split at he
    · exact (refuse_written he).elim
    · unfold grantRelease at he ⊢
      rcases commit_written he hr with he | hr | he
      · exact (htaken _ _ _).1 e he hr
      · simp [faultRecord] at hr
      · exact absurd hr ((htaken _ _ _).2 e he)

/-- **Written records.** A fault record that an operation writes is stored when it ends. -/
theorem written_stored (c : Call) (i : Impl) {e : DurableEvent.Event} {r : FaultRecord}
    (he : e ∈ (c.op.run c.clk i).staged) (hr : faultRecord e = some r) :
    ∃ id, (c.after i).state.faults.find id = some r := by
  have hkinds := stages_run c i e he
  rw [kind_of_faultRecord hr] at hkinds
  obtain ⟨clk, op⟩ := c
  cases op
  case publishFault evidence => exact publishFault_written clk evidence i he hr
  case supersedeFault id expected reason => exact supersedeFault_written clk id expected reason i he hr
  case authorizeContainment id expected => exact authorizeContainment_written clk id expected i he hr
  case verifyContainment generation => exact verifyContainment_written clk generation i he hr
  case authorizeRelease request => exact authorizeRelease_written clk request i he hr
  all_goals exact absurd hkinds (by simp [Op.kinds])

/-! ## What a run keeps -/

theorem From.digest {f : FaultRecord} {o : FaultEvidence} (h : From f o) : f.evidence.digest = o.digest := by
  rw [← h]

theorem From.rewritten {f f' : FaultRecord} {o : FaultEvidence} (h : From f o) (hf : Rewritten f f') : From f' o := by
  have hevidence := hf.evidence
  unfold From at h ⊢
  rw [← hevidence] at h
  exact h

/-- a fault that was stored still is, from the same observation -/
theorem revised_find {m m' : OrderedMap FaultId FaultRecord} (h : Revised m m') {id : FaultId} {f : FaultRecord}
    (hf : m.find id = some f) : ∃ f', m'.find id = some f' ∧ f'.evidence.digest = f.evidence.digest := by
  cases h with
  | same h => exact ⟨f, by rw [h]; exact hf, rfl⟩
  | rewrite k g g' hfind hg h =>
    rw [h, OrderedMap.find_insert]
    split_ifs with hk
    · rw [hk, hf] at hfind
      rw [Option.some.inj hfind]
      exact ⟨g', rfl, hg.fields.2.1⟩
    · exact ⟨f, hf, rfl⟩

/-- no fault appears, and each comes from the observation it came from -/
theorem revised_origin {m m' : OrderedMap FaultId FaultRecord} (h : Revised m m') {id : FaultId} {f' : FaultRecord}
    (hf' : m'.find id = some f') :
    ∃ f, m.find id = some f ∧ f'.evidence.digest = f.evidence.digest ∧ ∀ o, From f o → From f' o := by
  cases h with
  | same h => exact ⟨f', by rw [← h]; exact hf', rfl, fun _ ho => ho⟩
  | rewrite k g g' hfind hg h =>
    rw [h, OrderedMap.find_insert] at hf'
    split_ifs at hf' with hk
    · obtain rfl := Option.some.inj hf'
      exact ⟨g, hk ▸ hfind, hg.fields.2.1, fun _ ho => ho.rewritten hg⟩
    · exact ⟨f', hf', rfl, fun _ ho => ho⟩

/-- an operation that stores no new fault -/
theorem Known.revised {l l' : Life} (h : Known l) (hfaults : Revised l.impl.state.faults l'.impl.state.faults)
    (hindex : l'.impl.faultByDigest = l.impl.faultByDigest) (horigins : l'.origins = l.origins)
    (hrecorded : ∀ r ∈ l'.recorded, r ∈ l.recorded ∨ ∃ id, l'.impl.state.faults.find id = some r) : Known l' := by
  have hcataloged := h.cataloged.revised hfaults hindex
  have horigin : ∀ id f, l'.impl.state.faults.find id = some f → ∃ o, l'.origins.find id = some o ∧ From f o := by
    intro id f' hf'
    obtain ⟨f, hf, -, hfrom⟩ := revised_origin hfaults hf'
    obtain ⟨o, ho, hof⟩ := h.origin id f hf
    exact ⟨o, by rw [horigins]; exact ho, hfrom o hof⟩
  refine ⟨hcataloged, fun id f' hf' => ?_, horigin, fun id o ho => h.genuine id o (horigins ▸ ho), fun r hr => ?_⟩
  · obtain ⟨f, hf, hdigest, -⟩ := revised_origin hfaults hf'
    rw [hindex, hdigest]
    exact h.indexed id f hf
  · rcases hrecorded r hr with hold | ⟨id, hid⟩
    · obtain ⟨f, o, hf, hdigest, ho, hof⟩ := h.recorded r hold
      obtain ⟨f', hf', hdigest'⟩ := revised_find hfaults hf
      exact ⟨f', o, hf', hdigest'.trans hdigest, by rw [horigins]; exact ho, hof⟩
    · obtain rfl := hcataloged.keyed id r hid
      obtain ⟨o, ho, hof⟩ := horigin _ r hid
      exact ⟨r, o, hid, rfl, ho, hof⟩

/-- an operation that stores a new fault under its observation -/
theorem Known.fresh {l l' : Life} (h : Known l) {e : FaultEvidence} {f : FaultRecord}
    (hnew : l.impl.state.faults.find e.id = none) (hunknown : l.impl.faultByDigest.find e.digest = none)
    (hdigest : e.digest = computeEvidenceDigest e) (hf : f.evidence = e)
    (hfaults : l'.impl.state.faults = l.impl.state.faults.insert e.id f)
    (hindex : l'.impl.faultByDigest = l.impl.faultByDigest.insert e.digest e.id)
    (horigins : l'.origins = l.origins.insert e.id e)
    (hrecorded : ∀ r ∈ l'.recorded, r ∈ l.recorded ∨ ∃ id, l'.impl.state.faults.find id = some r) : Known l' := by
  have hfind : ∀ id g, l'.impl.state.faults.find id = some g →
      (id = e.id ∧ g = f) ∨ (id ≠ e.id ∧ l.impl.state.faults.find id = some g) := by
    intro id g hg
    rw [hfaults, OrderedMap.find_insert] at hg
    split_ifs at hg with hid
    · exact .inl ⟨hid.symm, (Option.some.inj hg).symm⟩
    · exact .inr ⟨Ne.symm hid, hg⟩
  have horigin : ∀ id g, l'.impl.state.faults.find id = some g → ∃ o, l'.origins.find id = some o ∧ From g o := by
    intro id g hg
    rw [horigins, OrderedMap.find_insert]
    rcases hfind id g hg with ⟨rfl, rfl⟩ | ⟨hne, hold⟩
    · exact ⟨e, if_pos rfl, by unfold From; rw [hf]⟩
    · rw [if_neg (Ne.symm hne)]
      exact h.origin id g hold
  have hcataloged : Cataloged l'.impl := by
    constructor
    · rw [hfaults]
      exact h.cataloged.keyed.insert (by rw [hf])
    · intro digest id hid
      rw [hindex, OrderedMap.find_insert] at hid
      rw [hfaults, OrderedMap.find_insert]
      split_ifs at hid with hd
      · rw [if_pos (Option.some.inj hid)]
        exact ⟨f, rfl, by rw [hf]; exact hd⟩
      · obtain ⟨g, hg, hgdigest⟩ := h.cataloged.stored digest id hid
        rw [if_neg fun heq => by rw [heq, hg] at hnew; simp at hnew]
        exact ⟨g, hg, hgdigest⟩
  refine ⟨hcataloged, fun id g hg => ?_, horigin, fun id o ho => ?_, fun r hr => ?_⟩
  · rw [hindex, OrderedMap.find_insert]
    rcases hfind id g hg with ⟨rfl, rfl⟩ | ⟨-, hold⟩
    · rw [hf, if_pos rfl]
    · have hknown := h.indexed id g hold
      rw [if_neg fun heq => by rw [heq, hknown] at hunknown; simp at hunknown]
      exact hknown
  · rw [horigins, OrderedMap.find_insert] at ho
    split_ifs at ho
    · rw [← Option.some.inj ho]
      exact hdigest
    · exact h.genuine id o ho
  · rcases hrecorded r hr with hold | ⟨id, hid⟩
    · obtain ⟨g, o, hg, hgdigest, ho, hof⟩ := h.recorded r hold
      have hne : e.id ≠ r.evidence.id := fun heq => by rw [heq, hg] at hnew; simp at hnew
      refine ⟨g, o, ?_, hgdigest, ?_, hof⟩
      · rw [hfaults, OrderedMap.find_insert, if_neg hne]
        exact hg
      · rw [horigins, OrderedMap.find_insert, if_neg hne]
        exact ho
    · obtain rfl := hcataloged.keyed id r hid
      obtain ⟨o, ho, hof⟩ := horigin _ r hid
      exact ⟨r, o, hid, rfl, ho, hof⟩

/-- the records written so far, and those of one operation -/
theorem recorded_call {l : Life} (c : Call) {r : FaultRecord} (hr : r ∈ (l.after (.call c)).recorded) :
    r ∈ l.recorded ∨ ∃ id, (l.after (.call c)).impl.state.faults.find id = some r := by
  rcases List.mem_append.mp hr with hr | hr
  · exact .inl hr
  · obtain ⟨e, he, her⟩ := List.mem_filterMap.mp hr
    exact .inr (written_stored c l.impl he her)

/-- **Step.** Every operation keeps index, faults, observations and written records in step. -/
theorem known_call {l : Life} (h : Known l) (c : Call) : Known (l.after (.call c)) := by
  by_cases hpublish : ∃ evidence, c.op = .publishFault evidence
  swap
  · have hne : ∀ evidence, c.op ≠ .publishFault evidence := fun evidence hop => hpublish ⟨evidence, hop⟩
    refine h.revised (revised_after c l.impl hne) (index_after c l.impl hne).1 ?_ fun r hr => recorded_call c hr
    show originsAfter c l.impl l.origins = l.origins
    unfold originsAfter
    split
    · next evidence hop => exact absurd hop (hne evidence)
    · rfl
  obtain ⟨evidence, hop⟩ := hpublish
  have hrun : (l.after (.call c)).impl = (publishFault c.clk evidence l.impl).impl := by
    show (c.op.run c.clk l.impl).impl = _
    rw [hop]
    rfl
  have horigins : (l.after (.call c)).origins =
      if l.impl.state.faults.has (normalizeEvidence evidence l.impl).id = false ∧
        (l.after (.call c)).impl.state.faults.has (normalizeEvidence evidence l.impl).id = true then
        l.origins.insert (normalizeEvidence evidence l.impl).id (normalizeEvidence evidence l.impl)
      else l.origins := by
    show originsAfter c l.impl l.origins = _
    unfold originsAfter
    rw [hop]
    rfl
  obtain ⟨hstate, hdigest⟩ := allocateFault_reads evidence l.impl
  have hsame : (l.after (.call c)).impl.state.faults = l.impl.state.faults →
      (l.after (.call c)).origins = l.origins := by
    intro hfaults
    rw [horigins, hfaults, if_neg fun hboth => by simp [hboth.1] at hboth]
  cases publishFault_cases c.clk evidence l.impl with
  | rejected j e _ _ hj hstep =>
    rw [hstep] at hrun
    have hfaults : (l.after (.call c)).impl.state.faults = l.impl.state.faults := by
      rw [hrun]
      rcases hj with rfl | rfl
      · rfl
      · exact congrArg RuntimeSnapshot.faults hstate
    refine h.revised (.same hfaults) ?_ (hsame hfaults) fun r hr => recorded_call c hr
    rw [hrun]
    rcases hj with rfl | rfl
    · rfl
    · exact hdigest
  | refused e _ _ _ hstep =>
    rw [hstep] at hrun
    have hfaults : (l.after (.call c)).impl.state.faults = l.impl.state.faults := by
      rw [hrun]
      exact congrArg RuntimeSnapshot.faults hstate
    refine h.revised (.same hfaults) ?_ (hsame hfaults) fun r hr => recorded_call c hr
    rw [hrun]
    exact hdigest
  | duplicate id _ hknown hstep =>
    obtain ⟨f, hf, -⟩ := h.cataloged.stored _ id hknown
    rw [← hstate] at hf
    obtain ⟨hrevised, -, -⟩ := revised_countDuplicate c.clk hf
    rw [hstep] at hrun
    have hfaults : Revised l.impl.state.faults (l.after (.call c)).impl.state.faults := by
      rw [hrun, ← hstate]
      exact hrevised
    refine h.revised hfaults ?_ ?_ fun r hr => recorded_call c hr
    · rw [hrun]
      exact hdigest
    · rw [horigins, if_neg]
      rintro ⟨hfree, htaken⟩
      obtain ⟨g, hg⟩ := (OrderedMap.has_iff _ _).mp htaken
      obtain ⟨g', hg', -⟩ := revised_origin hfaults hg
      rw [(OrderedMap.has_eq_false _ _).mp hfree] at hg'
      simp at hg'
  | fresh _ hknown hadmitted hstep =>
    rw [← admitFault_allocate _ evidence] at hadmitted
    obtain ⟨hnew, hfaults, hindex, -⟩ := storeFault_stored c.clk hadmitted
    rw [hstate] at hnew hfaults
    rw [hdigest] at hindex
    rw [hstep] at hrun
    rw [← hrun] at hfaults hindex
    have hstored : (l.after (.call c)).impl.state.faults.has (normalizeEvidence evidence l.impl).id = true := by
      rw [hfaults, OrderedMap.has_iff]
      exact ⟨_, OrderedMap.find_insert_self _ _ _⟩
    refine h.fresh hnew hknown ?_ ?_ hfaults hindex ?_ fun r hr => recorded_call c hr
    · rfl
    · rfl
    · rw [horigins, if_pos ⟨(OrderedMap.has_eq_false _ _).mpr hnew, hstored⟩]

/-- the index built from faults with different digests names each of them -/
theorem rebuilt_find {es : List (FaultId × FaultRecord)}
    (h : ∀ e ∈ es, ∀ e' ∈ es, e'.2.evidence.digest = e.2.evidence.digest → e'.1 = e.1) {e : FaultId × FaultRecord}
    (he : e ∈ es) :
    (es.foldl (fun m e => m.insert e.2.evidence.digest e.1) ∅ : OrderedMap Digest FaultId).find e.2.evidence.digest =
      some e.1 := by
  have hpresent : ∀ (es : List (FaultId × FaultRecord)) (m : OrderedMap Digest FaultId),
      (e ∈ es ∨ m.find e.2.evidence.digest ≠ none) →
      (es.foldl (fun m e => m.insert e.2.evidence.digest e.1) m).find e.2.evidence.digest ≠ none := by
    intro es
    induction es with
    | nil => exact fun m h => h.resolve_left List.not_mem_nil
    | cons a es ih =>
      intro m h
      refine ih _ ?_
      rw [OrderedMap.find_insert]
      rcases h with h | h
      · rcases List.mem_cons.mp h with rfl | h
        · exact .inr (by simp)
        · exact .inl h
      · refine .inr ?_
        split_ifs
        · simp
        · exact h
  obtain ⟨id, hid⟩ := Option.ne_none_iff_exists'.mp (hpresent es ∅ (.inl he))
  rcases find_rebuilt hid with hnone | ⟨e', he', rfl, hdigest⟩
  · simp at hnone
  · rw [hid, h e he e' he' hdigest]

/-- every fault is one of the records, under its own identity -/
def Drawn (recorded : List FaultRecord) (i : Impl) : Prop :=
  ∀ id f, i.state.faults.find id = some f → f ∈ recorded ∧ f.evidence.id = id

/-- journal records of the run add records of the run -/
theorem drawn_applyAll {recorded : List FaultRecord} {es : List DurableEvent.Event}
    (hes : ∀ e ∈ es, ∀ f, faultRecord e = some f → f ∈ recorded) {i : Impl} (h : Drawn recorded i) :
    Drawn recorded (applyAll es i) := by
  induction es generalizing i with
  | nil => exact h
  | cons e es ih =>
    refine ih (fun e' he' => hes e' (List.mem_cons_of_mem _ he')) ?_
    have he := hes e List.mem_cons_self
    obtain ⟨kind, body, history⟩ := e
    cases kind
    case faultUpsert =>
      intro id f hf
      change (i.state.faults.insert body.evidence.id body).find id = some f at hf
      rw [OrderedMap.find_insert] at hf
      split_ifs at hf with hid
      · obtain rfl := Option.some.inj hf
        exact ⟨he body rfl, hid⟩
      · exact h id f hf
    case history => cases history <;> exact h
    all_goals exact h

/-- **Recovery.** On files of the run it rebuilds an index in step with the faults it finds. -/
theorem known_recover {l : Life} (h : Known l) {clk : ℕ → Clock} {io : ℕ → Io} {nowMs : UInt64} {s : Sys}
    (hkept : Kept (.recover clk io nowMs s) l) : Known (l.after (.recover clk io nowMs s)) := by
  obtain ⟨hholds, hok⟩ := hkept
  obtain ⟨r, loaded, es, last, -, hload, ⟨hbase, hjournal⟩, -, hresumed⟩ := hholds.resumed clk io nowMs
  have hcataloged : Cataloged (l.after (.recover clk io nowMs s)).impl :=
    cataloged_start (.recovered clk io nowMs s) hok
  have hdrawn : Drawn l.recorded (applyAll es loaded) :=
    drawn_applyAll hjournal fun id f hf => ⟨hbase id f hf, keyed_loaded hload id f hf⟩
  -- records of one digest are records of one fault
  have hinjective : ∀ e ∈ (applyAll es loaded).state.faults.toList, ∀ e' ∈ (applyAll es loaded).state.faults.toList,
      e'.2.evidence.digest = e.2.evidence.digest → e'.1 = e.1 := by
    intro e he e' he' hdigest
    obtain ⟨hmem, hid⟩ := hdrawn e.1 e.2 ((OrderedMap.mem_toList _ _ _).mp he)
    obtain ⟨hmem', hid'⟩ := hdrawn e'.1 e'.2 ((OrderedMap.mem_toList _ _ _).mp he')
    obtain ⟨f, o, hf, hfdigest, -⟩ := h.recorded e.2 hmem
    obtain ⟨f', o', hf', hfdigest', -⟩ := h.recorded e'.2 hmem'
    have hknown := h.indexed _ f hf
    have hknown' := h.indexed _ f' hf'
    rw [hfdigest'.trans (hdigest.trans hfdigest.symm), hknown] at hknown'
    rw [← hid, ← hid', Option.some.inj hknown']
  obtain ⟨hafter, hindexed⟩ : Drawn l.recorded (recoverFromStore clk io nowMs s).1.impl ∧
      ∀ id f, (recoverFromStore clk io nowMs s).1.impl.state.faults.find id = some f →
        (recoverFromStore clk io nowMs s).1.impl.faultByDigest.find f.evidence.digest = some id := by
    rw [hresumed]
    refine resume_keeps (P := fun i => Drawn l.recorded i ∧
        ∀ id f, i.state.faults.find id = some f → i.faultByDigest.find f.evidence.digest = some id)
      (fun _ _ h => h) (fun _ _ _ h => h) (fun _ _ _ h => h) (fun clk nowMs reason i h => ?_)
      clk io nowMs r ⟨hdrawn, fun id f hf => rebuilt_find hinjective ((OrderedMap.mem_toList _ _ _).mpr hf)⟩
    unfold Drawn
    rw [(frame_beginEpoch clk nowMs reason i).faults (by simp), (frame_beginEpoch clk nowMs reason i).faultByDigest
      (by simp)]
    exact h
  refine ⟨hcataloged, hindexed, fun id f hf => ?_, h.genuine, fun r hr => ?_⟩
  · obtain ⟨hmem, rfl⟩ := hafter id f hf
    obtain ⟨-, o, -, -, ho, hof⟩ := h.recorded f hmem
    exact ⟨o, ho, hof⟩
  · obtain ⟨hmem, hhas⟩ := List.mem_filter.mp hr
    obtain ⟨f, hf⟩ := (OrderedMap.has_iff _ _).mp hhas
    obtain ⟨g, o, hg, hgdigest, ho, hof⟩ := h.recorded r hmem
    obtain ⟨hfmem, hid⟩ := hafter _ f hf
    obtain ⟨g', -, hg', hgdigest', -⟩ := h.recorded f hfmem
    rw [hid, hg] at hg'
    rw [← Option.some.inj hg'] at hgdigest'
    exact ⟨f, o, hf, hgdigest'.symm.trans hgdigest, ho, hof⟩

/-- every move keeps index, faults, observations and written records in step -/
theorem known_after {l : Life} (h : Known l) (m : Move) (hm : Kept m l) : Known (l.after m) := by
  refine Move.promised_inv Life.after Known (fun c _ h => known_call h c) (fun l h => ?_) (fun clk io nowMs s l hkept h => ?_)
    m l hm h
  · refine h.revised (.same rfl) rfl rfl fun r hr => ?_
    rcases List.mem_append.mp hr with hr | hr
    · exact .inl hr
    · exact .inr ((OrderedMap.mem_vals _ _).mp hr)
  · exact known_recover h hkept

theorem known_run (clk : Clock) (config : Config) (ms : List Move)
    (hkept : Runs.Along Life.after Kept ms (.start clk config)) : Known (Runs.run Life.after ms (.start clk config)) :=
  @Runs.run_inv _ _ Life.after Kept Known (fun m _ hm h => known_after h m hm) ms _ hkept (known_start clk config)

/-! ## Publications -/

/-- the writer refuses a text of the observation, or its hash is the digest of such a refusal -/
def Undigested (e : FaultEvidence) : Prop := ∀ bytes, digestBytes e = some bytes → Digest.sha256 bytes = default

/-- SHA-256 tells the new observation from those the stored faults come from -/
def CollisionFree (l : Life) (e : FaultEvidence) : Prop :=
  ∀ id f o, l.impl.state.faults.find id = some f → l.origins.find id = some o → ∀ a b, digestBytes o = some a →
    digestBytes e = some b → Digest.sha256 a = Digest.sha256 b → a = b

/-- the stored fault was first published from the same observation -/
def Observed (l : Life) (e : FaultEvidence) (id : FaultId) (f : FaultRecord) : Prop :=
  l.impl.state.faults.find id = some f ∧ ∃ o, l.origins.find id = some o ∧ SameObservation o e

/-- deduplication is exact, and allocated identities are free -/
structure Deduplicates (l : Life) (clk : Clock) (evidence : FaultEvidence) : Prop where
  exact : isDuplicate evidence l.impl = true ↔ ∃ id f, Observed l (normalizeEvidence evidence l.impl) id f
  answered : ∀ id f, Observed l (normalizeEvidence evidence l.impl) id f → (publishFault clk evidence l.impl).result =
    .ok { f with duplicateCount := f.duplicateCount + 1, lastUpdatedMs := clk 0 }
  free : evidence.id.valid = false → ∀ e, (publishFault clk evidence l.impl).result = .error e →
    e.code ≠ .duplicateConflict

/-- the observation is not mistaken for another that cannot be digested either, and the next identity is free -/
structure Separate (l : Life) (evidence : FaultEvidence) : Prop where
  digested : Undigested (normalizeEvidence evidence l.impl) → ∀ id f o, l.impl.state.faults.find id = some f →
    l.origins.find id = some o → Undigested o → SameObservation o (normalizeEvidence evidence l.impl)
  free : evidence.id.valid = false → (∃ id f, Observed l (normalizeEvidence evidence l.impl) id f) ∨
    l.impl.state.faults.find ⟨l.impl.nextFault⟩ = none

theorem undigested_iff (e : FaultEvidence) : computeEvidenceDigest e = default ↔ Undigested e := by
  rw [computeEvidenceDigest_eq]
  unfold Undigested
  cases digestBytes e with
  | none => simp
  | some bytes => simp

/-- two digests agree for one observation, and for two that cannot be digested -/
theorem digest_eq_iff {l : Life} {e : FaultEvidence} (hsha : CollisionFree l e) {id : FaultId} {f : FaultRecord}
    {o : FaultEvidence} (hf : l.impl.state.faults.find id = some f) (ho : l.origins.find id = some o) :
    computeEvidenceDigest o = computeEvidenceDigest e ↔ SameObservation o e ∨ (Undigested o ∧ Undigested e) := by
  constructor
  · intro h
    by_cases hu : Undigested e
    · exact .inr ⟨(undigested_iff o).mp (h.trans ((undigested_iff e).mpr hu)), hu⟩
    · have hou : ¬ Undigested o := fun hou => hu ((undigested_iff e).mp (h.symm.trans ((undigested_iff o).mpr hou)))
      obtain ⟨b, hb, -⟩ : ∃ b, digestBytes e = some b ∧ _ := by simpa [Undigested] using hu
      obtain ⟨a, ha, -⟩ : ∃ a, digestBytes o = some a ∧ _ := by simpa [Undigested] using hou
      rw [computeEvidenceDigest_eq, computeEvidenceDigest_eq, ha, hb] at h
      obtain rfl := hsha id f o hf ho a b ha hb h
      exact .inl (digestBytes_same ha hb)
  · rintro (h | ⟨hou, hu⟩)
    · rw [computeEvidenceDigest_eq, computeEvidenceDigest_eq, digestBytes_congr h]
    · rw [(undigested_iff o).mpr hou, (undigested_iff e).mpr hu]

/-- the index knows the digest of an observation exactly when a stored fault has it -/
theorem known_digest_iff {l : Life} (h : Known l) {e : FaultEvidence} (he : e.digest = computeEvidenceDigest e)
    {id : FaultId} : l.impl.faultByDigest.find e.digest = some id ↔ ∃ f o, l.impl.state.faults.find id = some f ∧
      l.origins.find id = some o ∧ computeEvidenceDigest o = computeEvidenceDigest e := by
  constructor
  · intro hknown
    obtain ⟨f, hf, hdigest⟩ := h.cataloged.stored _ id hknown
    obtain ⟨o, ho, hof⟩ := h.origin id f hf
    refine ⟨f, o, hf, ho, ?_⟩
    rw [← h.genuine id o ho, ← hof.digest, hdigest, he]
  · rintro ⟨f, o, hf, ho, hdigest⟩
    obtain ⟨o', ho', hof⟩ := h.origin id f hf
    obtain rfl := Option.some.inj (ho.symm.trans ho')
    rw [he, ← hdigest, ← h.genuine id o ho, ← hof.digest]
    exact h.indexed id f hf

/-- a counted duplicate is answered with the fault that is indexed -/
theorem answered_of_known (clk : Clock) {evidence : FaultEvidence} {i : Impl} (hcurrent : Accepted evidence i) {id : FaultId}
    {f : FaultRecord} (hknown : i.faultByDigest.find (normalizeEvidence evidence i).digest = some id)
    (hf : i.state.faults.find id = some f) : (publishFault clk evidence i).result =
      .ok { f with duplicateCount := f.duplicateCount + 1, lastUpdatedMs := clk 0 } := by
  cases publishFault_cases clk evidence i with
  | rejected j e haccepted _ _ _ => exact absurd hcurrent haccepted
  | duplicate k _ hk hstep =>
    obtain rfl := Option.some.inj (hknown.symm.trans hk)
    rw [← (allocateFault_reads evidence i).1] at hf
    rw [hstep, (revised_countDuplicate clk hf).2.2]
  | refused e _ hk _ _ => exact absurd (hknown.symm.trans hk) (by simp)
  | fresh _ hk _ _ => exact absurd (hknown.symm.trans hk) (by simp)

/-- **Deduplication.** In every state of a run, after recoveries too, an observation accepted as current is merged into the
fault of that observation and into no other, and never conflicts over an allocated identity, exactly when it is not mistaken
for another that cannot be digested either and the next identity is free. -/
theorem deduplicates_iff (clk : Clock) (config : Config) (ms : List Move)
    (hkept : Runs.Along Life.after Kept ms (.start clk config)) (time : Clock) (evidence : FaultEvidence)
    (hcurrent : Accepted evidence (Runs.run Life.after ms (.start clk config)).impl)
    (hsha : CollisionFree (Runs.run Life.after ms (.start clk config))
      (normalizeEvidence evidence (Runs.run Life.after ms (.start clk config)).impl)) :
    Deduplicates (Runs.run Life.after ms (.start clk config)) time evidence ↔
      Separate (Runs.run Life.after ms (.start clk config)) evidence := by
  have h := known_run clk config ms hkept
  generalize Runs.run Life.after ms (.start clk config) = l at h hcurrent hsha ⊢
  have hdigest : (normalizeEvidence evidence l.impl).digest = computeEvidenceDigest (normalizeEvidence evidence l.impl) := rfl
  have hduplicate : isDuplicate evidence l.impl = true ↔
      ∃ id, l.impl.faultByDigest.find (normalizeEvidence evidence l.impl).digest = some id := by
    unfold isDuplicate
    rw [Bool.and_eq_true, decide_eq_true_eq, and_iff_right hcurrent, OrderedMap.has_iff]
  -- an observed fault is the one that is indexed
  have hindexed : ∀ id f, Observed l (normalizeEvidence evidence l.impl) id f →
      l.impl.faultByDigest.find (normalizeEvidence evidence l.impl).digest = some id := by
    rintro id f ⟨hf, o, ho, hsame⟩
    exact (known_digest_iff h hdigest).mpr ⟨f, o, hf, ho, (digest_eq_iff hsha hf ho).mpr (.inl hsame)⟩
  have hanswered : ∀ id f, Observed l (normalizeEvidence evidence l.impl) id f →
      (publishFault time evidence l.impl).result =
        .ok { f with duplicateCount := f.duplicateCount + 1, lastUpdatedMs := time 0 } :=
    fun id f hobserved => answered_of_known time hcurrent (hindexed id f hobserved) hobserved.1
  have hconflict := publishFault_conflict_iff time evidence l.impl
  have hallocated : evidence.id.valid = false → (normalizeEvidence evidence l.impl).id = ⟨l.impl.nextFault⟩ := by
    intro hid
    show (if evidence.id.valid = true then evidence.id else ⟨l.impl.nextFault⟩) = _
    rw [if_neg (by simp [hid])]
  constructor
  · intro hdedup
    refine ⟨fun hu id f o hf ho hou => ?_, fun hid => ?_⟩
    · have hknown := (known_digest_iff h hdigest).mpr ⟨f, o, hf, ho, (digest_eq_iff hsha hf ho).mpr (.inr ⟨hou, hu⟩)⟩
      obtain ⟨k, g, hg⟩ := hdedup.exact.mp (hduplicate.mpr ⟨id, hknown⟩)
      obtain rfl := Option.some.inj ((hindexed k g hg).symm.trans hknown)
      obtain ⟨-, o', ho', hsame⟩ := hg
      rwa [← Option.some.inj (ho'.symm.trans ho)]
    · by_cases hknown : isDuplicate evidence l.impl = true
      · exact .inl (hdedup.exact.mp hknown)
      · refine .inr ?_
        by_contra htaken
        obtain ⟨f, hf⟩ := Option.ne_none_iff_exists'.mp htaken
        have hunknown : l.impl.faultByDigest.find (normalizeEvidence evidence l.impl).digest = none := by
          by_contra hsome
          exact hknown (hduplicate.mpr (Option.ne_none_iff_exists'.mp hsome))
        obtain ⟨e, he, hcode⟩ := hconflict.mpr ⟨hcurrent, hunknown, by
          rw [hallocated hid, OrderedMap.has_iff]
          exact ⟨f, hf⟩⟩
        exact hdedup.free hid e he hcode
  · intro hseparate
    refine ⟨⟨fun hknown => ?_, ?_⟩, hanswered, fun hid e he hcode => ?_⟩
    · obtain ⟨id, hid⟩ := hduplicate.mp hknown
      obtain ⟨f, o, hf, ho, heq⟩ := (known_digest_iff h hdigest).mp hid
      rcases (digest_eq_iff hsha hf ho).mp heq with hsame | ⟨hou, hu⟩
      · exact ⟨id, f, hf, o, ho, hsame⟩
      · exact ⟨id, f, hf, o, ho, hseparate.digested hu id f o hf ho hou⟩
    · rintro ⟨id, f, hobserved⟩
      exact hduplicate.mpr ⟨id, hindexed id f hobserved⟩
    · have hconflicts := hconflict.mp ⟨e, he, hcode⟩
      rcases hseparate.free hid with ⟨id, f, hobserved⟩ | hfree
      · exact absurd (hconflicts.unknown.symm.trans (hindexed id f hobserved)) (by simp)
      · have htaken := hconflicts.taken
        rw [hallocated hid, (OrderedMap.has_eq_false _ _).mpr hfree] at htaken
        exact Bool.false_ne_true htaken

theorem collisionFree_of_ne {l : Life} {e : FaultEvidence}
    (h : l.origins.vals.all (fun o => computeEvidenceDigest o ≠ computeEvidenceDigest e) = true) : CollisionFree l e := by
  intro id f o _ ho a b ha hb heq
  have hne := List.all_eq_true.mp h o ((OrderedMap.mem_vals _ _).mpr ⟨id, ho⟩)
  rw [computeEvidenceDigest_eq, computeEvidenceDigest_eq, ha, hb] at hne
  exact absurd heq (of_decide_eq_true hne)

theorem collisionFree_of_same {l : Life} {e : FaultEvidence}
    (h : l.origins.vals.all (fun o => digestBytes o = digestBytes e) = true) : CollisionFree l e := by
  intro id f o _ ho a b ha hb _
  have hsame := of_decide_eq_true (List.all_eq_true.mp h o ((OrderedMap.mem_vals _ _).mpr ⟨id, ho⟩))
  exact Option.some.inj (ha.symm.trans (hsame.trans hb))

/-- a reporter names the identity that is allocated next -/
def named : List Move := [
  .call ⟨ticks, .registerResource { id := ⟨5⟩ }⟩,
  .call ⟨ticks, .publishFault { id := ⟨1⟩, subject := ⟨5⟩ }⟩]

/-- an observation whose details are no text is published -/
def garbled : List Move := [
  .call ⟨ticks, .registerResource { id := ⟨5⟩ }⟩,
  .call ⟨ticks, .publishFault { subject := ⟨5⟩, details := [0xFF] }⟩]

theorem kept_named : Runs.Along Life.after Kept named (.start ticks {}) := ⟨trivial, trivial, trivial⟩

theorem kept_garbled : Runs.Along Life.after Kept garbled (.start ticks {}) := ⟨trivial, trivial, trivial⟩

theorem collisionFree_named : CollisionFree (Runs.run Life.after named (.start ticks {}))
    (normalizeEvidence { subject := ⟨5⟩, kind := .deviceReset } (Runs.run Life.after named (.start ticks {})).impl) :=
  collisionFree_of_ne (by decide +kernel)

/-- an observation is published -/
def observed : List Move := [
  .call ⟨ticks, .registerResource { id := ⟨5⟩ }⟩,
  .call ⟨ticks, .publishFault { subject := ⟨5⟩, kind := .processDeath, details := lit "worker gone" }⟩]

/-- the next identity is free, and the observation can be digested -/
theorem separate_observed : Separate (Runs.run Life.after observed (.start ticks {}))
    { subject := ⟨5⟩, kind := .processDeath, details := lit "worker gone" } where
  digested h := absurd ((undigested_iff _).mpr h) (by decide +kernel)
  free _ := .inr (by decide +kernel)

/-- Published again, it is merged into its own fault; and where the identity that comes next was chosen by a reporter, another
observation is not. -/
theorem deduplicates_iff_observed :
    Deduplicates (Runs.run Life.after observed (.start ticks {})) ticks
        { subject := ⟨5⟩, kind := .processDeath, details := lit "worker gone" } ∧
      (Deduplicates (Runs.run Life.after named (.start ticks {})) ticks { subject := ⟨5⟩, kind := .deviceReset } ↔
        Separate (Runs.run Life.after named (.start ticks {})) { subject := ⟨5⟩, kind := .deviceReset }) :=
  ⟨(deduplicates_iff ticks {} observed ⟨trivial, trivial, trivial⟩ ticks _ (by decide +kernel)
      (collisionFree_of_same (by decide +kernel))).mpr separate_observed,
    deduplicates_iff ticks {} named kept_named ticks _ (by decide +kernel) collisionFree_named⟩

/-- Two observations of different kinds whose details are no text are merged, and an allocated identity conflicts with one a
reporter chose. -/
theorem deduplication_fails :
    (¬ ∀ (clk : Clock) (config : Config) (ms : List Move) (evidence : FaultEvidence),
      Runs.Along Life.after Kept ms (.start clk config) →
      Accepted evidence (Runs.run Life.after ms (.start clk config)).impl →
      CollisionFree (Runs.run Life.after ms (.start clk config))
        (normalizeEvidence evidence (Runs.run Life.after ms (.start clk config)).impl) →
      isDuplicate evidence (Runs.run Life.after ms (.start clk config)).impl = true →
      ∃ id f, Observed (Runs.run Life.after ms (.start clk config))
        (normalizeEvidence evidence (Runs.run Life.after ms (.start clk config)).impl) id f) ∧
    ¬ ∀ (clk : Clock) (config : Config) (ms : List Move) (time : Clock) (evidence : FaultEvidence),
      Runs.Along Life.after Kept ms (.start clk config) →
      Accepted evidence (Runs.run Life.after ms (.start clk config)).impl →
      CollisionFree (Runs.run Life.after ms (.start clk config))
        (normalizeEvidence evidence (Runs.run Life.after ms (.start clk config)).impl) →
      evidence.id.valid = false →
      ∀ e, (publishFault time evidence (Runs.run Life.after ms (.start clk config)).impl).result = .error e →
        e.code ≠ .duplicateConflict := by
  refine ⟨fun h => ?_, fun h => ?_⟩
  · have hobserved := h ticks {} garbled { subject := ⟨5⟩, kind := .deviceReset, details := [0xFF] } kept_garbled
      (by decide +kernel) ?_ (by decide +kernel)
    · obtain ⟨id, f, -, o, ho, hsame⟩ := hobserved
      have hdifferent : (Runs.run Life.after garbled (.start ticks {})).origins.vals.all (fun o =>
          decide (¬ SameObservation o (normalizeEvidence { subject := ⟨5⟩, kind := .deviceReset, details := [0xFF] }
            (Runs.run Life.after garbled (.start ticks {})).impl))) = true := by
        decide +kernel
      have hne := List.all_eq_true.mp hdifferent o ((OrderedMap.mem_vals _ _).mpr ⟨id, ho⟩)
      exact absurd hsame (by simpa using hne)
    · have hgarbled : (Runs.run Life.after garbled (.start ticks {})).origins.vals.all
          (fun o => digestBytes o = none) = true := by
        decide +kernel
      intro id f o _ ho a b ha
      have hnone := List.all_eq_true.mp hgarbled o ((OrderedMap.mem_vals _ _).mpr ⟨id, ho⟩)
      rw [ha] at hnone
      simp at hnone
  · have hcode := (publishFault_conflict_iff ticks { subject := ⟨5⟩, kind := .deviceReset }
      (Runs.run Life.after named (.start ticks {})).impl).mpr ⟨by decide +kernel, by decide +kernel, by decide +kernel⟩
    obtain ⟨e, he, hcode⟩ := hcode
    exact h ticks {} named ticks { subject := ⟨5⟩, kind := .deviceReset } kept_named (by decide +kernel)
      collisionFree_named rfl e he hcode

end FaultContainment.Deduplication
