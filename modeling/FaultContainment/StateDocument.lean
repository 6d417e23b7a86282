/-
The state document: what a snapshot holds (`write_state_document`, `read_state_document`).

`document` is the part of a runtime state that is encoded: everything but the adjacency indexes and the current incarnations.
The reader makes the checks of every record and, over the whole topology, that every member, endpoint and placement
resolves. The writer makes none of these.

- `load_document`: a loaded document is the document it was loaded from.
- `read_write`: a written state that the reader's checks pass is read back, and nothing is left over.
- `readStateDocument_sound`: what was read passes every check.
-/
import FaultContainment.Dependency
import FaultContainment.StateCodec

namespace FaultContainment.StateDocument

open FaultContainment.Lib FaultContainment.Ids FaultContainment.Enums FaultContainment.Records
open FaultContainment.Lib.Codec FaultContainment.StateCodec FaultContainment.Dependency

/-- the encoded part of a topology -/
structure TopologyDocument where
  generation : TopologyGeneration := {}
  resources : OrderedMap ResourceId ResourceRecord := ∅
  containmentDomains : OrderedMap ContainmentDomainId ContainmentDomain := ∅
  isolationDomains : OrderedMap IsolationDomainId IsolationDomain := ∅
  failureDomains : OrderedMap FailureDomainId FailureDomain := ∅
  edges : OrderedMap DependencyId DependencyEdge := ∅
  deriving DecidableEq

/-- the encoded part of a runtime state -/
structure Document where
  epoch : CoordinatorEpoch := {}
  topologyGeneration : TopologyGeneration := {}
  policyGeneration : PolicyGeneration := {}
  containmentGeneration : ContainmentGeneration := {}
  verificationGeneration : VerificationGeneration := {}
  releaseGeneration : ReleaseGeneration := {}
  historySequence : HistorySequence := {}
  nowMs : UInt64 := 0
  topology : TopologyDocument := {}
  policy : ContainmentPolicy := {}
  faults : OrderedMap FaultId FaultRecord := ∅
  incarnations : OrderedMap WorkerKey WorkerRecord := ∅
  currentBoot : OrderedMap WorkerId WorkerBootId := ∅
  lastIncarnation : OrderedMap WorkerId WorkerIncarnation := ∅
  containments : OrderedMap ContainmentGeneration ContainmentRecord := ∅
  actions : OrderedMap ActionId ContainmentAction := ∅
  degradedModes : OrderedMap DegradedModeId DegradedModeAssessment := ∅
  degradedContracts : OrderedMap DegradedModeId DegradedModeContract := ∅
  history : List HistoryEvent := []
  historyTotal : UInt64 := 0
  deriving DecidableEq

/-- the encoded fields of a topology -/
def topologyDocument (t : Topology) : TopologyDocument where
  generation := t.generation
  resources := t.resources
  containmentDomains := t.containmentDomains
  isolationDomains := t.isolationDomains
  failureDomains := t.failureDomains
  edges := t.dependencies.edges

/-- the encoded fields of a state -/
def document (s : RuntimeSnapshot) : Document where
  epoch := s.epoch
  topologyGeneration := s.topologyGeneration
  policyGeneration := s.policyGeneration
  containmentGeneration := s.containmentGeneration
  verificationGeneration := s.verificationGeneration
  releaseGeneration := s.releaseGeneration
  historySequence := s.historySequence
  nowMs := s.nowMs
  topology := topologyDocument s.topology
  policy := s.policy
  faults := s.faults
  incarnations := s.workers.incarnations
  currentBoot := s.workers.currentBoot
  lastIncarnation := s.workers.lastIncarnation
  containments := s.containments
  actions := s.actions
  degradedModes := s.degradedModes
  degradedContracts := s.degradedContracts
  history := s.history
  historyTotal := s.historyTotal

/-- the topology a reader builds: edges are inserted one by one, which fills the indexes -/
def loadTopology (d : TopologyDocument) : Topology where
  generation := d.generation
  resources := d.resources
  containmentDomains := d.containmentDomains
  isolationDomains := d.isolationDomains
  failureDomains := d.failureDomains
  dependencies := ofEdges d.edges.vals

/-- the state a reader builds -/
def load (d : Document) : RuntimeSnapshot where
  epoch := d.epoch
  topologyGeneration := d.topologyGeneration
  policyGeneration := d.policyGeneration
  containmentGeneration := d.containmentGeneration
  verificationGeneration := d.verificationGeneration
  releaseGeneration := d.releaseGeneration
  historySequence := d.historySequence
  nowMs := d.nowMs
  topology := loadTopology d.topology
  policy := d.policy
  faults := d.faults
  workers := { incarnations := d.incarnations, currentBoot := d.currentBoot, lastIncarnation := d.lastIncarnation }
  containments := d.containments
  actions := d.actions
  degradedModes := d.degradedModes
  degradedContracts := d.degradedContracts
  history := d.history
  historyTotal := d.historyTotal

/-! ## The checks over a topology -/

section Resolution

variable {t : IdTag} {D : Type}

/-- every member of every domain is registered -/
def membersResolve (resources : OrderedMap ResourceId ResourceRecord) (members : D → IdSet .resourceId)
    (domains : OrderedMap (Id t) D) : Bool :=
  domains.vals.all fun d => (members d).all resources.has

/-- every placement names a domain -/
def placementsResolve (resources : OrderedMap ResourceId ResourceRecord) (placement : ResourceRecord → Id t)
    (domains : OrderedMap (Id t) D) : Bool :=
  resources.vals.all fun r => !(placement r).valid || domains.has (placement r)

end Resolution

/-- the resolvability checks at the end of `read_topology` -/
def resolves (d : TopologyDocument) : Bool :=
  membersResolve d.resources ContainmentDomain.members d.containmentDomains &&
  membersResolve d.resources IsolationDomain.members d.isolationDomains &&
  membersResolve d.resources FailureDomain.members d.failureDomains &&
  (d.edges.vals.all fun e => d.resources.has e.source && d.resources.has e.destination) &&
  placementsResolve d.resources ResourceRecord.containmentDomain d.containmentDomains &&
  placementsResolve d.resources ResourceRecord.isolationDomain d.isolationDomains &&
  placementsResolve d.resources ResourceRecord.failureDomain d.failureDomains

/-! ## The codec -/

/-- a map of records that refuses a repeated key -/
def strictMap {κ ν : Type} [LinearOrder κ] (key : ν → κ) (c : Codec ν) : Codec (OrderedMap κ ν) :=
  mapOf (records key) c true kMaxCollectionCount kMaxCollectionCount_lt

/-- a map of records that keeps the first record of a repeated key -/
def looseMap {κ ν : Type} [LinearOrder κ] (key : ν → κ) (c : Codec ν) : Codec (OrderedMap κ ν) :=
  mapOf (records key) c false kMaxCollectionCount kMaxCollectionCount_lt

/-- a map of plain entries that keeps the first of a repeated key -/
def entryMap {κ ν : Type} [LinearOrder κ] (c : Codec (κ × ν)) : Codec (OrderedMap κ ν) :=
  mapOf pairs c false kMaxCollectionCount kMaxCollectionCount_lt

/-- `write_topology`, `read_topology` -/
def topology : Codec TopologyDocument :=
  ((pair ident <| pair (strictMap ResourceRecord.id resource) <|
    pair (strictMap ContainmentDomain.id containmentDomain) <| pair (strictMap IsolationDomain.id isolationDomain) <|
    pair (strictMap FailureDomain.id failureDomain) <| strictMap DependencyEdge.id dependency).iso
    (fun d => (d.generation, d.resources, d.containmentDomains, d.isolationDomains, d.failureDomains, d.edges))
    (fun (generation, resources, containmentDomains, isolationDomains, failureDomains, edges) =>
      { generation, resources, containmentDomains, isolationDomains, failureDomains, edges })
    (fun _ => rfl) (fun _ => rfl)).check resolves

/-- the document behind its version number -/
def stateDocument : Codec Document :=
  ((pair u32 <| pair ident <| pair ident <| pair ident <| pair ident <| pair ident <| pair ident <| pair ident <|
    pair u64 <| pair topology <| pair policy <| pair (looseMap (fun f => f.evidence.id) fault) <|
    pair (looseMap WorkerRecord.key worker) <| pair (entryMap (pair ident ident)) <|
    pair (entryMap (pair ident ident)) <| pair (looseMap ContainmentRecord.generation containment) <|
    pair (looseMap ContainmentAction.id action) <| pair (looseMap DegradedModeAssessment.contract degraded) <|
    pair (looseMap DegradedModeContract.id degradedContract) <| pair (many historyEvent) u64).through
    (fun d => ((1 : UInt32), d.epoch, d.topologyGeneration, d.policyGeneration, d.containmentGeneration,
      d.verificationGeneration, d.releaseGeneration, d.historySequence, d.nowMs, d.topology, d.policy, d.faults,
      d.incarnations, d.currentBoot, d.lastIncarnation, d.containments, d.actions, d.degradedModes,
      d.degradedContracts, d.history, d.historyTotal))
    (fun (version, epoch, topologyGeneration, policyGeneration, containmentGeneration, verificationGeneration,
        releaseGeneration, historySequence, nowMs, topology, policy, faults, incarnations, currentBoot,
        lastIncarnation, containments, actions, degradedModes, degradedContracts, history, historyTotal) =>
      if version = 1 then
        some { epoch, topologyGeneration, policyGeneration, containmentGeneration, verificationGeneration,
               releaseGeneration, historySequence, nowMs, topology, policy, faults, incarnations, currentBoot,
               lastIncarnation, containments, actions, degradedModes, degradedContracts, history, historyTotal }
      else none)
    (fun _ => rfl) (by
      rintro ⟨version, _⟩ d h
      dsimp only at h
      split_ifs at h with hv
      subst hv
      obtain rfl := Option.some.inj h
      rfl)).check fun d => d.history.length ≤ d.historyTotal.toNat

/-- `write_state_document`; the byte writer holds the whole document against its ceiling -/
def writeStateDocument (s : RuntimeSnapshot) : Option Bytes :=
  (stateDocument.enc (document s)).filter fun bytes => bytes.length ≤ kMaxDocumentBytes

/-- `read_state_document`: the state and the bytes left over -/
def readStateDocument (bytes : Bytes) : Option (RuntimeSnapshot × Bytes) :=
  (stateDocument.dec bytes).map fun p => (load p.1, p.2)

/-! ## What the reader insists on -/

section Requirements

variable {κ ν : Type} [LinearOrder κ] (key : ν → κ) (c : Codec ν) (m : OrderedMap κ ν)

@[simp] theorem strictMap_sound : (strictMap key c).sound m ↔ OrderedMap.Keyed key m ∧ OrderedMap.Each c.sound m := by
  rw [← OrderedMap.each_iff_vals]; rfl

@[simp] theorem strictMap_counted : (strictMap key c).counted m ↔
    m.size ≤ kMaxCollectionCount ∧ OrderedMap.Each c.counted m := by
  rw [← OrderedMap.each_iff_vals]; rfl

@[simp] theorem looseMap_sound : (looseMap key c).sound m ↔ OrderedMap.Keyed key m ∧ OrderedMap.Each c.sound m := by
  rw [← OrderedMap.each_iff_vals]; rfl

@[simp] theorem looseMap_counted : (looseMap key c).counted m ↔
    m.size ≤ kMaxCollectionCount ∧ OrderedMap.Each c.counted m := by
  rw [← OrderedMap.each_iff_vals]; rfl

end Requirements

/-- the checks the reader makes of a document, apart from the counts -/
structure Sound (d : Document) : Prop where
  resources : OrderedMap.Keyed ResourceRecord.id d.topology.resources ∧ OrderedMap.Each resource.sound d.topology.resources
  containmentDomains : OrderedMap.Keyed ContainmentDomain.id d.topology.containmentDomains ∧
    OrderedMap.Each containmentDomain.sound d.topology.containmentDomains
  isolationDomains : OrderedMap.Keyed IsolationDomain.id d.topology.isolationDomains ∧
    OrderedMap.Each isolationDomain.sound d.topology.isolationDomains
  failureDomains : OrderedMap.Keyed FailureDomain.id d.topology.failureDomains ∧
    OrderedMap.Each failureDomain.sound d.topology.failureDomains
  edges : OrderedMap.Keyed DependencyEdge.id d.topology.edges ∧ OrderedMap.Each dependency.sound d.topology.edges
  resolves : resolves d.topology = true
  policy : policy.sound d.policy
  faults : OrderedMap.Keyed (fun f => f.evidence.id) d.faults ∧ OrderedMap.Each fault.sound d.faults
  incarnations : OrderedMap.Keyed WorkerRecord.key d.incarnations ∧ OrderedMap.Each worker.sound d.incarnations
  containments : OrderedMap.Keyed ContainmentRecord.generation d.containments ∧
    OrderedMap.Each containment.sound d.containments
  actions : OrderedMap.Keyed ContainmentAction.id d.actions ∧ OrderedMap.Each action.sound d.actions
  degradedModes : OrderedMap.Keyed DegradedModeAssessment.contract d.degradedModes ∧
    OrderedMap.Each degraded.sound d.degradedModes
  degradedContracts : OrderedMap.Keyed DegradedModeContract.id d.degradedContracts ∧
    OrderedMap.Each degradedContract.sound d.degradedContracts
  history : d.history.length ≤ d.historyTotal.toNat

theorem sound_iff (d : Document) : stateDocument.sound d ↔ Sound d := by
  have hh : ∀ h, historyEvent.sound h := by simp [historyEvent]
  have hp : ∀ m : OrderedMap WorkerId WorkerBootId, (entryMap (pair ident ident)).sound m := by simp [entryMap, mapOf, pairs]
  have hq : ∀ m : OrderedMap WorkerId WorkerIncarnation, (entryMap (pair ident ident)).sound m := by
    simp [entryMap, mapOf, pairs]
  simp only [stateDocument, topology, many, check_sound, through_sound, pair_sound, iso_sound, list_sound, hh, hp, hq,
    u64_sound, u32_sound, ident_sound, true_and, and_true, strictMap_sound, looseMap_sound, implies_true, decide_eq_true_eq]
  constructor
  · rintro ⟨⟨⟨⟨h1, h2, h3, h4, h5⟩, h6⟩, h7, h8, h9, h10, h11, h12, h13⟩, h14⟩
    exact ⟨h1, h2, h3, h4, h5, h6, h7, h8, h9, h10, h11, h12, h13, h14⟩
  · rintro ⟨h1, h2, h3, h4, h5, h6, h7, h8, h9, h10, h11, h12, h13, h14⟩
    exact ⟨⟨⟨⟨h1, h2, h3, h4, h5⟩, h6⟩, h7, h8, h9, h10, h11, h12, h13⟩, h14⟩

/-- every collection of a document keeps to the reader's ceilings -/
def Counted (d : Document) : Prop := stateDocument.counted d

/-! ## Round trip -/

theorem find_foldl_insertEdge (edges : List DependencyEdge) (g : DependencyGraph) :
    (edges.foldl insertEdge g).edges = edges.foldl (fun m e => m.insert e.id e) g.edges := by
  induction edges generalizing g with
  | nil => rfl
  | cons e edges ih => rw [List.foldl_cons, ih]; rfl

theorem load_document (d : Document) (h : OrderedMap.Keyed DependencyEdge.id d.topology.edges) :
    document (load d) = d := by
  have he : (ofEdges d.topology.edges.vals).edges = d.topology.edges := by
    rw [ofEdges, find_foldl_insertEdge]
    exact OrderedMap.ofRecords_vals DependencyEdge.id d.topology.edges h
  obtain ⟨_, _, _, _, _, _, _, _, ⟨_, _, _, _, _, edges⟩, _⟩ := d
  simp only [document, load, topologyDocument, loadTopology] at he ⊢
  rw [he]

/-- **A state document is read back.** What was written of a state the reader's checks pass is read back with every
encoded field equal, and nothing is left over. -/
theorem read_write {s : RuntimeSnapshot} (hs : Sound (document s)) (hn : Counted (document s)) {bytes : Bytes}
    (h : writeStateDocument s = some bytes) :
    ∃ s', readStateDocument bytes = some (s', []) ∧ document s' = document s := by
  obtain ⟨henc, -⟩ := Option.filter_eq_some_iff.mp h
  have hdec := stateDocument.dec_enc_nil ((sound_iff _).mpr hs) hn henc
  exact ⟨load (document s), by simp [readStateDocument, hdec], load_document _ hs.edges.1⟩

theorem readStateDocument_sound {bytes rest : Bytes} {s : RuntimeSnapshot}
    (h : readStateDocument bytes = some (s, rest)) : Sound (document s) ∧ Counted (document s) := by
  obtain ⟨⟨d, rest'⟩, hd, hp⟩ := Option.map_eq_some_iff.mp h
  obtain ⟨rfl, rfl⟩ := Prod.mk.inj hp
  have hw := stateDocument.of_dec _ _ _ hd
  have hs := (sound_iff d).mp hw.2.1
  rw [load_document d hs.edges.1]
  exact ⟨hs, hw.2.2⟩

end FaultContainment.StateDocument
