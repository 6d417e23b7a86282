/-
Membership and placement over whole runs, recoveries included.

A recovery takes the topology from files. What it makes of a resource or a domain is decided by the last journal record about
it, and by the snapshot when there is none, so whether the two copies agree afterwards is a question about those entries of
the files. The engine's own files need not agree: a registered resource is journaled without the domain it joins, and a
registered domain without the members it places.

- `recovered`: a recovery leaves the engine as it was, or puts everything where the files have it.
- `placed_run_iff`: membership and placement agree throughout a run of calls, restarts and recoveries when each of its steps
  meets its condition; where the files name their domains, exactly then.
-/
import FaultContainment.Lib.Writes
import FaultContainment.Engine.Lives
import FaultContainment.Membership

namespace FaultContainment.Membership

open FaultContainment.Lib FaultContainment.Ids FaultContainment.Records FaultContainment.DurableEvent
open FaultContainment.Persistence FaultContainment.Engine
open FaultContainment.Engine.Grouping (Resources)

/-! ## What the files say -/

/-- the resource a record stores or removes -/
def resourceWrite : Event → Option (ResourceId × Option ResourceRecord)
  | ⟨.resourceUpsert, r, _⟩ => some (r.id, some r)
  | ⟨.resourceRemove, id, _⟩ => some (id, none)
  | _ => none

/-- the containment domain a record stores or removes -/
def containmentDomainWrite : Event → Option (ContainmentDomainId × Option ContainmentDomain)
  | ⟨.containmentDomainUpsert, d, _⟩ => some (d.id, some d)
  | ⟨.containmentDomainRemove, id, _⟩ => some (id, none)
  | _ => none

/-- the isolation domain a record stores or removes -/
def isolationDomainWrite : Event → Option (IsolationDomainId × Option IsolationDomain)
  | ⟨.isolationDomainUpsert, d, _⟩ => some (d.id, some d)
  | ⟨.isolationDomainRemove, id, _⟩ => some (id, none)
  | _ => none

/-- the failure domain a record stores or removes -/
def failureDomainWrite : Event → Option (FailureDomainId × Option FailureDomain)
  | ⟨.failureDomainUpsert, d, _⟩ => some (d.id, some d)
  | ⟨.failureDomainRemove, id, _⟩ => some (id, none)
  | _ => none

/-- the records a replay applies; the one that stops it counts as far as it can be read -/
def readable : List (ℕ × Bytes) → List Event
  | [] => []
  | (_, bytes) :: records =>
    match decodeDurableEvent bytes with
    | none => []
    | some raw =>
      match readBody raw with
      | none => (appliedPart raw).toList
      | some e => e :: readable records

/-- the topology of a snapshot, and the records after it -/
structure Files where
  snapshot : Topology := {}
  records : List Event := []

/-- the topology of a snapshot that can be read -/
def snapshotTopology (r : Recovery) : Option Topology :=
  if r.snapshotPresent then
    match StateDocument.readStateDocument r.snapshotPayload with
    | some (s, []) => some s.topology
    | _ => none
  else some {}

/-- what a recovery takes from its store; nothing, not even an empty topology, when the files are damaged -/
def filesOf (store : Store) : Option Files :=
  match recover store with
  | .error _ => none
  | .ok r => some ((snapshotTopology r).elim {} fun snapshot => ⟨snapshot, readable r.journalRecords⟩)

namespace Files

variable (f : Files)

/-- an entry as the last record about it has it, or the snapshot when there is none -/
def entry {κ ν : Type} [LinearOrder κ] (m : OrderedMap κ ν) (write : Event → Option (κ × Option ν)) (k : κ) : Option ν :=
  (OrderedMap.lastWrite (f.records.filterMap write) k).getD (m.find k)

def resource : ResourceId → Option ResourceRecord := f.entry f.snapshot.resources resourceWrite

def containmentDomain : ContainmentDomainId → Option ContainmentDomain :=
  f.entry f.snapshot.containmentDomains containmentDomainWrite

def isolationDomain : IsolationDomainId → Option IsolationDomain :=
  f.entry f.snapshot.isolationDomains isolationDomainWrite

def failureDomain : FailureDomainId → Option FailureDomain := f.entry f.snapshot.failureDomains failureDomainWrite

/-- for one kind of domain, the entry of a resource names a domain exactly when the entry of the domain lists it -/
def Matches {t : IdTag} {D : Type} (g : Grouping t D) (domain : Id t → Option D) : Prop :=
  ∀ k r, f.resource k = some r → ∀ id : Id t, id.valid = true →
    (g.placement r = id ↔ ∃ d, domain id = some d ∧ k ∈ g.members d)

/-- the entries of resources are under their own valid identity and match those of the domains -/
structure Agree : Prop where
  keys : ∀ k r, f.resource k = some r → k.valid = true ∧ r.id = k
  containment : f.Matches containmentDomains f.containmentDomain
  isolation : f.Matches isolationDomains f.isolationDomain
  failure : f.Matches failureDomains f.failureDomain

/-- the entries of domains are under valid identities -/
structure Named : Prop where
  containment : ∀ id d, f.containmentDomain id = some d → id.valid = true
  isolation : ∀ id d, f.isolationDomain id = some d → id.valid = true
  failure : ∀ id d, f.failureDomain id = some d → id.valid = true

/-- a topology with the entries of the files -/
structure Describes (top : Topology) : Prop where
  resources : top.resources.find = f.resource
  containment : top.containmentDomains.find = f.containmentDomain
  isolation : top.isolationDomains.find = f.isolationDomain
  failure : top.failureDomains.find = f.failureDomain

variable {f} {top : Topology}

theorem Describes.placed_iff (h : f.Describes top) : Placed top ↔ f.Agree := by
  obtain ⟨hresources, hcontainment, hisolation, hfailure⟩ := h
  have hkind : ∀ {t : IdTag} {D : Type} (g : Grouping t D) {ds : OrderedMap (Id t) D} {domain : Id t → Option D},
      ds.find = domain → (Membership.Agree g top.resources ds ↔ f.Matches g domain) := by
    intro t D g ds domain hdomain
    unfold Matches
    rw [← hresources, ← hdomain]
    exact Iff.rfl
  constructor
  · intro hp
    exact ⟨hresources ▸ hp.keys, (hkind _ hcontainment).mp hp.containment, (hkind _ hisolation).mp hp.isolation,
      (hkind _ hfailure).mp hp.failure⟩
  · intro ha
    have hkeys : Keyed top.resources := by
      unfold Keyed
      rw [hresources]
      exact ha.keys
    exact ⟨hkeys, (hkind _ hcontainment).mpr ha.containment, (hkind _ hisolation).mpr ha.isolation,
      (hkind _ hfailure).mpr ha.failure⟩

theorem Describes.named (h : f.Describes top) (hn : f.Named) : AllNamed top := by
  obtain ⟨-, hcontainment, hisolation, hfailure⟩ := h
  refine ⟨?_, ?_, ?_⟩
  · unfold Membership.Named
    rw [hcontainment]
    exact hn.containment
  · unfold Membership.Named
    rw [hisolation]
    exact hn.isolation
  · unfold Membership.Named
    rw [hfailure]
    exact hn.failure

end Files

/-! ## What a recovery makes of them -/

/-- a replay applies the readable records -/
theorem replay_readable (records : List (ℕ × Bytes)) (index last : ℕ) (i : Impl) :
    (replay index last records i).1 = applyAll (readable records) i := by
  induction records generalizing index last i with
  | nil => rfl
  | cons record records ih =>
    obtain ⟨n, bytes⟩ := record
    unfold replay readable
    cases decodeDurableEvent bytes with
    | none => rfl
    | some raw =>
      dsimp only
      cases readBody raw with
      | none =>
        dsimp only [applyPart]
        cases appliedPart raw <;> rfl
      | some e => exact ih _ _ _

/-- events that write one map, one after the other -/
theorem applyAll_writes {κ ν : Type} [LinearOrder κ] {field : Impl → OrderedMap κ ν}
    {write : Event → Option (κ × Option ν)}
    (hwrite : ∀ e i, field (applyEvent e i) = (write e).elim (field i) (field i).write) (es : List Event) (i : Impl) :
    field (applyAll es i) = (field i).writeAll (es.filterMap write) := by
  induction es generalizing i with
  | nil => rfl
  | cons e es ih =>
    have hnext : field (applyAll (e :: es) i) = (field (applyEvent e i)).writeAll (es.filterMap write) :=
      ih (applyEvent e i)
    rw [hnext, hwrite]
    cases he : write e with
    | none => rw [List.filterMap_cons_none he, Option.elim_none]
    | some w => rw [List.filterMap_cons_some he, Option.elim_some, OrderedMap.writeAll_cons]

/-- the topology that the records make of a snapshot -/
theorem describes_applyAll (es : List Event) (i : Impl) :
    (Files.mk i.state.topology es).Describes (applyAll es i).state.topology := by
  have hentry : ∀ {κ ν : Type} [LinearOrder κ] (field : Impl → OrderedMap κ ν)
      {write : Event → Option (κ × Option ν)},
      (∀ e i, field (applyEvent e i) = (write e).elim (field i) (field i).write) →
        (field (applyAll es i)).find = (Files.mk i.state.topology es).entry (field i) write := by
    intro κ ν _ field write hwrite
    funext k
    rw [applyAll_writes hwrite]
    exact OrderedMap.find_writeAll _ _ _
  refine ⟨hentry (fun i => i.state.topology.resources) ?_,
    hentry (fun i => i.state.topology.containmentDomains) ?_,
    hentry (fun i => i.state.topology.isolationDomains) ?_,
    hentry (fun i => i.state.topology.failureDomains) ?_⟩
  all_goals
    rintro ⟨kind, body, history⟩ i
    cases kind
    case history => cases history <;> rfl
    all_goals rfl

/-- an empty topology is what empty files describe -/
theorem describes_reset (i : Impl) : (Files.mk {} []).Describes (resetForRecovery i).state.topology :=
  describes_applyAll [] (resetForRecovery i)

/-- a loaded snapshot brings its topology -/
theorem loadSnapshot_topology (r : Recovery) (i : Impl) :
    (loadSnapshot r (resetForRecovery i)).map (fun j => j.state.topology) = snapshotTopology r := by
  unfold loadSnapshot snapshotTopology
  split_ifs
  · generalize StateDocument.readStateDocument r.snapshotPayload = document
    rcases document with - | ⟨s, - | ⟨byte, rest⟩⟩ <;> rfl
  · rfl

/-- neither the marks of a recovery nor the new epoch move anything -/
theorem quiet_resume (clk : ℕ → Clock) (io : ℕ → Io) (nowMs : UInt64) (r : Recovery) (s : Sys) :
    Quiet s.impl.state.topology (resume clk io nowMs r s).1.impl.state.topology :=
  resume_keeps (P := fun i => Quiet s.impl.state.topology i.state.topology) (fun _ _ h => h) (fun _ _ _ h => h)
    (fun _ _ _ h => h) (fun _ _ _ _ h => h.trans ⟨.mapVals _ fun _ => rfl, rfl, rfl, rfl, rfl⟩)
    clk io nowMs r (.of_eq rfl)

/-- **Recovery.** Damaged files leave the engine as it was. From any others everything ends up where the files have it,
whether or not the recovery succeeds. -/
theorem recovered (clk : ℕ → Clock) (io : ℕ → Io) (nowMs : UInt64) (s : Sys) :
    match filesOf s.store with
    | none => (recoverFromStore clk io nowMs s).1.impl = s.impl
    | some f => ∃ top, f.Describes top ∧ Quiet top (recoverFromStore clk io nowMs s).1.impl.state.topology := by
  unfold filesOf recoverFromStore
  cases recover s.store with
  | error e => rfl
  | ok r =>
    dsimp only
    have hloaded := loadSnapshot_topology r s.impl
    cases hload : loadSnapshot r (resetForRecovery s.impl) with
    | none =>
      rw [hload, Option.map_none] at hloaded
      rw [← hloaded, Option.elim_none]
      exact ⟨_, describes_reset s.impl, .of_eq rfl⟩
    | some loaded =>
      rw [hload, Option.map_some] at hloaded
      rw [← hloaded, Option.elim_some]
      have hdescribes := describes_applyAll (readable r.journalRecords) loaded
      rw [← replay_readable r.journalRecords 0 r.snapshotSequence loaded] at hdescribes
      dsimp only
      generalize replay 0 r.snapshotSequence r.journalRecords loaded = replayed at hdescribes ⊢
      obtain ⟨i, error | last⟩ := replayed
      · exact ⟨_, hdescribes, .of_eq rfl⟩
      · have hresumed := quiet_resume clk io nowMs r { s with impl := takeOver last nowMs (deriveCounters i), attached := true }
        have hsame : (takeOver last nowMs (deriveCounters i)).state.topology = i.state.topology := rfl
        refine ⟨_, hdescribes, ?_⟩
        dsimp only at hresumed ⊢
        rwa [hsame] at hresumed

/-! ## Runs -/

/-- a registered resource is listed by at most one domain of the kind -/
def ListedOnce {t : IdTag} {D : Type} (g : Grouping t D) (m : Resources) (ds : OrderedMap (Id t) D) : Prop :=
  ∀ k, m.has k = true → ∀ a b, Lists g ds a k → Lists g ds b k → a = b

/-- membership and placement have not drifted apart, and a resource is a member of at most one domain of each kind -/
structure Consistent (top : Topology) : Prop extends Placed top where
  oneContainment : ListedOnce containmentDomains top.resources top.containmentDomains
  oneIsolation : ListedOnce isolationDomains top.resources top.isolationDomains
  oneFailure : ListedOnce failureDomains top.resources top.failureDomains

/-- the uniqueness follows from the agreement -/
theorem consistent_iff {top : Topology} (hn : AllNamed top) : Consistent top ↔ Placed top :=
  ⟨Consistent.toPlaced, fun h => {
    h with
    oneContainment := fun _ hk _ _ => h.containment.single hn.containment hk
    oneIsolation := fun _ hk _ _ => h.isolation.single hn.isolation hk
    oneFailure := fun _ hk _ _ => h.failure.single hn.failure hk }⟩

theorem allNamed_construct (clk : Clock) (config : Config) : AllNamed (construct clk config).state.topology :=
  ⟨fun _ _ hd => (by cases hd), fun _ _ hd => (by cases hd), fun _ _ hd => (by cases hd)⟩

theorem consistent_construct (clk : Clock) (config : Config) : Consistent (construct clk config).state.topology := by
  rw [consistent_iff (allNamed_construct clk config)]
  exact ⟨fun _ _ hr => (by cases hr), fun _ _ hr => (by cases hr), fun _ _ hr => (by cases hr),
    fun _ _ hr => (by cases hr)⟩

/-- **The condition.** What an operation must find, and what the files of a recovery must hold; the engine keeps what it has
when they are damaged. -/
def StaysPlaced : Move → Impl → Prop
  | .call c, i => KeepsPlaces c.op i
  | .snapshot, _ => True
  | .recover _ _ _ s, _ => (filesOf s.store = none → Placed s.impl.state.topology ∧ AllNamed s.impl.state.topology) ∧
      ∀ f, filesOf s.store = some f → f.Agree ∧ f.Named

/-- the files of a recovery name their domains -/
def FilesNamed : Move → Impl → Prop
  | .recover _ _ _ s, _ => (filesOf s.store = none → AllNamed s.impl.state.topology) ∧
      ∀ f, filesOf s.store = some f → f.Named
  | _, _ => True

/-- files that name their domains leave domains with valid identities -/
theorem named_move (m : Move) (i : Impl) (hm : FilesNamed m i) (h : AllNamed i.state.topology) :
    AllNamed (m.engine i).state.topology := by
  cases m with
  | call c => exact named_after c i h
  | snapshot => exact h
  | recover clk io nowMs s =>
    have hrecovered := recovered clk io nowMs s
    show AllNamed (recoverFromStore clk io nowMs s).1.impl.state.topology
    cases hf : filesOf s.store with
    | none =>
      rw [hf] at hrecovered
      rw [hrecovered]
      exact hm.1 hf
    | some f =>
      rw [hf] at hrecovered
      obtain ⟨top, hdescribes, hquiet⟩ := hrecovered
      exact hquiet.named (hdescribes.named (hm.2 f hf))

/-- **Step.** From a state where the copies agree, a move leaves them in agreement exactly under its condition. -/
theorem placed_move_iff (m : Move) (i : Impl) (hm : FilesNamed m i) (hn : AllNamed i.state.topology)
    (h : Placed i.state.topology) : Placed (m.engine i).state.topology ↔ StaysPlaced m i := by
  cases m with
  | call c => exact placed_after_iff c i hn h
  | snapshot => exact iff_of_true h trivial
  | recover clk io nowMs s =>
    have hrecovered := recovered clk io nowMs s
    show Placed (recoverFromStore clk io nowMs s).1.impl.state.topology ↔
      (filesOf s.store = none → Placed s.impl.state.topology ∧ AllNamed s.impl.state.topology) ∧
        ∀ f, filesOf s.store = some f → f.Agree ∧ f.Named
    cases hf : filesOf s.store with
    | none =>
      rw [hf] at hrecovered
      rw [hrecovered]
      exact ⟨fun hp => ⟨fun _ => ⟨hp, hm.1 hf⟩, fun f hsome => absurd hsome (by simp)⟩, fun hall => (hall.1 rfl).1⟩
    | some f =>
      rw [hf] at hrecovered
      obtain ⟨top, hdescribes, hquiet⟩ := hrecovered
      have hagree : Placed (recoverFromStore clk io nowMs s).1.impl.state.topology ↔ f.Agree :=
        ⟨fun hp => hdescribes.placed_iff.mp (hquiet.symm.placed hp), fun ha => hquiet.placed (hdescribes.placed_iff.mpr ha)⟩
      rw [hagree]
      constructor
      · intro ha
        refine ⟨fun hnone => absurd hnone (by simp), fun f' hsome => ?_⟩
        rw [← Option.some.inj hsome]
        exact ⟨ha, hm.2 f hf⟩
      · intro hall
        exact (hall.2 f rfl).1

theorem filesNamed_of_staysPlaced (m : Move) (i : Impl) (h : StaysPlaced m i) : FilesNamed m i := by
  cases m with
  | call c => trivial
  | snapshot => trivial
  | recover clk io nowMs s => exact ⟨fun hnone => (h.1 hnone).2, fun f hf => (h.2 f hf).2⟩

/-- **Runs.** From a fresh engine, whatever is called and recovered, membership and placement agree in every state of a run and
each resource is a member of at most one domain of each kind, when each step of the run meets its condition; and where the
files recovered from name their domains, only then. -/
theorem placed_run_iff (clk : Clock) (config : Config) (ms : List Move) :
    (Runs.Along Move.engine StaysPlaced ms (construct clk config) →
      Runs.Always Move.engine (fun i => Consistent i.state.topology) ms (construct clk config)) ∧
    (Runs.Along Move.engine FilesNamed ms (construct clk config) →
      Runs.Always Move.engine (fun i => Consistent i.state.topology) ms (construct clk config) →
        Runs.Along Move.engine StaysPlaced ms (construct clk config)) := by
  have hexact : Runs.Along Move.engine FilesNamed ms (construct clk config) →
      (Runs.Always Move.engine (fun i => Consistent i.state.topology) ms (construct clk config) ↔
        Runs.Along Move.engine StaysPlaced ms (construct clk config)) := by
    intro hfiles
    have hkeep : ∀ m i, FilesNamed m i → AllNamed i.state.topology → Consistent i.state.topology →
        AllNamed (m.engine i).state.topology := fun m i hm hn _ => named_move m i hm hn
    refine Runs.always_iff_along hkeep ?_ hfiles (allNamed_construct clk config) (consistent_construct clk config)
    intro m i hm hn h
    rw [consistent_iff (named_move m i hm hn)]
    exact placed_move_iff m i hm hn h.toPlaced
  have hfiles : ∀ m i, StaysPlaced m i → True → FilesNamed m i := fun m i hm _ => filesNamed_of_staysPlaced m i hm
  refine ⟨fun h => (hexact ?_).mpr h, fun hnamed => (hexact hnamed).mp⟩
  exact Runs.along_of_inv (fun _ _ _ _ => trivial) hfiles h trivial

/-- a domain, a resource in it, and the domain told about its member -/
def told : List Call := [
  ⟨ticks, .registerDomain { id := ⟨1⟩ }⟩, ⟨ticks, .registerResource { id := ⟨1⟩, containmentDomain := ⟨1⟩ }⟩,
  ⟨ticks, .updateDomain { id := ⟨1⟩, members := [⟨1⟩] } ⟨2⟩⟩]

/-- the events that calls stage -/
def stagedBy : List Call → Impl → List Event
  | [], _ => []
  | c :: cs, i => (c.op.run c.clk i).staged ++ stagedBy cs (c.after i)

/-- the records they write in a new journal -/
def recordsOf (cs : List Call) : List (ℕ × Bytes) := encodeStaged 0 (stagedBy cs (construct ticks {}))

/-- an entry that the records alone give is one of their writes -/
theorem mem_of_entry {κ ν : Type} [LinearOrder κ] {es : List Event} {write : Event → Option (κ × Option ν)} {k : κ} {v : ν}
    (h : Files.entry ⟨{}, es⟩ ∅ write k = some v) : (k, some v) ∈ es.filterMap write := by
  unfold Files.entry at h
  cases hlast : OrderedMap.lastWrite (es.filterMap write) k with
  | none =>
    rw [hlast, Option.getD_none] at h
    exact absurd ((OrderedMap.find_empty k).symm.trans h) (by simp)
  | some w =>
    rw [hlast, Option.getD_some] at h
    exact h ▸ OrderedMap.mem_of_lastWrite hlast

/-- a journal of readable records without a snapshot -/
theorem filesOf_journal {records : List (ℕ × Bytes)} (hread : ∀ e ∈ records, Readable e)
    (hconsecutive : SequencedLog.Consecutive 1 records) (hsize : (journalBytes records).length ≤ kMaxJournalFileBytes) :
    filesOf { journal := journalBytes records } = some ⟨{}, readable records⟩ := by
  have hb : Holds { journal := journalBytes records } none := ⟨rfl, by simp⟩
  obtain ⟨r, hr, hrecords, -, hpresent, -⟩ := recover_clean hb hread hconsecutive rfl hsize
  unfold filesOf
  rw [hr]
  dsimp only
  rw [hrecords, snapshotTopology, hpresent]
  rfl

/-- records about one resource and the domain that lists it -/
theorem agree_of_single {es : List Event} (hresource : ∀ w ∈ es.filterMap resourceWrite, w.1 = ⟨1⟩ ∧ ∀ r ∈ w.2,
      r.id = ⟨1⟩ ∧ r.containmentDomain = ⟨1⟩ ∧ r.isolationDomain = {} ∧ r.failureDomain = {})
    (hdomain : ∀ w ∈ es.filterMap containmentDomainWrite, w.1 = ⟨1⟩)
    (hmember : ((Files.mk {} es).containmentDomain ⟨1⟩).any (fun d => decide (⟨1⟩ ∈ d.members)) = true)
    (hisolation : es.filterMap isolationDomainWrite = []) (hfailure : es.filterMap failureDomainWrite = []) :
    (Files.mk {} es).Agree ∧ (Files.mk {} es).Named := by
  have hresources : ∀ k r, (Files.mk {} es).resource k = some r → k = ⟨1⟩ ∧ r.id = ⟨1⟩ ∧ r.containmentDomain = ⟨1⟩ ∧
      r.isolationDomain = {} ∧ r.failureDomain = {} :=
    fun k r hr => ⟨(hresource _ (mem_of_entry hr)).1, (hresource _ (mem_of_entry hr)).2 r rfl⟩
  have hdomains : ∀ id d, (Files.mk {} es).containmentDomain id = some d → id = ⟨1⟩ :=
    fun id d hd => hdomain _ (mem_of_entry hd)
  have hnoIsolation : ∀ id d, (Files.mk {} es).isolationDomain id ≠ some d := by
    intro id d hd
    have hmem := mem_of_entry hd
    rw [hisolation] at hmem
    cases hmem
  have hnoFailure : ∀ id d, (Files.mk {} es).failureDomain id ≠ some d := by
    intro id d hd
    have hmem := mem_of_entry hd
    rw [hfailure] at hmem
    cases hmem
  refine ⟨⟨?_, ?_, ?_, ?_⟩, ⟨?_, fun id d hd => absurd hd (hnoIsolation id d), fun id d hd => absurd hd (hnoFailure id d)⟩⟩
  · intro k r hr
    obtain ⟨rfl, hid, -⟩ := hresources k r hr
    exact ⟨by decide, hid⟩
  · intro k r hr id _
    obtain ⟨rfl, -, hplaced, -⟩ := hresources k r hr
    show r.containmentDomain = id ↔ _
    rw [hplaced]
    constructor
    · rintro rfl
      obtain ⟨d, hd, hm⟩ := (Option.any_eq_true _ _).mp hmember
      exact ⟨d, hd, of_decide_eq_true hm⟩
    · rintro ⟨d, hd, -⟩
      exact (hdomains id d hd).symm
  · intro k r hr id hid
    show r.isolationDomain = id ↔ _
    rw [(hresources k r hr).2.2.2.1]
    refine iff_of_false ?_ fun ⟨d, hd, _⟩ => hnoIsolation id d hd
    rintro rfl
    exact absurd hid (by decide)
  · intro k r hr id hid
    show r.failureDomain = id ↔ _
    rw [(hresources k r hr).2.2.2.2]
    refine iff_of_false ?_ fun ⟨d, hd, _⟩ => hnoFailure id d hd
    rintro rfl
    exact absurd hid (by decide)
  · intro id d hd
    rw [hdomains id d hd]
    decide

/-- the files these calls leave -/
def toldStore : Store := { journal := journalBytes (recordsOf told) }

theorem filesOf_told : filesOf toldStore = some ⟨{}, readable (recordsOf told)⟩ :=
  filesOf_journal (by decide +kernel)
    (by decide +kernel : (recordsOf told).map Prod.fst = List.range' 1 (recordsOf told).length) (by decide +kernel)

theorem agree_told : (Files.mk {} (readable (recordsOf told))).Agree ∧ (Files.mk {} (readable (recordsOf told))).Named :=
  agree_of_single (by decide +kernel) (by decide +kernel) (by decide +kernel) (by decide +kernel) (by decide +kernel)

/-- A recovery from these files keeps the resource and its domain in agreement. -/
theorem placed_run_iff_told :
    Runs.Always Move.engine (fun i => Consistent i.state.topology)
      (told.map Move.call ++ [.recover (fun _ => ticks) (fun _ => {}) 0 { impl := construct ticks {}, store := toldStore }])
      (construct ticks {}) := by
  refine (placed_run_iff ticks {} _).1 ((Runs.along_append _ _ _ _ _).mpr ⟨(Runs.along_map _ _ _).mpr ?_, ?_, trivial⟩)
  · show Runs.Along Call.after (fun c i => KeepsPlaces c.op i) told _
    decide +kernel
  · refine ⟨fun hnone => absurd (filesOf_told.symm.trans hnone) (by simp), fun f hf => ?_⟩
    rw [← Option.some.inj (filesOf_told.symm.trans hf)]
    exact agree_told

/-- two resources, a domain of the second, and a domain that claims both -/
def claimedTwice : List Move :=
  [.call ⟨ticks, .registerResource { id := ⟨1⟩ }⟩, .call ⟨ticks, .registerResource { id := ⟨2⟩ }⟩,
    .call ⟨ticks, .registerDomain { id := ⟨1⟩, members := [⟨2⟩] }⟩,
    .call ⟨ticks, .registerDomain { id := ⟨2⟩, members := [⟨1⟩, ⟨2⟩] }⟩]

/-- A refused domain leaves the member before the conflict placed in it. -/
theorem refusedDomain_places : ¬ ∀ ms, Consistent (Runs.run Move.engine ms (construct ticks {})).state.topology := by
  intro h
  let top := (Runs.run Move.engine claimedTwice (construct ticks {})).state.topology
  have hplaced : (top.resources.find ⟨1⟩).map (·.containmentDomain) = some ⟨2⟩ := by decide +kernel
  have hmissing : top.containmentDomains.has ⟨2⟩ = false := by decide +kernel
  obtain ⟨r, hr, hp⟩ := Option.map_eq_some_iff.mp hplaced
  have hlists : Lists containmentDomains top.containmentDomains ⟨2⟩ ⟨1⟩ :=
    ((h claimedTwice).containment ⟨1⟩ r hr ⟨2⟩ (by decide)).mp hp
  exact Bool.false_ne_true (hmissing.symm.trans hlists.has)

end FaultContainment.Membership
