/-
What operations leave of records, edges and faults.

Whatever an operation does to the resources, a record after it comes from one under its key by an edit that lifts no fence and
makes nothing usable, or it is one that the operation stores of its own: the caller's, one with new evidence, or a blank one
that the lookup of an unknown member invented. A release alone does more.

- `stems_after`: where the records after an operation come from.
- `edges_after`, `has_after`: what it leaves of the edges, and of what a live containment requires.
- `revised_keeps`, `published_keeps`: what it leaves of the faults, as far as a verification looks at them.
-/
import FaultContainment.Observations
import FaultContainment.References
import FaultContainment.Degraded

namespace FaultContainment.Upkeep

open FaultContainment.Lib FaultContainment.Ids FaultContainment.Enums FaultContainment.Records
open FaultContainment.DurableEvent FaultContainment.BlastRadius FaultContainment.Dependency FaultContainment.Engine
open FaultContainment.Containments FaultContainment.Degraded FaultContainment.Observations FaultContainment.Membership
open FaultContainment.Engine.Grouping (Resources)
open FaultContainment.Quarantine (Fenced unplaced_displace unplaced_fields dropped unregistered)

/-! ## Tame edits -/

/-- an edit that neither lifts a fence nor makes a resource usable -/
structure Tame (r r' : ResourceRecord) : Prop where
  id : r'.id = r.id
  contained : resourceIsContained r = true → resourceIsContained r' = true
  fenced : Fenced r → Fenced r'
  usable : usable r' = true → usable r = true

namespace Tame

theorem refl (r : ResourceRecord) : Tame r r := ⟨rfl, fun h => h, fun h => h, fun h => h⟩

theorem trans {r r' r'' : ResourceRecord} (h : Tame r r') (h' : Tame r' r'') : Tame r r'' :=
  ⟨h'.id.trans h.id, fun hc => h'.contained (h.contained hc), fun hf => h'.fenced (h.fenced hf),
    fun hu => h.usable (h'.usable hu)⟩

end Tame

/-- what the edits look at -/
def mark (r : ResourceRecord) : ResourceId × ResourceOperationalState × Bool × EvidenceFreshness :=
  (r.id, r.state, r.quarantined, r.freshness)

theorem mark_fields {r r' : ResourceRecord} (h : mark r' = mark r) :
    r'.id = r.id ∧ r'.state = r.state ∧ r'.quarantined = r.quarantined ∧ r'.freshness = r.freshness := by
  simpa [mark] using h

theorem Tame.of_mark {r r' : ResourceRecord} (h : mark r' = mark r) : Tame r r' := by
  obtain ⟨hid, hstate, hquarantined, hfreshness⟩ := mark_fields h
  refine ⟨hid, ?_, ?_, ?_⟩
  · unfold resourceIsContained
    rw [hstate, hquarantined]
    exact fun h => h
  · unfold Fenced
    rw [hstate, hquarantined]
    exact fun h => h
  · unfold Degraded.usable resourceIsContained
    rw [hstate, hquarantined, hfreshness]
    exact fun h => h

/-- a loss of trust -/
theorem tame_distrust (r : ResourceRecord) : Tame r { r with freshness := .revalidationRequired } :=
  ⟨rfl, fun h => h, fun h => h, fun h => absurd h (by simp [usable])⟩

/-- a fence -/
theorem tame_fenced {r r' : ResourceRecord} (hid : r'.id = r.id) (h : Fenced r') : Tame r r' := by
  have hcontained : resourceIsContained r' = true := by
    unfold resourceIsContained
    rw [h.2, Bool.true_or]
  refine ⟨hid, fun _ => hcontained, fun _ => h, fun hu => ?_⟩
  unfold usable at hu
  rw [hcontained] at hu
  simp at hu

theorem tame_drain {time : UInt64} {r r' : ResourceRecord} (h : drain time r = some r') : Tame r r' := by
  have hkeeps := Quarantine.keepsEdit_drain time r r' h
  unfold drain at h
  split_ifs at h with ho
  obtain rfl := Option.some.inj h
  have hcontained : isContained r.state = false := by
    unfold isOperable at ho
    cases hs : r.state <;> rw [hs] at ho <;> simp at ho <;> rfl
  refine ⟨rfl, ?_, hkeeps.2, ?_⟩
  · unfold resourceIsContained
    rw [hcontained]
    exact fun h => h
  · unfold usable resourceIsContained
    rw [hcontained, ho]
    intro hu
    simpa [isContained, isOperable] using hu

/-- every record comes from one under its key by a tame edit -/
def TameMap (m m' : Resources) : Prop := ∀ k r', m'.find k = some r' → ∃ r, m.find k = some r ∧ Tame r r'

namespace TameMap

variable {m m' m'' : Resources}

theorem refl (m : Resources) : TameMap m m := fun _ r h => ⟨r, h, .refl r⟩

theorem trans (h : TameMap m m') (h' : TameMap m' m'') : TameMap m m'' := by
  intro k r'' hr''
  obtain ⟨r', hr', htame'⟩ := h' k r'' hr''
  obtain ⟨r, hr, htame⟩ := h k r' hr'
  exact ⟨r, hr, htame.trans htame'⟩

theorem insert {k : ResourceId} {r r' : ResourceRecord} (hr : m.find k = some r) (h : Tame r r') :
    TameMap m (m.insert k r') := by
  intro a b hb
  rw [OrderedMap.find_insert] at hb
  split_ifs at hb with hak
  · rw [← hak, ← Option.some.inj hb]
    exact ⟨r, hr, h⟩
  · exact ⟨b, hb, .refl b⟩

theorem updateAll (m : Resources) (ks : List ResourceId) {f : ResourceRecord → ResourceRecord} (hf : ∀ r, Tame r (f r)) :
    TameMap m (m.updateAll ks f) := by
  induction ks generalizing m with
  | nil => exact refl m
  | cons k ks ih =>
    have hupdate : TameMap m (m.update k f) := by
      unfold OrderedMap.update
      split
      · next r hr => exact insert hr (hf r)
      · exact refl m
    exact hupdate.trans (ih _)

theorem mapVals (m : Resources) {f : ResourceRecord → ResourceRecord} (hf : ∀ r, Tame r (f r)) :
    TameMap m (m.mapVals fun _ r => f r) := by
  intro k r' hr'
  rw [OrderedMap.find_mapVals] at hr'
  obtain ⟨r, hr, rfl⟩ := Option.map_eq_some_iff.mp hr'
  exact ⟨r, hr, hf r⟩

theorem editMap (m : Resources) (ks : List ResourceId) {f : ResourceRecord → Option ResourceRecord}
    (hf : ∀ r r', f r = some r' → Tame r r') : TameMap m (editMap f ks m) := by
  induction ks generalizing m with
  | nil => exact refl m
  | cons k ks ih =>
    rw [editMap_cons]
    split
    · exact ih m
    · next r' hr =>
      obtain ⟨r, hfind, hfr⟩ := Option.bind_eq_some_iff.mp hr
      exact (insert hfind (hf r r' hfr)).trans (ih _)

end TameMap

/-! ## What an operation stores -/

/-- the records an operation stores of its own, and their keys; a lookup of a member that is not registered invents one -/
def stores (c : Call) (i : Impl) : List (ResourceId × ResourceRecord) :=
  match c.op with
  | .registerResource record => if (admitRegisterResource record i).isOk then [(record.id, record)] else []
  | .updateResource record expected =>
    if (admitResource "resource.update" record.id expected i).isOk then [(record.id, record)] else []
  | .publishResourceEvidence id expected freshness sequence mechanism _ =>
    (admitEvidence id expected sequence i).toOption.toList.map fun r =>
      (id, withEvidence (c.clk 0) freshness sequence mechanism r)
  | op => ((dropped op i).filter fun k => !i.state.topology.resources.has k).map fun k => (k, {})

/-- every record is an old one, tamely edited, or one that the operation stores of its own -/
def Stems (c : Call) (i : Impl) (m : Resources) : Prop :=
  ∀ k r', m.find k = some r' → (∃ r, i.state.topology.resources.find k = some r ∧ Tame r r') ∨
    ∃ r, (k, r) ∈ stores c i ∧ mark r' = mark r

theorem Stems.of_tame {c : Call} {i : Impl} {m : Resources} (h : TameMap i.state.topology.resources m) : Stems c i m :=
  fun k r' hr' => .inl (h k r' hr')

section Graph

variable {t : IdTag} {D : Type} (g : Grouping t D)

theorem mark_of_unplaced {r r' : ResourceRecord} (h : unplaced r' = unplaced r) : mark r' = mark r := by
  have hfreshness := congrArg ResourceRecord.freshness h
  obtain ⟨hid, hquarantined, hstate⟩ := unplaced_fields h
  unfold mark
  rw [hid, hquarantined, hstate]
  exact congrArg _ (congrArg _ (congrArg _ hfreshness))

theorem tame_placed (id : Id t) (ks : IdSet .resourceId) (m : Resources) : TameMap m (g.placeMembers id ks m) :=
  .updateAll m ks fun r => .of_mark (mark_of_unplaced (g.unplaced_place r id))

/-- members taken out of a domain keep their marks; for one that is not registered a blank record is stored -/
theorem mark_displaced (id : Id t) (ks : IdSet .resourceId) (m : Resources) {k : ResourceId} {r' : ResourceRecord}
    (hr' : (g.displaceMembers id ks m).find k = some r') :
    (∃ r, m.find k = some r ∧ mark r' = mark r) ∨ k ∈ ks ∧ m.has k = false ∧ mark r' = mark {} := by
  induction ks generalizing m with
  | nil => exact .inl ⟨r', hr', rfl⟩
  | cons a ks ih =>
    have hmark : ∀ r, mark (g.displace id r) = mark r := fun r => mark_of_unplaced (unplaced_displace g id r)
    have hnext : (g.displaceMembers id ks (m.subscript a (g.displace id))).find k = some r' := hr'
    rcases ih _ hnext with ⟨r, hr, hsame⟩ | ⟨hk, hnone, hblank⟩
    · rw [OrderedMap.find_subscript] at hr
      split_ifs at hr with hak
      · obtain rfl := Option.some.inj hr
        cases hm : m.find a with
        | some r₀ =>
          rw [hm, Option.getD_some] at hsame
          exact .inl ⟨r₀, hak ▸ hm, hsame.trans (hmark r₀)⟩
        | none =>
          rw [hm, Option.getD_none] at hsame
          refine .inr ⟨hak ▸ List.mem_cons_self, ?_, hsame.trans (hmark default)⟩
          exact hak ▸ (OrderedMap.has_eq_false _ _).mpr hm
      · exact .inl ⟨r, hr, hsame⟩
    · refine .inr ⟨List.mem_cons_of_mem _ hk, ?_, hblank⟩
      rw [OrderedMap.has_eq_false, OrderedMap.find_subscript] at hnone
      split_ifs at hnone
      exact (OrderedMap.has_eq_false _ _).mpr hnone

/-- members taken out of a domain, after tame edits -/
theorem stems_displaced {c : Call} {i : Impl} {m : Resources} (h : TameMap i.state.topology.resources m)
    (hhas : ∀ k, i.state.topology.resources.has k = true → m.has k = true) (id : Id t) {ks : IdSet .resourceId}
    (hstores : stores c i = (ks.filter fun k => !i.state.topology.resources.has k).map fun k => (k, {})) :
    Stems c i (g.displaceMembers id ks m) := by
  intro k r' hr'
  rcases mark_displaced g id ks m hr' with ⟨r, hr, hmark⟩ | ⟨hk, hnone, hblank⟩
  · obtain ⟨r₀, hr₀, htame⟩ := h k r hr
    exact .inl ⟨r₀, hr₀, htame.trans (.of_mark hmark)⟩
  · refine .inr ⟨{}, ?_, hblank⟩
    have hunknown : i.state.topology.resources.has k = false := by
      rw [Bool.eq_false_iff]
      exact fun hold => Bool.false_ne_true (hnone.symm.trans (hhas k hold))
    rw [hstores, List.mem_map]
    exact ⟨k, List.mem_filter.mpr ⟨hk, by rw [hunknown]; rfl⟩, rfl⟩

theorem stems_register (normalize : D → D) (clk : Clock) (domain : D) (c : Call) (i : Impl) :
    Stems c i (g.register normalize clk domain i).impl.state.topology.resources := by
  by_cases hopen : (g.id domain).valid = true ∧ (g.domains i.state.topology).has (g.id domain) = false
  · rw [register_topology g normalize clk hopen.1 hopen.2]
    dsimp only
    rw [g.resources_setDomains]
    exact .of_tame (tame_placed g _ _ _)
  · rw [register_refused g normalize clk fun hv => Bool.eq_true_of_not_eq_false fun hn => hopen ⟨hv, hn⟩]
    exact .of_tame (.refl _)

theorem stems_unregister (notFound advanced : String) (clk : Clock) (id : Id t) (expected : TopologyGeneration) {c : Call}
    (i : Impl) (hstores : stores c i =
      ((unregistered g id expected i).filter fun k => !i.state.topology.resources.has k).map fun k => (k, {})) :
    Stems c i (g.unregister notFound advanced clk id expected i).impl.state.topology.resources := by
  rcases @unregister_cases _ _ g clk id expected i notFound advanced with ⟨himpl, -⟩ | ⟨d, -, hmembers, htop⟩
  · rw [himpl]
    exact .of_tame (.refl _)
  · rw [htop]
    dsimp only
    rw [g.resources_setDomains]
    exact stems_displaced g (.refl _) (fun _ hk => hk) id (hmembers ▸ hstores)

end Graph

theorem stems_registerDomain (clk : Clock) (domain : ContainmentDomain) (c : Call) (i : Impl) :
    Stems c i (registerDomain clk domain i).impl.state.topology.resources := by
  rcases registerDomain_cases clk domain (i := i) with ⟨himpl, -⟩ | ⟨-, -, ⟨stored, -, -, htop⟩ | ⟨-, htop⟩⟩
  · rw [himpl]
    exact .of_tame (.refl _)
  · rw [htop]
    exact .of_tame (tame_placed containmentDomains _ _ _)
  · rw [htop]
    exact .of_tame (tame_placed containmentDomains _ _ _)

theorem stems_updateDomain (clk : Clock) (domain : ContainmentDomain) (expected : TopologyGeneration) (i : Impl) :
    Stems ⟨clk, .updateDomain domain expected⟩ i (updateDomain clk domain expected i).impl.state.topology.resources := by
  rcases updateDomain_cases clk domain expected (i := i) with ⟨himpl, -⟩ | ⟨previous, stored, hadmitted, -, htop⟩
  · rw [himpl]
    exact .of_tame (.refl _)
  · rw [htop]
    refine stems_displaced containmentDomains (tame_placed containmentDomains _ _ _)
      (fun k hk => References.has_placeMembers _ _ _ hk) domain.id ?_
    have hdropped : dropped (.updateDomain domain expected) i = droppedMembers previous.members domain.members := by
      show Quarantine.updateDropped domain expected i = _
      unfold Quarantine.updateDropped
      rw [hadmitted]
    exact congrArg (fun ks : List ResourceId => (ks.filter fun k => !i.state.topology.resources.has k).map fun k =>
      (k, ({} : ResourceRecord))) hdropped

/-- a record stored of its own -/
theorem Stems.insert {c : Call} {i : Impl} {k : ResourceId} {r r' : ResourceRecord} (h : (k, r) ∈ stores c i)
    (hmark : mark r' = mark r) : Stems c i (i.state.topology.resources.insert k r') := by
  intro a b hb
  rw [OrderedMap.find_insert] at hb
  split_ifs at hb with hak
  · exact .inr ⟨r, hak ▸ h, Option.some.inj hb ▸ hmark⟩
  · exact .inl ⟨b, hb, .refl b⟩

theorem stems_registerResource (clk : Clock) (record : ResourceRecord) (i : Impl) :
    Stems ⟨clk, .registerResource record⟩ i (registerResource clk record i).impl.state.topology.resources := by
  cases hadmitted : admitRegisterResource record i with
  | error e =>
    rw [registerResource_refused clk hadmitted]
    exact .of_tame (.refl _)
  | ok =>
    obtain ⟨stored, hstored, htop⟩ := registerResource_topology clk hadmitted
    rw [htop]
    refine .insert (r := record) ?_ (by rw [hstored]; rfl)
    show (record.id, record) ∈ if (admitRegisterResource record i).isOk = true then [(record.id, record)] else []
    rw [hadmitted]
    exact List.mem_singleton_self _

theorem stems_updateResource (clk : Clock) (record : ResourceRecord) (expected : ResourceGeneration) (i : Impl) :
    Stems ⟨clk, .updateResource record expected⟩ i
      (updateResource clk record expected i).impl.state.topology.resources := by
  rcases updateResource_cases clk record expected (i := i) with
    ⟨himpl, -⟩ | ⟨previous, stored, hadmitted, hstored, htop⟩
  · rw [himpl]
    exact .of_tame (.refl _)
  · rw [htop]
    refine .insert (r := record) ?_ (by rw [hstored]; rfl)
    show (record.id, record) ∈
      if (admitResource "resource.update" record.id expected i).isOk = true then [(record.id, record)] else []
    rw [hadmitted]
    exact List.mem_singleton_self _

theorem stems_removeResource (clk : Clock) (id : ResourceId) (expected : ResourceGeneration) (c : Call) (i : Impl) :
    Stems c i (removeResource clk id expected i).impl.state.topology.resources := by
  refine .of_tame ?_
  rcases removeResource_cases clk id expected (i := i) with himpl | ⟨removed, -, htop⟩
  · rw [himpl]
    exact .refl _
  · rw [htop]
    intro k r' hr'
    rw [OrderedMap.find_erase] at hr'
    split_ifs at hr'
    exact ⟨r', hr', .refl r'⟩

theorem stems_publishResourceEvidence (clk : Clock) (id : ResourceId) (expected : ResourceGeneration)
    (freshness : EvidenceFreshness) (sequence : EvidenceSequence) (mechanism : ContainmentMechanism) (source : Text)
    (i : Impl) :
    Stems ⟨clk, .publishResourceEvidence id expected freshness sequence mechanism source⟩ i
      (publishResourceEvidence clk id expected freshness sequence mechanism source i).impl.state.topology.resources := by
  unfold publishResourceEvidence
  cases hadmitted : admitEvidence id expected sequence i with
  | error e => exact .of_tame (.refl _)
  | ok r =>
    refine .insert (r := withEvidence (clk 0) freshness sequence mechanism r) ?_ rfl
    show (id, withEvidence (clk 0) freshness sequence mechanism r) ∈ (admitEvidence id expected sequence i).toOption.toList.map _
    rw [hadmitted]
    exact List.mem_singleton_self _

/-! ## Tame operations -/

theorem tame_registerWorker (clk : Clock) (worker : WorkerId) (boot : WorkerBootId) (endpoint : Text)
    (sequence : EvidenceSequence) (i : Impl) :
    TameMap i.state.topology.resources
      (registerWorker clk worker boot endpoint sequence i).impl.state.topology.resources := by
  have hrevoked : ∀ j : Impl, TameMap j.state.topology.resources
      (revokePrevious clk worker boot j).1.state.topology.resources := by
    intro j
    unfold revokePrevious
    split
    · exact .refl _
    split_ifs
    · exact .refl _
    split
    · exact .refl _
    · exact .updateAll _ _ tame_distrust
  unfold registerWorker
  split
  · exact .refl _
  split
  · exact .refl _
  split
  · exact hrevoked i
  split
  · exact hrevoked (i.withIncarnations (i.state.workers.incarnations.erase ⟨worker, boot⟩))
  split
  · exact .refl _
  split
  · exact .refl _
  · exact .refl _

theorem tame_authorityLost (clk : Clock) (worker : WorkerId) (boot : WorkerBootId) (detail : Text)
    (observationTimeMs : UInt64) (i : Impl) :
    TameMap i.state.topology.resources
      (authorityLost clk worker boot detail observationTimeMs i).impl.state.topology.resources := by
  rcases authorityLost_topology clk worker boot detail observationTimeMs i with h | h
  · rw [h]
    exact .refl _
  · rw [h]
    refine .editMap _ _ fun r r' hr => ?_
    rw [← Option.some.inj hr]
    exact tame_fenced rfl (Quarantine.fenced_fenceLost _ r)

theorem tame_recordActionResult (clk : Clock) (result : ActionResult) (i : Impl) :
    TameMap i.state.topology.resources (recordActionResult clk result i).impl.state.topology.resources := by
  unfold recordActionResult
  split
  · exact .refl _
  split
  · exact .refl _
  split
  · exact .refl _
  · dsimp only [commit_topology]
    split
    · rw [editEach_resources]
      refine .editMap _ _ fun r r' hr => ?_
      rw [← Option.some.inj hr]
      exact .of_mark rfl
    · exact .refl _

theorem tame_authorizeContainment (clk : Clock) (id : FaultId) (expected : FaultGeneration) (i : Impl) :
    TameMap i.state.topology.resources (authorizeContainment clk id expected i).impl.state.topology.resources := by
  unfold authorizeContainment
  split
  · exact .refl _
  split
  · exact .refl _
  · next fault _ _ radius _ =>
    rw [commitContainment_topology]
    refine .trans (.editMap _ radius.mandatory fun r r' hr => ?_) (.editMap _ radius.precautionary fun r r' hr => ?_)
    · rw [← Option.some.inj hr]
      exact tame_fenced rfl (Quarantine.fenced_fence _ _ _ _ r)
    · exact tame_drain hr

/-- a refused release leaves the resources alone -/
theorem tame_refused (clk : Clock) {request : ReleaseRequest} {i : Impl}
    (h : (assessRelease i.state request).granted = false) :
    TameMap i.state.topology.resources (authorizeRelease clk request i).impl.state.topology.resources := by
  unfold authorizeRelease
  dsimp only
  rw [if_pos (by simp [h])]
  exact .refl _

/-- **What an operation leaves of the resources**, unless it releases one. -/
theorem stems_after (c : Call) (i : Impl)
    (hrelease : ∀ request, c.op = .authorizeRelease request → (assessRelease i.state request).granted = false) :
    Stems c i (c.after i).state.topology.resources := by
  have hframe := frame_run c i
  obtain ⟨clk, op⟩ := c
  have hfixed : .topology ∉ op.parts → Stems ⟨clk, op⟩ i (Call.after ⟨clk, op⟩ i).state.topology.resources := by
    intro hp
    rw [hframe.topology hp]
    exact .of_tame (.refl _)
  cases op with
  | registerDomain domain => exact stems_registerDomain clk domain _ i
  | updateDomain domain expected => exact stems_updateDomain clk domain expected i
  | removeDomain id expected => exact stems_unregister containmentDomains _ _ clk id expected i rfl
  | registerIsolationDomain domain => exact stems_register isolationDomains _ clk domain _ i
  | removeIsolationDomain id expected => exact stems_unregister isolationDomains _ _ clk id expected i rfl
  | registerFailureDomain domain => exact stems_register failureDomains _ clk domain _ i
  | removeFailureDomain id expected => exact stems_unregister failureDomains _ _ clk id expected i rfl
  | registerResource record => exact stems_registerResource clk record i
  | updateResource record expected => exact stems_updateResource clk record expected i
  | removeResource id expected => exact stems_removeResource clk id expected _ i
  | publishResourceEvidence id expected freshness sequence mechanism source =>
    exact stems_publishResourceEvidence clk id expected freshness sequence mechanism source i
  | registerWorker worker boot endpoint sequence =>
    exact .of_tame (tame_registerWorker clk worker boot endpoint sequence i)
  | beginEpoch nowMs reason => exact .of_tame (.mapVals _ tame_distrust)
  | authorizeContainment id expected => exact .of_tame (tame_authorizeContainment clk id expected i)
  | recordActionResult result => exact .of_tame (tame_recordActionResult clk result i)
  | authorityLost worker boot detail time => exact .of_tame (tame_authorityLost clk worker boot detail time i)
  | authorizeRelease request => exact .of_tame (tame_refused clk (hrelease request rfl))
  | registerDependency edge =>
    show Stems _ i (registerDependency clk edge i).impl.state.topology.resources
    rcases registerDependency_cases clk edge i with himpl | ⟨-, htop⟩
    · rw [himpl]
      exact .of_tame (.refl _)
    · rw [htop]
      exact .of_tame (.refl _)
  | removeDependency id expected =>
    show Stems _ i (removeDependency clk id expected i).impl.state.topology.resources
    rcases removeDependency_cases clk id expected i with himpl | htop
    · rw [himpl]
      exact .of_tame (.refl _)
    · rw [htop]
      exact .of_tame (.refl _)
  | setPolicy _ | retireWorker _ _ _ | publishFault _ | supersedeFault _ _ _ | dispatchBegin _ _ | dispatchEnd _ _
  | recordActionAck _ | verifyContainment _ | authorizeDegradedMode _ | revalidateDegradedMode _ | noteAuthorityLoss _ _
  | requestShutdown | persistenceFault _ =>
    exact hfixed (by simp [Op.parts])

/-- **What an operation leaves of the edges.** -/
theorem edges_after (c : Call) (i : Impl) {id : DependencyId} {e : DependencyEdge}
    (he : (c.after i).state.topology.dependencies.edges.find id = some e) :
    i.state.topology.dependencies.edges.find id = some e ∨ ∃ edge, c.op = .registerDependency edge ∧
      admitRegisterDependency edge i = .ok () ∧ id = edge.id ∧ e.freshness = edge.freshness ∧ e.kind = edge.kind := by
  cases hedits : References.editsEdges c.op with
  | false =>
    rw [(References.grows_after c i hedits).dependencies] at he
    exact .inl he
  | true =>
    obtain ⟨clk, op⟩ := c
    cases op with
    | removeResource k expected =>
      change (removeResource clk k expected i).impl.state.topology.dependencies.edges.find id = some e at he
      rcases removeResource_cases clk k expected (i := i) with himpl | ⟨removed, -, htop⟩
      · rw [himpl] at he
        exact .inl he
      · rw [htop] at he
        dsimp only at he
        rw [References.find_foldl_eraseEdge] at he
        split_ifs at he
        exact .inl he
    | registerDependency edge =>
      change (registerDependency clk edge i).impl.state.topology.dependencies.edges.find id = some e at he
      rcases registerDependency_cases clk edge i with himpl | ⟨hadmitted, htop⟩
      · rw [himpl] at he
        exact .inl he
      · rw [htop] at he
        dsimp only at he
        rw [find_insertEdge] at he
        split_ifs at he with hid
        · rw [← Option.some.inj he]
          exact .inr ⟨edge, rfl, hadmitted, hid.symm, rfl, rfl⟩
        · exact .inl he
    | removeDependency k expected =>
      change (removeDependency clk k expected i).impl.state.topology.dependencies.edges.find id = some e at he
      rcases removeDependency_cases clk k expected i with himpl | htop
      · rw [himpl] at he
        exact .inl he
      · rw [htop] at he
        dsimp only at he
        rw [find_eraseEdge] at he
        split_ifs at he
        exact .inl he
    | _ => exact absurd hedits (by simp [References.editsEdges])

/-- what a live containment requires is not removed -/
theorem has_after (c : Call) (i : Impl) {k : ResourceId} (hk : i.state.topology.resources.has k = true)
    (hheld : heldBy i.state.containments k = true) : (c.after i).state.topology.resources.has k = true := by
  cases hedits : References.editsEdges c.op with
  | false => exact (References.grows_after c i hedits).resources k hk
  | true =>
    obtain ⟨clk, op⟩ := c
    cases op with
    | removeResource id expected =>
      show (removeResource clk id expected i).impl.state.topology.resources.has k = true
      by_cases hid : id = k
      · have hrefused : (removeResource clk id expected i).impl = i := by
          unfold removeResource
          split
          · rfl
          · rw [if_pos (hid ▸ hheld)]
            rfl
        rw [hrefused]
        exact hk
      · rcases removeResource_cases clk id expected (i := i) with himpl | ⟨removed, -, htop⟩
        · rw [himpl]
          exact hk
        · rw [htop]
          obtain ⟨r, hr⟩ := (OrderedMap.has_iff _ _).mp hk
          exact (OrderedMap.has_iff _ _).mpr ⟨r, by rw [OrderedMap.find_erase, if_neg hid, hr]⟩
    | registerDependency edge =>
      show (registerDependency clk edge i).impl.state.topology.resources.has k = true
      rcases registerDependency_cases clk edge i with himpl | ⟨-, htop⟩
      · rw [himpl]
        exact hk
      · rw [htop]
        exact hk
    | removeDependency id expected =>
      show (removeDependency clk id expected i).impl.state.topology.resources.has k = true
      rcases removeDependency_cases clk id expected i with himpl | htop
      · rw [himpl]
        exact hk
      · rw [htop]
        exact hk
    | _ => exact absurd hedits (by simp [References.editsEdges])

/-! ## Faults -/

theorem secondaryFailure_iff (s : RuntimeSnapshot) (c : ContainmentRecord) : secondaryFailure s c = false ↔
    ∀ id f, s.faults.find id = some f → id ≠ c.fault → isFaultCurrent f.state = true →
      idSetContains c.mandatory f.evidence.subject = true → f.firstSeenMs < c.committedAtMs := by
  rw [secondaryFailure, List.any_eq_false]
  constructor
  · intro h id f hf hne hcurrent hsubject
    have hlater := h (id, f) ((OrderedMap.mem_toList _ _ _).mpr hf)
    simp only [hne, ne_eq, not_false_eq_true, decide_true, hcurrent, hsubject, Bool.true_and, decide_eq_true_eq] at hlater
    exact UInt64.lt_iff_toNat_lt.mpr (Nat.lt_of_not_le hlater)
  · rintro h ⟨id, f⟩ hmem hsecond
    simp only [Bool.and_eq_true, decide_eq_true_eq] at hsecond
    obtain ⟨⟨⟨hne, hcurrent⟩, hsubject⟩, hlater⟩ := hsecond
    have hbefore := h id f ((OrderedMap.mem_toList _ _ _).mp hmem) hne hcurrent hsubject
    exact absurd (UInt64.lt_iff_toNat_lt.mp hbefore) (Nat.not_lt.mpr hlater)

/-- a rewritten fault creates no secondary failure and stays of its kind -/
theorem revised_keeps {s s' : RuntimeSnapshot} (h : Revised s.faults s'.faults) (c : ContainmentRecord) :
    kindOf s' c = kindOf s c ∧ (secondaryFailure s c = false → secondaryFailure s' c = false) := by
  cases h with
  | same h =>
    unfold kindOf secondaryFailure
    rw [h]
    exact ⟨rfl, fun h => h⟩
  | rewrite id f f' hfind hf h =>
    obtain ⟨-, -, hkind, hsubject⟩ := hf.fields
    constructor
    · unfold kindOf
      rw [h, OrderedMap.find_insert]
      split_ifs with hid
      · rw [← hid, hfind]
        exact hkind
      · rfl
    · rw [secondaryFailure_iff, secondaryFailure_iff]
      intro hbefore k g hg hne hcurrent hmem
      rw [h, OrderedMap.find_insert] at hg
      split_ifs at hg with hid
      · obtain rfl := Option.some.inj hg
        rw [hf.seen]
        exact hbefore k f (hid ▸ hfind) hne (Dispatching.isFaultCurrent_of_legal hf.legal hcurrent) (hsubject ▸ hmem)
      · exact hbefore k g hg hne hcurrent hmem

/-- an observation is stored as a new fault -/
def Enters (evidence : FaultEvidence) (i : Impl) : Prop :=
  Accepted evidence i ∧ i.faultByDigest.find (normalizeEvidence evidence i).digest = none ∧
    admitFault (normalizeEvidence evidence i) i = .ok ()

instance (evidence : FaultEvidence) (i : Impl) : Decidable (Enters evidence i) :=
  inferInstanceAs (Decidable (_ ∧ _ ∧ _))

/-- every containment is for a stored fault -/
def Charged (s : RuntimeSnapshot) : Prop :=
  ∀ g c, s.containments.find g = some c → s.faults.has c.fault = true

/-- a publication creates a secondary failure only as a new fault -/
theorem published_keeps (clk : Clock) (evidence : FaultEvidence) {i : Impl} (hcataloged : Cataloged i)
    {c : ContainmentRecord} (hcharged : i.state.faults.has c.fault = true)
    (henters : Enters evidence i → idSetContains c.mandatory evidence.subject = true → clk 0 < c.committedAtMs) :
    kindOf (publishFault clk evidence i).impl.state c = kindOf i.state c ∧
      (secondaryFailure i.state c = false → secondaryFailure (publishFault clk evidence i).impl.state c = false) := by
  obtain ⟨hstate, -⟩ := allocateFault_reads evidence i
  have hsame : Revised i.state.faults (allocateFault evidence i).state.faults := .same (congrArg _ hstate)
  cases publishFault_cases clk evidence i with
  | rejected j e _ _ hj hstep =>
    rw [hstep]
    rcases hj with rfl | rfl
    · exact ⟨rfl, fun h => h⟩
    · exact revised_keeps hsame c
  | refused e _ _ _ hstep =>
    rw [hstep]
    exact revised_keeps hsame c
  | duplicate id _ hknown hstep =>
    rw [hstep]
    obtain ⟨f, hf, -⟩ := hcataloged.stored _ _ hknown
    have hf' : (allocateFault evidence i).state.faults.find id = some f := by rw [hstate]; exact hf
    have hrevised := (revised_countDuplicate clk hf').1
    rw [hstate] at hrevised
    exact revised_keeps hrevised c
  | fresh haccepted hknown hadmitted hstep =>
    rw [hstep]
    obtain ⟨hnone, hfaults, -⟩ := storeFault_stored clk ((admitFault_allocate _ evidence i).trans hadmitted)
    rw [hstate] at hnone hfaults
    have hne : (normalizeEvidence evidence i).id ≠ c.fault := by
      intro he
      rw [he] at hnone
      exact Bool.false_ne_true (((OrderedMap.has_eq_false _ _).mpr hnone).symm.trans hcharged)
    constructor
    · unfold kindOf
      rw [hfaults, OrderedMap.find_insert, if_neg hne]
    · rw [secondaryFailure_iff, secondaryFailure_iff]
      intro hbefore k g hg hother hcurrent hmem
      rw [hfaults, OrderedMap.find_insert] at hg
      split_ifs at hg with hk
      · rw [← Option.some.inj hg] at hmem ⊢
        exact henters ⟨haccepted, hknown, hadmitted⟩ hmem
      · exact hbefore k g hg hother hcurrent hmem

end FaultContainment.Upkeep
