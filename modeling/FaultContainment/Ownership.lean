/-
Who owns a resource, stored twice.

A resource names the incarnation that owns it, and an incarnation lists the resources it holds authority over. A registration
writes both; an update or a removal of a resource writes only the resource, a retirement only the incarnation, and a
reattachment or a fresh boot trusts the list as it stands. A fresh boot distrusts what the list of its predecessor names.

- `sameOwners_after`: which operations leave the owners alone.
- `trusting_after_iff`: when the two copies agree for live incarnations, an operation keeps them in agreement exactly when it
  meets its condition.
- `distrusts_iff`: a fresh boot leaves no trusted resource to its predecessor exactly when the list names all of them.
- `trust_run_iff`: both along every run.
-/
import FaultContainment.Dispatching.Lifecycle
import FaultContainment.Quarantine

namespace FaultContainment.Ownership

open FaultContainment.Lib FaultContainment.Ids FaultContainment.Enums FaultContainment.Records
open FaultContainment.DurableEvent FaultContainment.Engine FaultContainment.Dispatching
open FaultContainment.Quarantine (Resources admitResource_ok edit_resources commitContainment_resources stageFault_resources)

/-! ## Owners -/

/-- the incarnation a resource names as its owner -/
def owner (r : ResourceRecord) : WorkerKey := ⟨r.ownerWorker, r.ownerBoot⟩

/-- a registered resource that names an incarnation -/
def Owns (m : Resources) (key : WorkerKey) (k : ResourceId) : Prop := ∃ r, m.find k = some r ∧ owner r = key

/-- the same resources name each incarnation that has a boot -/
def SameOwners (m m' : Resources) : Prop := ∀ key : WorkerKey, key.boot.valid = true → ∀ k, Owns m' key k ↔ Owns m key k

namespace SameOwners

variable {m m' m'' : Resources}

theorem refl (m : Resources) : SameOwners m m := fun _ _ _ => Iff.rfl

theorem trans (h : SameOwners m m') (h' : SameOwners m' m'') : SameOwners m m'' :=
  fun key hb k => (h' key hb k).trans (h key hb k)

/-- a record written under the owner it had; a record that was not there has no owner -/
theorem insert {k : ResourceId} {r : ResourceRecord} (h : owner r = ((m.find k).map owner).getD {}) :
    SameOwners m (m.insert k r) := by
  intro key hb a
  unfold Owns
  rw [OrderedMap.find_insert]
  split_ifs with ha
  · subst ha
    cases hfind : m.find k with
    | none =>
      rw [hfind] at h
      refine iff_of_false ?_ (by simp)
      rintro ⟨r', hr', rfl⟩
      rw [← Option.some.inj hr', h] at hb
      exact absurd hb (by decide)
    | some p =>
      rw [hfind] at h
      have howner : owner r = owner p := h
      simp [howner]
  · exact Iff.rfl

theorem insert_known {k : ResourceId} {r r' : ResourceRecord} (hr : m.find k = some r) (h : owner r' = owner r) :
    SameOwners m (m.insert k r') :=
  insert (by rw [hr]; exact h)

theorem updateAll (m : Resources) (ks : List ResourceId) {f : ResourceRecord → ResourceRecord}
    (hf : ∀ r, owner (f r) = owner r) : SameOwners m (m.updateAll ks f) := by
  induction ks generalizing m with
  | nil => exact refl m
  | cons k ks ih =>
    refine trans ?_ (ih (m.update k f))
    unfold OrderedMap.update
    split
    · next r hr => exact insert_known hr (hf r)
    · exact refl m

theorem subscriptAll (m : Resources) (ks : List ResourceId) {f : ResourceRecord → ResourceRecord}
    (hf : ∀ r, owner (f r) = owner r) : SameOwners m (m.subscriptAll ks f) := by
  induction ks generalizing m with
  | nil => exact refl m
  | cons k ks ih =>
    refine trans ?_ (ih (m.subscript k f))
    refine insert ?_
    rw [hf]
    cases m.find k <;> rfl

theorem mapVals (m : Resources) {f : ResourceRecord → ResourceRecord} (hf : ∀ r, owner (f r) = owner r) :
    SameOwners m (m.mapVals fun _ r => f r) := by
  intro key _ k
  unfold Owns
  rw [OrderedMap.find_mapVals]
  cases m.find k with
  | none => exact Iff.rfl
  | some r => simp [hf]

theorem editMap (m : Resources) (ks : List ResourceId) {f : ResourceRecord → Option ResourceRecord}
    (hf : ∀ r r', f r = some r' → owner r' = owner r) : SameOwners m (editMap f ks m) := by
  induction ks generalizing m with
  | nil => exact refl m
  | cons k ks ih =>
    rw [editMap_cons]
    split
    · exact ih m
    · next r' hr =>
      obtain ⟨r, hfind, hfr⟩ := Option.bind_eq_some_iff.mp hr
      exact (insert_known hfind (hf r r' hfr)).trans (ih _)

end SameOwners

/-- where a record is placed has nothing to do with its owner -/
theorem owner_unplaced {r r' : ResourceRecord} (h : unplaced r' = unplaced r) : owner r' = owner r := by
  have hworker := congrArg ResourceRecord.ownerWorker h
  have hboot := congrArg ResourceRecord.ownerBoot h
  unfold owner
  exact congrArg₂ WorkerKey.mk hworker hboot

/-! ## Operations that leave the owners alone -/

section Kind

variable {t : IdTag} {D : Type} (g : Grouping t D)

theorem sameOwners_register (normalize : D → D) (clk : Clock) (domain : D) (i : Impl) :
    SameOwners i.state.topology.resources (g.register normalize clk domain i).impl.state.topology.resources := by
  unfold Grouping.register
  split
  · exact .refl _
  · split
    · exact .refl _
    · dsimp only [commit_topology]
      rw [edit_resources]
      exact SameOwners.updateAll _ _ fun r => owner_unplaced (g.unplaced_place r _)

theorem sameOwners_displace (id : Id t) (ks : IdSet .resourceId) (m : Resources) :
    SameOwners m (g.displaceMembers id ks m) :=
  SameOwners.subscriptAll _ _ fun r => owner_unplaced (Quarantine.unplaced_displace g id r)

theorem sameOwners_unregister (notFound advanced : String) (clk : Clock) (id : Id t) (expected : TopologyGeneration)
    (i : Impl) :
    SameOwners i.state.topology.resources
      (g.unregister notFound advanced clk id expected i).impl.state.topology.resources := by
  unfold Grouping.unregister
  split
  · exact .refl _
  · next d _ =>
    split
    · exact .refl _
    · dsimp only [commit_topology]
      have he : (g.edit i fun m => m.erase id).advanceTopology.state.topology.resources = i.state.topology.resources :=
        edit_resources g i fun m => m.erase id
      show SameOwners i.state.topology.resources (g.displaceMembers id (g.members d)
        (g.edit i fun m => m.erase id).advanceTopology.state.topology.resources)
      rw [he]
      exact sameOwners_displace g id _ _

end Kind

theorem sameOwners_registerDomain (clk : Clock) (domain : ContainmentDomain) (i : Impl) :
    SameOwners i.state.topology.resources (registerDomain clk domain i).impl.state.topology.resources := by
  have hclaimed : SameOwners i.state.topology.resources
      (claimMembers domain.id domain.members i.state.topology.resources).1 := by
    rw [claimMembers_eq]
    refine SameOwners.updateAll _ _ fun r => ?_
    rfl
  unfold registerDomain
  split
  · exact .refl _
  · split
    · exact .refl _
    · dsimp only
      split
      · exact hclaimed
      · exact hclaimed

theorem sameOwners_updateDomain (clk : Clock) (domain : ContainmentDomain) (expected : TopologyGeneration) (i : Impl) :
    SameOwners i.state.topology.resources (updateDomain clk domain expected i).impl.state.topology.resources := by
  unfold updateDomain
  split
  · exact .refl _
  · refine SameOwners.trans ?_ (sameOwners_displace containmentDomains _ _ _)
    refine SameOwners.subscriptAll _ _ fun r => ?_
    rfl

theorem sameOwners_publishResourceEvidence (clk : Clock) (id : ResourceId) (expected : ResourceGeneration)
    (freshness : EvidenceFreshness) (sequence : EvidenceSequence) (mechanism : ContainmentMechanism) (source : Text)
    (i : Impl) :
    SameOwners i.state.topology.resources
      (publishResourceEvidence clk id expected freshness sequence mechanism source i).impl.state.topology.resources := by
  unfold publishResourceEvidence
  split
  · exact .refl _
  · next r hr =>
    refine SameOwners.insert_known (Quarantine.admitEvidence_ok hr) ?_
    rfl

theorem sameOwners_registerWorker (clk : Clock) (worker : WorkerId) (boot : WorkerBootId) (endpoint : Text)
    (sequence : EvidenceSequence) (i : Impl) :
    SameOwners i.state.topology.resources
      (registerWorker clk worker boot endpoint sequence i).impl.state.topology.resources := by
  have hrevoke : ∀ j : Impl, SameOwners j.state.topology.resources
      (registerFresh clk worker boot endpoint sequence j).impl.state.topology.resources := by
    intro j
    show SameOwners _ (revokePrevious clk worker boot j).1.state.topology.resources
    unfold revokePrevious
    split
    · exact .refl _
    split
    · exact .refl _
    split
    · exact .refl _
    · refine SameOwners.updateAll _ _ fun r => ?_
      rfl
  unfold registerWorker
  split
  · exact .refl _
  split
  · exact .refl _
  split
  · exact hrevoke i
  split
  · exact hrevoke (i.withIncarnations (i.state.workers.incarnations.erase ⟨worker, boot⟩))
  split
  · exact .refl _
  split
  · exact .refl _
  · exact .refl _

theorem sameOwners_editEach {f : ResourceRecord → Option ResourceRecord}
    (hf : ∀ r r', f r = some r' → owner r' = owner r) (ks : List ResourceId) (i : Impl) :
    SameOwners i.state.topology.resources (editEach f ks i).1.state.topology.resources := by
  rw [editEach_resources]
  exact SameOwners.editMap _ _ hf

theorem sameOwners_authorityLost (clk : Clock) (worker : WorkerId) (boot : WorkerBootId) (detail : Text) (time : UInt64)
    (i : Impl) :
    SameOwners i.state.topology.resources (authorityLost clk worker boot detail time i).impl.state.topology.resources := by
  have hfenced : ∀ r r', some (fenceLost (clk 1) r) = some r' → owner r' = owner r := by
    intro r r' h
    rw [← Option.some.inj h]
    rfl
  unfold authorityLost
  split
  · exact .refl _
  split
  · exact .refl _
  · dsimp only
    generalize hs : lossSubject _ = subject
    by_cases hv : subject.valid = true
    · rw [if_neg (not_not.mpr hv)]
      exact sameOwners_editEach hfenced _ (i.withIncarnations _)
    · rw [if_pos hv]
      exact .refl _

theorem sameOwners_authorizeContainment (clk : Clock) (id : FaultId) (expected : FaultGeneration) (i : Impl) :
    SameOwners i.state.topology.resources
      (authorizeContainment clk id expected i).impl.state.topology.resources := by
  unfold authorizeContainment
  split
  · exact .refl _
  split
  · exact .refl _
  · rw [commitContainment_resources]
    refine SameOwners.trans (SameOwners.editMap _ _ fun r r' h => ?_) (SameOwners.editMap _ _ fun r r' h => ?_)
    · rw [← Option.some.inj h]
      rfl
    · unfold drain at h
      split_ifs at h
      rw [← Option.some.inj h]
      rfl

theorem sameOwners_recordActionResult (clk : Clock) (result : ActionResult) (i : Impl) :
    SameOwners i.state.topology.resources (recordActionResult clk result i).impl.state.topology.resources := by
  unfold recordActionResult
  split
  · exact .refl _
  split
  · exact .refl _
  split
  · exact .refl _
  · dsimp only [commit_topology]
    split
    · refine sameOwners_editEach (fun r r' h => ?_) _ (i.withActions _)
      rw [← Option.some.inj h]
      rfl
    · exact .refl _

theorem sameOwners_authorizeRelease (clk : Clock) (request : ReleaseRequest) (i : Impl) :
    SameOwners i.state.topology.resources (authorizeRelease clk request i).impl.state.topology.resources := by
  have htaken : ∀ g id (j : Impl), (takeOffContainment clk g id j).1.state.topology.resources =
      j.state.topology.resources := by
    intro g id j
    unfold takeOffContainment
    split
    · rfl
    · dsimp only
      split
      · exact stageFault_resources _ _ _
      · rfl
  unfold authorizeRelease
  dsimp only
  split
  · exact .refl _
  split
  · exact .refl _
  · next r hr =>
    unfold grantRelease
    dsimp only [commit_topology]
    rw [htaken]
    refine SameOwners.insert_known hr ?_
    rfl

/-- the operations that write a resource's owner -/
def writesOwner : Op → Bool
  | .registerResource _ | .updateResource _ _ | .removeResource _ _ => true
  | _ => false

/-- **Owners.** Every other operation leaves them alone. -/
theorem sameOwners_after (c : Call) (i : Impl) (h : writesOwner c.op = false) :
    SameOwners i.state.topology.resources (c.after i).state.topology.resources := by
  have hframe := frame_run c i
  obtain ⟨clk, op⟩ := c
  cases op
  case registerDomain domain => exact sameOwners_registerDomain clk domain i
  case updateDomain domain expected => exact sameOwners_updateDomain clk domain expected i
  case removeDomain id expected => exact sameOwners_unregister _ _ _ clk id expected i
  case registerIsolationDomain domain => exact sameOwners_register _ _ clk domain i
  case removeIsolationDomain id expected => exact sameOwners_unregister _ _ _ clk id expected i
  case registerFailureDomain domain => exact sameOwners_register _ _ clk domain i
  case removeFailureDomain id expected => exact sameOwners_unregister _ _ _ clk id expected i
  case registerResource | updateResource | removeResource => simp [writesOwner] at h
  case registerDependency edge =>
    show SameOwners _ (registerDependency clk edge i).impl.state.topology.resources
    unfold registerDependency
    split
    · exact .refl _
    · exact .refl _
  case removeDependency id expected =>
    show SameOwners _ (removeDependency clk id expected i).impl.state.topology.resources
    unfold removeDependency
    split
    · exact .refl _
    split
    · exact .refl _
    · exact .refl _
  case publishResourceEvidence id expected freshness sequence mechanism source =>
    exact sameOwners_publishResourceEvidence clk id expected freshness sequence mechanism source i
  case registerWorker worker boot endpoint sequence =>
    exact sameOwners_registerWorker clk worker boot endpoint sequence i
  case beginEpoch nowMs reason => exact SameOwners.mapVals _ fun _ => rfl
  case authorizeContainment id expected => exact sameOwners_authorizeContainment clk id expected i
  case recordActionResult result => exact sameOwners_recordActionResult clk result i
  case authorizeRelease request => exact sameOwners_authorizeRelease clk request i
  case authorityLost worker boot detail time => exact sameOwners_authorityLost clk worker boot detail time i
  all_goals
    rw [hframe.topology (by simp [Op.parts])]
    exact .refl _

/-! ## The two copies -/

/-- a registered incarnation with live authority -/
def LiveAt (w : WorkerRegistry) (key : WorkerKey) : Prop :=
  ∃ r, w.incarnations.find key = some r ∧ holdsLiveAuthority r.state = true

/-- what a live incarnation lists is what it owns -/
def Trusting (s : RuntimeSnapshot) : Prop :=
  ∀ key w, s.workers.incarnations.find key = some w → holdsLiveAuthority w.state = true →
    ∀ k, k ∈ w.liveAuthority ↔ Owns s.topology.resources key k

/-- a live incarnation has a boot -/
def Booted (s : RuntimeSnapshot) : Prop := ∀ key, LiveAt s.workers key → key.boot.valid = true

/-- the live incarnations of one registry are those of another, with the same lists -/
def SameLive (w w' : WorkerRegistry) : Prop :=
  ∀ key r', w'.incarnations.find key = some r' → holdsLiveAuthority r'.state = true →
    ∃ r, w.incarnations.find key = some r ∧ holdsLiveAuthority r.state = true ∧ r'.liveAuthority = r.liveAuthority

/-- the same lists against the same owners -/
theorem Trusting.same {s s' : RuntimeSnapshot} (h : Trusting s) (hb : Booted s) (hw : SameLive s.workers s'.workers)
    (ho : SameOwners s.topology.resources s'.topology.resources) : Trusting s' := by
  intro key w' hw' hlive' k
  obtain ⟨w, hfind, hlive, hlist⟩ := hw key w' hw' hlive'
  rw [hlist, h key w hfind hlive k]
  exact (ho key (hb key ⟨w, hfind, hlive⟩) k).symm

theorem Booted.same {s s' : RuntimeSnapshot} (h : Booted s) (hw : SameLive s.workers s'.workers) : Booted s' := by
  rintro key ⟨w', hw', hlive'⟩
  obtain ⟨w, hfind, hlive, -⟩ := hw key w' hw' hlive'
  exact h key ⟨w, hfind, hlive⟩

theorem SameLive.refl (w : WorkerRegistry) : SameLive w w := fun _ r h hlive => ⟨r, h, hlive, rfl⟩

theorem SameLive.of_eq {w w' : WorkerRegistry} (h : w' = w) : SameLive w w' := by
  rw [h]
  exact .refl w

/-- an incarnation stored without live authority -/
theorem SameLive.insert {w : WorkerRegistry} {key : WorkerKey} {r : WorkerRecord}
    (h : holdsLiveAuthority r.state = false) : SameLive w { w with incarnations := w.incarnations.insert key r } := by
  intro a r' hr' hlive
  change (w.incarnations.insert key r).find a = some r' at hr'
  rw [OrderedMap.find_insert] at hr'
  split_ifs at hr'
  · rw [← Option.some.inj hr', h] at hlive
    exact absurd hlive Bool.false_ne_true
  · exact ⟨r', hr', hlive, rfl⟩

theorem sameLive_retireWorker (clk : Clock) (worker : WorkerId) (boot : WorkerBootId) (reason : Text) (i : Impl) :
    SameLive i.state.workers (retireWorker clk worker boot reason i).impl.state.workers := by
  unfold retireWorker
  split
  · exact .refl _
  split
  · exact .refl _
  · exact .insert (by rfl)

theorem sameLive_authorityLost (clk : Clock) (worker : WorkerId) (boot : WorkerBootId) (detail : Text) (time : UInt64)
    (i : Impl) : SameLive i.state.workers (authorityLost clk worker boot detail time i).impl.state.workers := by
  unfold authorityLost
  split
  · exact .refl _
  split
  · exact .refl _
  · dsimp only
    generalize hs : lossSubject _ = subject
    by_cases hv : subject.valid = true
    · rw [if_neg (not_not.mpr hv)]
      have hedited : ∀ (f : ResourceRecord → Option ResourceRecord) ks (j : Impl),
          (editEach f ks j).1.state.workers = j.state.workers := by
        intro f ks j
        obtain ⟨g, h⟩ := editEach_frame f ks j
        rw [h]
        rfl
      show SameLive _ (editEach _ _ (i.withIncarnations _)).1.state.workers
      rw [hedited]
      exact .insert (by rfl)
    · rw [if_pos hv]
      exact .insert (by rfl)

theorem sameLive_beginEpoch (clk : Clock) (nowMs : UInt64) (reason : Text) (i : Impl) (w : WorkerRegistry) :
    SameLive w (beginEpoch clk nowMs reason i).impl.state.workers := by
  intro key r' hr' hlive
  change (i.state.workers.incarnations.mapVals fun _ w => suspend w).find key = some r' at hr'
  rw [OrderedMap.find_mapVals] at hr'
  obtain ⟨r, -, rfl⟩ := Option.map_eq_some_iff.mp hr'
  unfold suspend at hlive
  split_ifs at hlive with h
  · exact absurd hlive Bool.false_ne_true
  · exact absurd hlive h

/-! ## One operation -/

/-- a registration readmits a suspended incarnation -/
structure Reattaches (worker : WorkerId) (boot : WorkerBootId) (endpoint : Text) (i : Impl) (w : WorkerRecord) : Prop where
  ids : worker.valid = true ∧ boot.valid = true
  room : i.state.workers.incarnations.size < i.config.maxWorkers
  known : i.state.workers.incarnations.find ⟨worker, boot⟩ = some w
  registered : w.registeredEpoch.valid = true
  endpoint : w.endpoint = endpoint
  suspended : w.state = .suspect ∧ w.registeredEpoch ≠ i.state.epoch

/-- the operation keeps the lists of live incarnations in step with the owners -/
def Trusts : Op → Impl → Prop
  | .updateResource record expected, i => ∀ previous, admitResource "resource.update" record.id expected i = .ok previous →
    owner record = owner previous ∨
      (¬ LiveAt i.state.workers (owner previous) ∧ ¬ LiveAt i.state.workers (owner record))
  | .removeResource id expected, i => ∀ removed, admitResource "resource.remove" id expected i = .ok removed →
    heldBy i.state.containments id = false → ¬ LiveAt i.state.workers (owner removed)
  | .registerWorker worker boot endpoint _, i => ∀ w, Reattaches worker boot endpoint i w →
    ∀ k, k ∈ w.liveAuthority ↔ Owns i.state.topology.resources ⟨worker, boot⟩ k
  | _, _ => True

/-- the owners of every other resource -/
theorem owns_insert_iff {m : Resources} {id k : ResourceId} {r : ResourceRecord} {key : WorkerKey} :
    Owns (m.insert id r) key k ↔ if id = k then owner r = key else Owns m key k := by
  unfold Owns
  rw [OrderedMap.find_insert]
  split_ifs
  · simp
  · exact Iff.rfl

theorem owns_erase_iff {m : Resources} {id k : ResourceId} {key : WorkerKey} :
    Owns (m.erase id) key k ↔ id ≠ k ∧ Owns m key k := by
  unfold Owns
  rw [OrderedMap.find_erase]
  split_ifs with h
  · simp [h]
  · simp [h]

theorem trusting_registerResource (clk : Clock) (record : ResourceRecord) {i : Impl} (h : Trusting i.state)
    (hb : Booted i.state) :
    Trusting (registerResource clk record i).impl.state ∧ Booted (registerResource clk record i).impl.state := by
  cases hadmitted : admitRegisterResource record i with
  | error e =>
    unfold registerResource
    rw [hadmitted]
    exact ⟨h, hb⟩
  | ok u =>
    have hnew : i.state.topology.resources.find record.id = none := by
      unfold admitRegisterResource at hadmitted
      dsimp only at hadmitted
      split_ifs at hadmitted with _ _ hhas
      exact (OrderedMap.has_eq_false _ _).mp (Bool.eq_false_iff.mpr hhas)
    obtain ⟨stored, howner, hresources⟩ : ∃ stored, owner stored = owner record ∧
        (registerResource clk record i).impl.state.topology.resources =
          i.state.topology.resources.insert record.id stored := by
      refine ⟨{ record with generation := nextGeneration record.generation, updatedAtMs := clk 0 }, rfl, ?_⟩
      unfold registerResource
      rw [hadmitted]
      dsimp only [commit_topology]
      simp only [edit_resources, Impl.withResources_resources]
      rw [← OrderedMap.emplace_new _ _ hnew]
      split <;> rfl
    have hworkers : (registerResource clk record i).impl.state.workers.incarnations =
        if record.ownerBoot.valid then i.state.workers.incarnations.update (owner record) fun w =>
          { w with liveAuthority := idSetInsert w.liveAuthority record.id }
        else i.state.workers.incarnations := by
      unfold registerResource
      rw [hadmitted]
      by_cases hboot : record.ownerBoot.valid = true
      · simp only [if_pos hboot]
        rfl
      · simp only [if_neg hboot]
        rfl
    -- an incarnation afterwards, and its list
    have hlist : ∀ key w', (registerResource clk record i).impl.state.workers.incarnations.find key = some w' →
        ∃ w, i.state.workers.incarnations.find key = some w ∧ w'.state = w.state ∧
          ∀ k, k ∈ w'.liveAuthority ↔
            (k = record.id ∧ owner record = key ∧ record.ownerBoot.valid = true) ∨ k ∈ w.liveAuthority := by
      intro key w' hw'
      rw [hworkers] at hw'
      by_cases hboot : record.ownerBoot.valid = true
      · rw [if_pos hboot, OrderedMap.find_update] at hw'
        split_ifs at hw' with hkey
        · obtain ⟨w, hw, rfl⟩ := Option.map_eq_some_iff.mp hw'
          exact ⟨w, hw, rfl, fun k => by simp [hkey, hboot]⟩
        · exact ⟨w', hw', rfl, fun k => by simp [hkey]⟩
      · rw [if_neg hboot] at hw'
        exact ⟨w', hw', rfl, fun k => by simp [hboot]⟩
    refine ⟨fun key w' hw' hlive' k => ?_, ?_⟩
    · obtain ⟨w, hw, hstate, hmem⟩ := hlist key w' hw'
      have hlive : holdsLiveAuthority w.state = true := hstate ▸ hlive'
      have hvalid : key.boot.valid = true := hb key ⟨w, hw, hlive⟩
      rw [hmem, hresources, owns_insert_iff, howner, h key w hw hlive]
      split_ifs with hk
      · subst hk
        have hfree : ¬ Owns i.state.topology.resources key record.id := by
          rintro ⟨r, hr, -⟩
          simp [hnew] at hr
        have hboot : owner record = key → record.ownerBoot.valid = true := by
          rintro rfl
          exact hvalid
        tauto
      · simp [Ne.symm hk]
    · rintro key ⟨w', hw', hlive'⟩
      obtain ⟨w, hw, hstate, -⟩ := hlist key w' hw'
      exact hb key ⟨w, hw, hstate ▸ hlive'⟩

theorem trusting_updateResource_iff (clk : Clock) (record : ResourceRecord) (expected : ResourceGeneration) {i : Impl}
    (h : Trusting i.state) :
    Trusting (updateResource clk record expected i).impl.state ↔ Trusts (.updateResource record expected) i := by
  unfold Trusts
  cases hadmitted : admitResource "resource.update" record.id expected i with
  | error e =>
    refine iff_of_true ?_ fun previous hp => absurd (hadmitted.symm.trans hp) (by simp)
    unfold updateResource
    rw [hadmitted]
    exact h
  | ok previous =>
    have hprevious := admitResource_ok hadmitted
    obtain ⟨stored, howner, hresources⟩ : ∃ stored, owner stored = owner record ∧
        (updateResource clk record expected i).impl.state.topology.resources =
          i.state.topology.resources.insert record.id stored := by
      refine ⟨{ record with generation := nextGeneration record.generation, updatedAtMs := clk 0 }, rfl, ?_⟩
      unfold updateResource
      rw [hadmitted]
      dsimp only [commit_topology]
      simp only [edit_resources, Impl.withResources_resources]
      rfl
    have hworkers : (updateResource clk record expected i).impl.state.workers = i.state.workers :=
      (frame_updateResource clk record expected i).workers (by simp)
    have howns : ∀ key k, Owns i.state.topology.resources key k ↔
        if record.id = k then owner previous = key else Owns i.state.topology.resources key k := by
      intro key k
      split_ifs with hk
      · subst hk
        unfold Owns
        simp [hprevious]
      · exact Iff.rfl
    have hmoved : Trusting (updateResource clk record expected i).impl.state ↔
        ∀ key, LiveAt i.state.workers key → (owner previous = key ↔ owner record = key) := by
      unfold Trusting
      rw [hworkers, hresources]
      constructor
      · rintro hafter key ⟨w, hw, hlive⟩
        have hbefore := h key w hw hlive record.id
        have hnow := hafter key w hw hlive record.id
        rw [howns, if_pos rfl] at hbefore
        rw [owns_insert_iff, if_pos rfl, howner] at hnow
        exact hbefore.symm.trans hnow
      · intro hsame key w hw hlive k
        rw [h key w hw hlive, howns, owns_insert_iff, howner]
        split_ifs
        · exact hsame key ⟨w, hw, hlive⟩
        · exact Iff.rfl
    rw [hmoved]
    constructor
    · intro hsame p hp
      obtain rfl := Except.ok.inj (hadmitted.symm.trans hp)
      by_cases heq : owner record = owner previous
      · exact .inl heq
      · refine .inr ⟨fun hlive => heq ?_, fun hlive => heq ?_⟩
        · exact (hsame _ hlive).mp rfl
        · exact ((hsame _ hlive).mpr rfl).symm
    · intro htrusts key hlive
      rcases htrusts previous hadmitted with heq | ⟨hp, hr⟩
      · rw [heq]
      · refine iff_of_false ?_ ?_
        · rintro rfl
          exact hp hlive
        · rintro rfl
          exact hr hlive

theorem trusting_removeResource_iff (clk : Clock) (id : ResourceId) (expected : ResourceGeneration) {i : Impl}
    (h : Trusting i.state) :
    Trusting (removeResource clk id expected i).impl.state ↔ Trusts (.removeResource id expected) i := by
  unfold Trusts
  cases hadmitted : admitResource "resource.remove" id expected i with
  | error e =>
    refine iff_of_true ?_ fun removed hr => absurd (hadmitted.symm.trans hr) (by simp)
    unfold removeResource
    rw [hadmitted]
    exact h
  | ok removed =>
    have hremoved := admitResource_ok hadmitted
    by_cases hheld : heldBy i.state.containments id = true
    · refine iff_of_true ?_ fun r _ hfree => absurd hheld (by simp [hfree])
      unfold removeResource
      rw [hadmitted]
      dsimp only
      rw [if_pos hheld]
      exact h
    · have hresources : (removeResource clk id expected i).impl.state.topology.resources =
          i.state.topology.resources.erase id := by
        unfold removeResource
        rw [hadmitted]
        dsimp only
        rw [if_neg hheld]
        dsimp only [commit_topology, Impl.advanceTopology_topology]
        simp only [edit_resources, Impl.withResources_resources, Impl.withDependencies_resources]
      have hworkers : (removeResource clk id expected i).impl.state.workers = i.state.workers :=
        (frame_removeResource clk id expected i).workers (by simp)
      unfold Trusting
      rw [hworkers, hresources]
      constructor
      · rintro hafter r hr - ⟨w, hw, hlive⟩
        obtain rfl := Except.ok.inj (hadmitted.symm.trans hr)
        have hlisted : id ∈ w.liveAuthority := (h _ w hw hlive id).mpr ⟨removed, hremoved, rfl⟩
        exact (owns_erase_iff.mp ((hafter _ w hw hlive id).mp hlisted)).1 rfl
      · intro htrusts key w hw hlive k
        have hdead := htrusts removed hadmitted (by simpa using hheld)
        rw [h key w hw hlive, owns_erase_iff]
        refine ⟨fun howns => ⟨?_, howns⟩, fun hk => hk.2⟩
        rintro rfl
        obtain ⟨r, hr, rfl⟩ := howns
        obtain rfl := Option.some.inj (hremoved.symm.trans hr)
        exact hdead ⟨w, hw, hlive⟩

/-- an incarnation stored with live authority -/
theorem trusting_insert_iff {s s' : RuntimeSnapshot} {key : WorkerKey} {r : WorkerRecord} (h : Trusting s)
    (hlive : holdsLiveAuthority r.state = true) (hw : s'.workers.incarnations = s.workers.incarnations.insert key r)
    (hr : s'.topology.resources = s.topology.resources) :
    Trusting s' ↔ ∀ k, k ∈ r.liveAuthority ↔ Owns s.topology.resources key k := by
  unfold Trusting
  rw [hw, hr]
  constructor
  · intro hafter
    exact hafter key r (OrderedMap.find_insert_self _ _ _) hlive
  · intro hlist a w hfind ha
    rw [OrderedMap.find_insert] at hfind
    split_ifs at hfind with hkey
    · rw [← Option.some.inj hfind, ← hkey]
      exact hlist
    · exact h a w hfind ha

theorem booted_insert {s s' : RuntimeSnapshot} {key : WorkerKey} {r : WorkerRecord} (h : Booted s)
    (hboot : key.boot.valid = true) (hw : s'.workers.incarnations = s.workers.incarnations.insert key r) : Booted s' := by
  rintro a ⟨w, hfind, hlive⟩
  rw [hw, OrderedMap.find_insert] at hfind
  split_ifs at hfind with hkey
  · rw [← hkey]
    exact hboot
  · exact h a ⟨w, hfind, hlive⟩

theorem mem_boundResources (worker : WorkerId) (boot : WorkerBootId) (m : Resources) (k : ResourceId) :
    k ∈ boundResources worker boot m ↔ Owns m ⟨worker, boot⟩ k := by
  unfold boundResources Owns owner
  rw [mem_idSetOf, List.mem_map]
  constructor
  · rintro ⟨e, he, rfl⟩
    obtain ⟨hmem, howner⟩ := List.mem_filter.mp he
    simp only [Bool.and_eq_true, decide_eq_true_eq] at howner
    exact ⟨e.2, (OrderedMap.mem_toList m e.1 e.2).mp hmem, by rw [howner.1, howner.2]⟩
  · rintro ⟨r, hr, howner⟩
    refine ⟨(k, r), List.mem_filter.mpr ⟨(OrderedMap.mem_toList m k r).mpr hr, ?_⟩, rfl⟩
    rw [WorkerKey.mk.injEq] at howner
    simp [howner.1, howner.2]

theorem sameLive_revokePrevious (clk : Clock) (worker : WorkerId) (boot : WorkerBootId) (i : Impl) :
    SameLive i.state.workers (revokePrevious clk worker boot i).1.state.workers := by
  unfold revokePrevious
  split
  · exact .refl _
  split
  · exact .refl _
  split
  · exact .refl _
  · exact .insert (by rfl)

theorem sameOwners_revokePrevious (clk : Clock) (worker : WorkerId) (boot : WorkerBootId) (i : Impl) :
    SameOwners i.state.topology.resources (revokePrevious clk worker boot i).1.state.topology.resources := by
  unfold revokePrevious
  split
  · exact .refl _
  split
  · exact .refl _
  split
  · exact .refl _
  · refine SameOwners.updateAll _ _ fun r => ?_
    rfl

/-- the incarnation a registration stores -/
theorem registerFresh_writes (clk : Clock) (worker : WorkerId) (boot : WorkerBootId) (endpoint : Text)
    (sequence : EvidenceSequence) (i : Impl) : ∃ r,
    (registerFresh clk worker boot endpoint sequence i).impl.state.workers.incarnations =
      (revokePrevious clk worker boot i).1.state.workers.incarnations.insert ⟨worker, boot⟩ r ∧
    (registerFresh clk worker boot endpoint sequence i).impl.state.topology.resources =
      (revokePrevious clk worker boot i).1.state.topology.resources ∧
    holdsLiveAuthority r.state = true ∧
    r.liveAuthority = boundResources worker boot (revokePrevious clk worker boot i).1.state.topology.resources :=
  ⟨_, rfl, rfl, rfl, rfl⟩

/-- a fresh boot lists what it owns -/
theorem trusting_registerFresh (clk : Clock) (worker : WorkerId) {boot : WorkerBootId} (endpoint : Text)
    (sequence : EvidenceSequence) {i : Impl} (hboot : boot.valid = true) (h : Trusting i.state) (hb : Booted i.state) :
    Trusting (registerFresh clk worker boot endpoint sequence i).impl.state ∧
      Booted (registerFresh clk worker boot endpoint sequence i).impl.state := by
  have hlive := sameLive_revokePrevious clk worker boot i
  have htrusting := h.same hb hlive (sameOwners_revokePrevious clk worker boot i)
  have hbooted := hb.same hlive
  obtain ⟨r, hincarnations, hresources, hstate, hlist⟩ := registerFresh_writes clk worker boot endpoint sequence i
  refine ⟨(trusting_insert_iff htrusting hstate hincarnations hresources).mpr fun k => ?_,
    booted_insert hbooted hboot hincarnations⟩
  rw [hlist]
  exact mem_boundResources worker boot _ k

/-- an incarnation taken off the registry -/
theorem SameLive.erase (w : WorkerRegistry) (key : WorkerKey) :
    SameLive w { w with incarnations := w.incarnations.erase key } := by
  intro a r' hr' hlive
  change (w.incarnations.erase key).find a = some r' at hr'
  rw [OrderedMap.find_erase] at hr'
  split_ifs at hr'
  exact ⟨r', hr', hlive, rfl⟩

theorem trusting_registerWorker_iff (clk : Clock) (worker : WorkerId) (boot : WorkerBootId) (endpoint : Text)
    (sequence : EvidenceSequence) {i : Impl} (h : Trusting i.state) (hb : Booted i.state) :
    (Trusting (registerWorker clk worker boot endpoint sequence i).impl.state ↔
      Trusts (.registerWorker worker boot endpoint sequence) i) ∧
      Booted (registerWorker clk worker boot endpoint sequence i).impl.state := by
  unfold Trusts
  unfold registerWorker
  by_cases hids : ¬ worker.valid ∨ ¬ boot.valid
  · rw [if_pos hids]
    refine ⟨iff_of_true h fun w hw => ?_, hb⟩
    rcases hids with hbad | hbad
    · exact absurd hw.ids.1 hbad
    · exact absurd hw.ids.2 hbad
  rw [if_neg hids]
  rw [not_or, not_not, not_not] at hids
  by_cases hroom : i.config.maxWorkers ≤ i.state.workers.incarnations.size
  · rw [if_pos hroom]
    exact ⟨iff_of_true h fun w hw => absurd hw.room (Nat.not_lt.mpr hroom), hb⟩
  rw [if_neg hroom]
  cases hfind : i.state.workers.incarnations.find ⟨worker, boot⟩ with
  | none =>
    obtain ⟨htrusting, hbooted⟩ := trusting_registerFresh clk worker endpoint sequence hids.2 h hb
    exact ⟨iff_of_true htrusting fun w hw => absurd (hfind.symm.trans hw.known) (by simp), hbooted⟩
  | some existing =>
    have hsame : ∀ w, Reattaches worker boot endpoint i w → w = existing :=
      fun w hw => Option.some.inj (hw.known.symm.trans hfind)
    dsimp only
    by_cases hregistered : existing.registeredEpoch.valid
    swap
    · rw [if_pos hregistered]
      have herased := SameLive.erase i.state.workers ⟨worker, boot⟩
      obtain ⟨htrusting, hbooted⟩ := trusting_registerFresh clk worker endpoint sequence hids.2
        (i := i.withIncarnations (i.state.workers.incarnations.erase ⟨worker, boot⟩))
        (h.same hb herased (.refl _)) (hb.same herased)
      exact ⟨iff_of_true htrusting fun w hw => absurd (hsame w hw ▸ hw.registered) hregistered, hbooted⟩
    rw [if_neg (not_not.mpr hregistered)]
    by_cases hendpoint : existing.endpoint ≠ endpoint
    · rw [if_pos hendpoint]
      exact ⟨iff_of_true h fun w hw => absurd (hsame w hw ▸ hw.endpoint) hendpoint, hb⟩
    rw [if_neg hendpoint]
    by_cases hsuspended : existing.state = .suspect ∧ existing.registeredEpoch ≠ i.state.epoch
    swap
    · rw [if_neg hsuspended]
      exact ⟨iff_of_true h fun w hw => absurd (hsame w hw ▸ hw.suspended) hsuspended, hb⟩
    rw [if_pos hsuspended]
    have hreattaches : Reattaches worker boot endpoint i existing :=
      ⟨hids, Nat.lt_of_not_le hroom, hfind, hregistered, not_not.mp hendpoint, hsuspended⟩
    obtain ⟨r, hincarnations, hresources, hstate, hlisted⟩ : ∃ r,
        (reattach clk ⟨worker, boot⟩ existing i).impl.state.workers.incarnations =
          i.state.workers.incarnations.insert ⟨worker, boot⟩ r ∧
        (reattach clk ⟨worker, boot⟩ existing i).impl.state.topology.resources = i.state.topology.resources ∧
        holdsLiveAuthority r.state = true ∧ r.liveAuthority = existing.liveAuthority := ⟨_, rfl, rfl, rfl, rfl⟩
    rw [trusting_insert_iff h hstate hincarnations hresources, hlisted]
    refine ⟨⟨fun hlist w hw => ?_, fun hlist => hlist existing hreattaches⟩, booted_insert hb hids.2 hincarnations⟩
    rw [hsame w hw]
    exact hlist

/-- **Step.** When the copies agree for live incarnations, an operation keeps them in agreement exactly when it meets its
condition. -/
theorem trusting_after_iff (c : Call) {i : Impl} (h : Trusting i.state) (hb : Booted i.state) :
    (Trusting (c.after i).state ↔ Trusts c.op i) ∧ Booted (c.after i).state := by
  have hframe := frame_run c i
  have howners := sameOwners_after c i
  obtain ⟨clk, op⟩ := c
  cases op
  case registerResource record =>
    obtain ⟨htrusting, hbooted⟩ := trusting_registerResource clk record h hb
    exact ⟨iff_of_true htrusting trivial, hbooted⟩
  case updateResource record expected =>
    refine ⟨trusting_updateResource_iff clk record expected h, hb.same ?_⟩
    exact .of_eq (hframe.workers (by simp [Op.parts, topologyParts]))
  case removeResource id expected =>
    refine ⟨trusting_removeResource_iff clk id expected h, hb.same ?_⟩
    exact .of_eq (hframe.workers (by simp [Op.parts, topologyParts]))
  case registerWorker worker boot endpoint sequence =>
    exact trusting_registerWorker_iff clk worker boot endpoint sequence h hb
  case retireWorker worker boot reason =>
    have hlive := sameLive_retireWorker clk worker boot reason i
    exact ⟨iff_of_true (h.same hb hlive (howners rfl)) trivial, hb.same hlive⟩
  case authorityLost worker boot detail time =>
    have hlive := sameLive_authorityLost clk worker boot detail time i
    exact ⟨iff_of_true (h.same hb hlive (howners rfl)) trivial, hb.same hlive⟩
  case beginEpoch nowMs reason =>
    have hlive := sameLive_beginEpoch clk nowMs reason i i.state.workers
    exact ⟨iff_of_true (h.same hb hlive (howners rfl)) trivial, hb.same hlive⟩
  all_goals
    have hlive := SameLive.of_eq (hframe.workers (by simp [Op.parts, topologyParts, containmentParts, releaseParts]))
    exact ⟨iff_of_true (h.same hb hlive (howners rfl)) trivial, hb.same hlive⟩

/-! ## Fresh boots -/

/-- a successful registration makes a new boot of a worker current in place of an old one -/
structure Replaces (worker : WorkerId) (old boot : WorkerBootId) (c : Call) (i : Impl) : Prop where
  registers : ∃ endpoint sequence, c.op = .registerWorker worker boot endpoint sequence
  succeeds : c.succeeds i
  current : i.state.workers.currentBoot.find worker = some old
  changed : old ≠ boot
  replaced : (c.after i).state.workers.currentBoot.find worker = some boot

/-- nothing the replaced incarnation owns is still trusted -/
def Distrusts (c : Call) (i : Impl) : Prop :=
  ∀ worker old boot, Replaces worker old boot c i → ∀ k r, (c.after i).state.topology.resources.find k = some r →
    owner r = ⟨worker, old⟩ → r.freshness ≠ .fresh

/-- the registry has room for an incarnation it does not know yet, or knows as a placeholder only -/
structure Registers (worker : WorkerId) (boot : WorkerBootId) (i : Impl) : Prop where
  ids : worker.valid = true ∧ boot.valid = true
  room : i.state.workers.incarnations.size < i.config.maxWorkers
  unknown : ∀ w, i.state.workers.incarnations.find ⟨worker, boot⟩ = some w → w.registeredEpoch.valid = false

/-- the list of the incarnation about to be replaced names every trusted resource it owns -/
def Carries : Op → Impl → Prop
  | .registerWorker worker boot _ _, i => Registers worker boot i →
    ∀ old, i.state.workers.currentBoot.find worker = some old → old ≠ boot →
    ∀ k r, i.state.topology.resources.find k = some r → owner r = ⟨worker, old⟩ → r.freshness = .fresh →
      ∃ w, i.state.workers.incarnations.find ⟨worker, old⟩ = some w ∧ k ∈ w.liveAuthority
  | _, _ => True

/-- what becomes of the resources when another boot was current -/
theorem revokePrevious_find (clk : Clock) {worker : WorkerId} {old boot : WorkerBootId} {i : Impl}
    (hcurrent : i.state.workers.currentBoot.find worker = some old) (hne : old ≠ boot) (k : ResourceId) :
    (revokePrevious clk worker boot i).1.state.topology.resources.find k =
      if (∃ w, i.state.workers.incarnations.find ⟨worker, old⟩ = some w ∧ k ∈ w.liveAuthority) then
        (i.state.topology.resources.find k).map distrust
      else i.state.topology.resources.find k := by
  unfold revokePrevious
  rw [hcurrent]
  dsimp only
  rw [if_neg hne]
  cases hfind : i.state.workers.incarnations.find ⟨worker, old⟩ with
  | none => simp
  | some previous =>
    show (i.state.topology.resources.updateAll previous.liveAuthority distrust).find k = _
    rw [OrderedMap.find_updateAll _ _ _ fun r => (rfl : distrust (distrust r) = distrust r)]
    simp

/-- a registration either refuses, answers with what is current, or stores a fresh incarnation -/
theorem registerWorker_fresh (clk : Clock) {worker : WorkerId} {boot : WorkerBootId} (endpoint : Text)
    (sequence : EvidenceSequence) {i : Impl} (h : Registers worker boot i) :
    ∃ j, registerWorker clk worker boot endpoint sequence i = registerFresh clk worker boot endpoint sequence j ∧
      j.state.topology = i.state.topology ∧ j.state.workers.currentBoot = i.state.workers.currentBoot ∧
      ∀ key : WorkerKey, key ≠ ⟨worker, boot⟩ →
        j.state.workers.incarnations.find key = i.state.workers.incarnations.find key := by
  unfold registerWorker
  rw [if_neg (by simp [h.ids.1, h.ids.2]), if_neg (Nat.not_le.mpr h.room)]
  cases hfind : i.state.workers.incarnations.find ⟨worker, boot⟩ with
  | none => exact ⟨i, rfl, rfl, rfl, fun _ _ => rfl⟩
  | some existing =>
    refine ⟨i.withIncarnations (i.state.workers.incarnations.erase ⟨worker, boot⟩), ?_, rfl, rfl, fun key hkey => ?_⟩
    · dsimp only
      rw [if_pos (by simp [h.unknown existing hfind])]
    · show (i.state.workers.incarnations.erase ⟨worker, boot⟩).find key = _
      rw [OrderedMap.find_erase, if_neg (Ne.symm hkey)]

/-- any other registration leaves the current boot as it was, or fails -/
theorem registerWorker_current (clk : Clock) {worker : WorkerId} {boot : WorkerBootId} (endpoint : Text)
    (sequence : EvidenceSequence) {i : Impl} (h : ¬ Registers worker boot i) :
    (registerWorker clk worker boot endpoint sequence i).impl.state.workers.currentBoot =
      i.state.workers.currentBoot := by
  unfold registerWorker
  by_cases hids : ¬ worker.valid ∨ ¬ boot.valid
  · rw [if_pos hids]
    rfl
  rw [if_neg hids]
  by_cases hroom : i.config.maxWorkers ≤ i.state.workers.incarnations.size
  · rw [if_pos hroom]
    rfl
  rw [if_neg hroom]
  rw [not_or, not_not, not_not] at hids
  cases hfind : i.state.workers.incarnations.find ⟨worker, boot⟩ with
  | none => exact absurd ⟨hids, Nat.lt_of_not_le hroom, by simp [hfind]⟩ h
  | some existing =>
    dsimp only
    by_cases hregistered : existing.registeredEpoch.valid
    swap
    · refine absurd ⟨hids, Nat.lt_of_not_le hroom, fun w hw => ?_⟩ h
      rw [← Option.some.inj (hfind.symm.trans hw)]
      simpa using hregistered
    rw [if_neg (not_not.mpr hregistered)]
    split
    · rfl
    split
    · rfl
    · rfl

/-- **A fresh boot.** It leaves its predecessor no trusted resource exactly when the predecessor's list names all of them. -/
theorem distrusts_iff (c : Call) (i : Impl) : Distrusts c i ↔ Carries c.op i := by
  by_cases hop : ∃ worker boot endpoint sequence, c.op = .registerWorker worker boot endpoint sequence
  swap
  · refine iff_of_true (fun worker old boot h => ?_) ?_
    · obtain ⟨endpoint, sequence, hregisters⟩ := h.registers
      exact absurd ⟨worker, boot, endpoint, sequence, hregisters⟩ hop
    · unfold Carries
      split
      · next worker boot endpoint sequence heq => exact absurd ⟨worker, boot, endpoint, sequence, heq⟩ hop
      · trivial
  obtain ⟨worker, boot, endpoint, sequence, hop⟩ := hop
  have hafter : c.after i = (registerWorker c.clk worker boot endpoint sequence i).impl := by
    unfold Call.after
    rw [hop]
    rfl
  rw [hop]
  by_cases hregisters : Registers worker boot i
  swap
  · refine iff_of_true (fun worker' old boot' h => ?_) fun hr => absurd hr hregisters
    obtain ⟨endpoint', sequence', hop'⟩ := h.registers
    rw [hop] at hop'
    obtain ⟨rfl, rfl, -, -⟩ := Op.registerWorker.inj hop'
    have hreplaced := h.replaced
    rw [hafter, registerWorker_current c.clk endpoint sequence hregisters, h.current] at hreplaced
    exact absurd (Option.some.inj hreplaced) h.changed
  obtain ⟨j, hstep, htopology, hcurrentBoot, hothers⟩ := registerWorker_fresh c.clk endpoint sequence hregisters
  obtain ⟨stored, -, hresources, -, -⟩ := registerFresh_writes c.clk worker boot endpoint sequence j
  have hfind : ∀ old, i.state.workers.currentBoot.find worker = some old → old ≠ boot → ∀ k,
      (c.after i).state.topology.resources.find k =
        if (∃ w, i.state.workers.incarnations.find ⟨worker, old⟩ = some w ∧ k ∈ w.liveAuthority) then
          (i.state.topology.resources.find k).map distrust
        else i.state.topology.resources.find k := by
    intro old hcurrent hne k
    have hkey : (⟨worker, old⟩ : WorkerKey) ≠ ⟨worker, boot⟩ := fun h => hne (WorkerKey.mk.inj h).2
    rw [hafter, hstep, hresources, revokePrevious_find c.clk (hcurrentBoot ▸ hcurrent) hne, htopology, hothers _ hkey]
  constructor
  · intro hdistrusts _ old hcurrent hne k r hr howner hfresh
    by_contra hunlisted
    refine hdistrusts worker old boot ⟨⟨endpoint, sequence, hop⟩, ?_, hcurrent, hne, ?_⟩ k r ?_ howner hfresh
    · unfold Call.succeeds
      rw [hop]
      show ((registerWorker c.clk worker boot endpoint sequence i).result.map fun _ => ()) = .ok ()
      rw [hstep]
      rfl
    · rw [hafter, hstep]
      exact OrderedMap.find_insert_self _ _ _
    · rw [hfind old hcurrent hne, if_neg hunlisted]
      exact hr
  · intro hcarries worker' old boot' h k r hr howner hfresh
    obtain ⟨endpoint', sequence', hop'⟩ := h.registers
    rw [hop] at hop'
    obtain ⟨rfl, rfl, -, -⟩ := Op.registerWorker.inj hop'
    rw [hfind old h.current h.changed] at hr
    split_ifs at hr with hlisted
    · obtain ⟨r', -, rfl⟩ := Option.map_eq_some_iff.mp hr
      exact absurd hfresh (by simp [distrust])
    · exact hlisted (hcarries hregisters old h.current h.changed k r hr howner hfresh)

/-! ## Runs -/

/-- nothing is live when a run starts -/
theorem dead_start (start : Start) (hstart : start.succeeds) (key : WorkerKey) : ¬ LiveAt start.impl.state.workers key := by
  cases start with
  | fresh clk config =>
    rintro ⟨w, hw, -⟩
    have hnone : (construct clk config).state.workers.incarnations.find key = none := OrderedMap.find_empty key
    exact absurd (hnone.symm.trans hw) (by simp)
  | recovered clk io nowMs s =>
    obtain ⟨r, loaded, j, last, s', -, -, -, -, hfinal⟩ := recoverFromStore_ok hstart
    show ¬ LiveAt (recoverFromStore clk io nowMs s).1.impl.state.workers key
    rw [hfinal]
    refine perform_keeps (P := fun i => ¬ LiveAt i.state.workers key) (fun _ _ h => h) (fun _ _ _ h => h) ?_
    rintro ⟨w, hw, hlive⟩
    obtain ⟨w', hw', -⟩ := sameLive_beginEpoch (clk 1) nowMs
      (lit "coordinator restart; live authority requires revalidation") s'.impl {} key w hw hlive
    simp at hw'

/-- **Trust.** Along every run, from a new engine or after a recovery: the lists of live incarnations name what they own, and a
fresh boot inherits no trusted resource, exactly when every step meets its condition. -/
theorem trust_run_iff (start : Start) (hstart : start.succeeds) (calls : List Call) :
    (Runs.Always Call.after (fun i => Trusting i.state) calls start.impl ∧
      Runs.Along Call.after Distrusts calls start.impl) ↔
      Runs.Along Call.after (fun c i => Trusts c.op i ∧ Carries c.op i) calls start.impl := by
  have hdead := dead_start start hstart
  have hbooted : Booted start.impl.state := fun key hlive => absurd hlive (hdead key)
  have htrusting : Trusting start.impl.state := fun key w hw hlive => absurd ⟨w, hw, hlive⟩ (hdead key)
  rw [Runs.along_and, Runs.along_congr distrusts_iff]
  refine and_congr_left fun _ => ?_
  exact @Runs.always_iff _ _ Call.after (fun c i => Trusts c.op i) (fun i => Booted i.state) (fun i => Trusting i.state)
    (fun c _ hb h => (trusting_after_iff c h hb).2) (fun c _ hb h => (trusting_after_iff c h hb).1) _ _ hbooted htrusting

/-- a worker registers over its resource and retires; its next boot registers -/
def retired : List Call := [
  ⟨ticks, .registerResource { id := ⟨5⟩, ownerWorker := ⟨1⟩, ownerBoot := ⟨2⟩, freshness := .fresh }⟩,
  ⟨ticks, .registerWorker ⟨1⟩ ⟨2⟩ [] {}⟩,
  ⟨ticks, .retireWorker ⟨1⟩ ⟨2⟩ []⟩]

/-- a live worker is given a resource by an update -/
def adopted : List Call := [
  ⟨ticks, .registerWorker ⟨1⟩ ⟨2⟩ [] {}⟩,
  ⟨ticks, .registerResource { id := ⟨5⟩ }⟩,
  ⟨ticks, .updateResource { id := ⟨5⟩, ownerWorker := ⟨1⟩, ownerBoot := ⟨2⟩ } ⟨1⟩⟩]

theorem trust_run_iff_retired :
    (Runs.Always Call.after (fun i => Trusting i.state) retired (construct ticks {}) ∧
      Runs.Along Call.after Distrusts retired (construct ticks {})) ↔
      Runs.Along Call.after (fun c i => Trusts c.op i ∧ Carries c.op i) retired (construct ticks {}) :=
  trust_run_iff (.fresh ticks {}) trivial retired

/-- The next boot after a retirement leaves its predecessor a FRESH resource, and an update gives a live worker a resource it
does not list. -/
theorem trust_inherited :
    (¬ ∀ (start : Start) (calls : List Call), start.succeeds → Runs.Along Call.after Distrusts calls start.impl) ∧
      ¬ ∀ (start : Start) (calls : List Call), start.succeeds →
        Runs.Always Call.after (fun i => Trusting i.state) calls start.impl := by
  refine ⟨fun h => ?_, fun h => ?_⟩
  · have hlast := ((Runs.along_append _ Distrusts retired [⟨ticks, .registerWorker ⟨1⟩ ⟨3⟩ [] {}⟩] _).mp
      (h (.fresh ticks {}) (retired ++ [⟨ticks, .registerWorker ⟨1⟩ ⟨3⟩ [] {}⟩]) trivial)).2.1
    generalize hi : Runs.run Call.after retired (Start.impl (.fresh ticks {})) = i at hlast
    have hreplaces : Replaces ⟨1⟩ ⟨2⟩ ⟨3⟩ ⟨ticks, .registerWorker ⟨1⟩ ⟨3⟩ [] {}⟩ i := by
      refine ⟨⟨[], {}, rfl⟩, ?_, ?_, by decide, ?_⟩
      · rw [← hi]
        rfl
      · rw [← hi]
        decide +kernel
      · rw [← hi]
        decide +kernel
    have hkept : ((Call.after ⟨ticks, .registerWorker ⟨1⟩ ⟨3⟩ [] {}⟩ i).state.topology.resources.find ⟨5⟩).any
        (fun r => owner r = ⟨⟨1⟩, ⟨2⟩⟩ && r.freshness = .fresh) = true := by
      rw [← hi]
      decide +kernel
    cases hr : (Call.after ⟨ticks, .registerWorker ⟨1⟩ ⟨3⟩ [] {}⟩ i).state.topology.resources.find ⟨5⟩ with
    | none => simp [hr] at hkept
    | some r =>
      rw [hr, Option.any_some] at hkept
      simp only [Bool.and_eq_true, decide_eq_true_eq] at hkept
      exact hlast ⟨1⟩ ⟨2⟩ ⟨3⟩ hreplaces ⟨5⟩ r hr hkept.1 hkept.2
  · have hlast : Trusting (Runs.run Call.after adopted (construct ticks {})).state :=
      h (.fresh ticks {}) adopted trivial adopted [] (by simp)
    generalize hi : Runs.run Call.after adopted (construct ticks {}) = i at hlast
    have hworker : (i.state.workers.incarnations.find ⟨⟨1⟩, ⟨2⟩⟩).any
        (fun w => holdsLiveAuthority w.state && w.liveAuthority = []) = true := by
      rw [← hi]
      decide +kernel
    have hresource : (i.state.topology.resources.find ⟨5⟩).map owner = some ⟨⟨1⟩, ⟨2⟩⟩ := by
      rw [← hi]
      decide +kernel
    obtain ⟨r, hr, howner⟩ := Option.map_eq_some_iff.mp hresource
    cases hw : i.state.workers.incarnations.find ⟨⟨1⟩, ⟨2⟩⟩ with
    | none => simp [hw] at hworker
    | some w =>
      rw [hw, Option.any_some] at hworker
      simp only [Bool.and_eq_true, decide_eq_true_eq] at hworker
      have hlisted := (hlast ⟨⟨1⟩, ⟨2⟩⟩ w hw hworker.1 ⟨5⟩).mpr ⟨r, hr, howner⟩
      rw [hworker.2] at hlisted
      simp at hlisted

end FaultContainment.Ownership
