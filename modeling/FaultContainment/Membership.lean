/-
Membership and placement.

A domain lists its members and a resource names the domain of each kind it is placed in: one relation, stored twice. The
operations that edit it repair the two copies one after the other, and not always both: a conflict leaves earlier members
placed in a domain that does not exist, isolation and failure domains take members from the domain that lists them, a
resource registers without looking at the domains that declared it, and the lookup of a member that is not registered
invents a record for it.

`placed_after_iff`: when the copies agree, an operation keeps them in agreement exactly when it meets its condition.
-/
import Mathlib.Data.List.TakeWhile
import FaultContainment.Engine.Frame
import FaultContainment.Quarantine

namespace FaultContainment.Membership

open FaultContainment.Lib FaultContainment.Ids FaultContainment.Enums FaultContainment.Records
open FaultContainment.DurableEvent FaultContainment.Dependency FaultContainment.Engine
open FaultContainment.Engine.Grouping (Resources)
open FaultContainment.Quarantine (admitUpdateDomain_ok admitResource_ok admitEvidence_ok unplaced_displace unplaced_fields
  unregistered updateDropped DropsRegistered)

/-! ## One kind of domain -/

section Kind

variable {t : IdTag} {D : Type} (g : Grouping t D)

/-- an existing domain lists a resource -/
def Lists (ds : OrderedMap (Id t) D) (id : Id t) (k : ResourceId) : Prop := ∃ d, ds.find id = some d ∧ k ∈ g.members d

/-- a registered resource is placed in a domain exactly when the domain exists and lists it -/
def Agree (m : Resources) (ds : OrderedMap (Id t) D) : Prop :=
  ∀ k r, m.find k = some r → ∀ id : Id t, id.valid = true → (g.placement r = id ↔ Lists g ds id k)

/-- domains have valid identities -/
def Named (ds : OrderedMap (Id t) D) : Prop := ∀ id d, ds.find id = some d → id.valid = true

variable {g} {m : Resources} {ds : OrderedMap (Id t) D}

theorem Lists.has {id : Id t} {k : ResourceId} (h : Lists g ds id k) : ds.has id = true := by
  obtain ⟨d, hd, -⟩ := h
  exact (OrderedMap.has_iff ds id).mpr ⟨d, hd⟩

/-- at most one domain of the kind lists a registered resource -/
theorem Agree.single (h : Agree g m ds) (hn : Named ds) {k : ResourceId} (hk : m.has k = true) {id id' : Id t}
    (hl : Lists g ds id k) (hl' : Lists g ds id' k) : id = id' := by
  obtain ⟨r, hr⟩ := (OrderedMap.has_iff m k).mp hk
  have hvalid : ∀ {a}, Lists g ds a k → a.valid = true := fun ⟨d, hd, _⟩ => hn _ d hd
  rw [← (h k r hr id (hvalid hl)).mpr hl, ← (h k r hr id' (hvalid hl')).mpr hl']

theorem Lists.insert_iff {id a : Id t} {d : D} {k : ResourceId} :
    Lists g (ds.insert id d) a k ↔ if id = a then k ∈ g.members d else Lists g ds a k := by
  unfold Lists
  rw [OrderedMap.find_insert]
  split_ifs with ha
  · simp
  · rfl

theorem Lists.erase_iff {id a : Id t} {k : ResourceId} : Lists g (ds.erase id) a k ↔ id ≠ a ∧ Lists g ds a k := by
  unfold Lists
  rw [OrderedMap.find_erase]
  split_ifs with ha
  · simp [ha]
  · simp [ha]

theorem Lists.update_iff {id a : Id t} {f : D → D} {k : ResourceId} :
    Lists g (ds.update id f) a k ↔ if id = a then ∃ d, ds.find a = some d ∧ k ∈ g.members (f d) else Lists g ds a k := by
  unfold Lists
  rw [OrderedMap.find_update]
  split_ifs with ha
  · subst ha
    cases ds.find id with
    | none => simp
    | some d => simp
  · rfl

/-- a resource joins the members of a domain -/
theorem Lists.enlist_iff {id a : Id t} {r k : ResourceId} :
    Lists g (ds.update id (g.enlist r)) a k ↔ Lists g ds a k ∨ (id = a ∧ k = r ∧ ds.has id = true) := by
  rw [Lists.update_iff]
  split_ifs with ha
  · subst ha
    simp only [Grouping.enlist, g.members_setMembers, mem_idSetInsert, OrderedMap.has_iff, true_and]
    constructor
    · rintro ⟨d, hd, rfl | hk⟩
      · exact .inr ⟨rfl, d, hd⟩
      · exact .inl ⟨d, hd, hk⟩
    · rintro (⟨d, hd, hk⟩ | ⟨rfl, d, hd⟩)
      · exact ⟨d, hd, .inr hk⟩
      · exact ⟨d, hd, .inl rfl⟩
  · simp [ha]

/-- other resources stay on the list of a domain that a resource leaves -/
theorem Lists.delist_ne_iff {id a : Id t} {r k : ResourceId} (h : k ≠ r) :
    Lists g (ds.update id (g.delist r)) a k ↔ Lists g ds a k := by
  rw [Lists.update_iff]
  split_ifs with ha
  · subst ha
    simp only [Lists, Grouping.delist, g.members_setMembers, mem_idSetErase_ne h]
  · rfl

theorem Named.update {id : Id t} {f : D → D} (h : Named ds) : Named (ds.update id f) := by
  intro a d hd
  have hhas : (ds.update id f).has a = true := (OrderedMap.has_iff _ _).mpr ⟨d, hd⟩
  rw [OrderedMap.has_update] at hhas
  obtain ⟨d', hd'⟩ := (OrderedMap.has_iff _ _).mp hhas
  exact h a d' hd'

theorem Named.insert {id : Id t} {d : D} (h : Named ds) (hid : id.valid = true) : Named (ds.insert id d) := by
  intro a d' hd'
  rw [OrderedMap.find_insert] at hd'
  split_ifs at hd' with ha
  · exact ha ▸ hid
  · exact h a d' hd'

theorem Named.erase {id : Id t} (h : Named ds) : Named (ds.erase id) := by
  intro a d hd
  rw [OrderedMap.find_erase] at hd
  split_ifs at hd
  exact h a d hd

theorem Named.join [Inhabited D] {id : Id t} {k : ResourceId} (h : Named ds)
    (hexists : id.valid = true → ds.has id = true) :
    Named (g.join id k ds) := by
  unfold Grouping.join
  split_ifs with hv
  · rw [OrderedMap.subscript_eq_update _ _ (hexists hv)]
    exact h.update
  · exact h

theorem Named.move {old new : Id t} {k : ResourceId} (h : Named ds) : Named (g.moveMembership old new k ds) := by
  have hleft : Named (if old.valid ∧ old ≠ new then ds.update old (g.delist k) else ds) := by
    split_ifs
    · exact h.update
    · exact h
  unfold Grouping.moveMembership
  dsimp only
  by_cases hv : new.valid = true
  · rw [if_pos hv]
    exact hleft.update
  · rw [if_neg hv]
    exact hleft

theorem Named.leave {id : Id t} {k : ResourceId} (h : Named ds) : Named (g.leave id k ds) := by
  unfold Grouping.leave
  split_ifs
  · exact h.update
  · exact h

/-- an erased resource leaves the domain it names; the other members stay -/
theorem Agree.leave {k : ResourceId} (h : Agree g m ds) (id : Id t) : Agree g (m.erase k) (g.leave id k ds) := by
  intro b r hr a ha
  rw [OrderedMap.find_erase] at hr
  split_ifs at hr with hb
  rw [h b r hr a ha]
  unfold Grouping.leave
  split_ifs
  · exact (Lists.delist_ne_iff (Ne.symm hb)).symm
  · exact Iff.rfl

end Kind

/-! ## The three kinds together -/

/-- what a record says about which resource it is and where -/
def places (r : ResourceRecord) : ResourceId × ContainmentDomainId × IsolationDomainId × FailureDomainId :=
  (r.id, r.containmentDomain, r.isolationDomain, r.failureDomain)

/-- the same resources in the same places -/
def SamePlaces (m m' : Resources) : Prop := ∀ k, (m'.find k).map places = (m.find k).map places

namespace SamePlaces

variable {m m' m'' : Resources}

theorem refl (m : Resources) : SamePlaces m m := fun _ => rfl

theorem trans (h : SamePlaces m m') (h' : SamePlaces m' m'') : SamePlaces m m'' := fun k => (h' k).trans (h k)

theorem symm (h : SamePlaces m m') : SamePlaces m' m := fun k => (h k).symm

theorem insert {k : ResourceId} {r r' : ResourceRecord} (hr : m.find k = some r) (h : places r' = places r) :
    SamePlaces m (m.insert k r') := by
  intro a
  rw [OrderedMap.find_insert]
  split_ifs with ha
  · rw [← ha, hr, Option.map_some, Option.map_some, h]
  · rfl

theorem update (m : Resources) (k : ResourceId) {f : ResourceRecord → ResourceRecord}
    (hf : ∀ r, places (f r) = places r) : SamePlaces m (m.update k f) := by
  intro a
  rw [OrderedMap.find_update]
  split_ifs
  · rw [Option.map_map]
    congr 1
    exact funext hf
  · rfl

theorem updateAll (m : Resources) (ks : List ResourceId) {f : ResourceRecord → ResourceRecord}
    (hf : ∀ r, places (f r) = places r) : SamePlaces m (m.updateAll ks f) := by
  induction ks generalizing m with
  | nil => exact refl m
  | cons k ks ih => exact (update m k hf).trans (ih _)

theorem mapVals (m : Resources) {f : ResourceRecord → ResourceRecord} (hf : ∀ r, places (f r) = places r) :
    SamePlaces m (m.mapVals fun _ r => f r) := by
  intro a
  rw [OrderedMap.find_mapVals, Option.map_map]
  congr 1
  exact funext hf

theorem editMap (m : Resources) (ks : List ResourceId) {f : ResourceRecord → Option ResourceRecord}
    (hf : ∀ r r', f r = some r' → places r' = places r) : SamePlaces m (editMap f ks m) := by
  induction ks generalizing m with
  | nil => exact refl m
  | cons k ks ih =>
    rw [editMap_cons]
    split
    · exact ih m
    · next r' hr =>
      obtain ⟨r, hfind, hfr⟩ := Option.bind_eq_some_iff.mp hr
      exact (insert hfind (hf r r' hfr)).trans (ih _)

/-- a record of the second map is a record of the first -/
theorem find (h : SamePlaces m m') {k : ResourceId} {r' : ResourceRecord} (hr : m'.find k = some r') :
    ∃ r, m.find k = some r ∧ places r' = places r := by
  have hk := h k
  rw [hr, Option.map_some] at hk
  obtain ⟨r, hm, hp⟩ := Option.map_eq_some_iff.mp hk.symm
  exact ⟨r, hm, hp.symm⟩

end SamePlaces

/-- each record comes from one under the same key, with the same value of `p` -/
def Follow {α : Type} (p : ResourceRecord → α) (m m' : Resources) : Prop :=
  ∀ k r', m'.find k = some r' → ∃ r, m.find k = some r ∧ p r' = p r

theorem Follow.updateAll {α : Type} {p : ResourceRecord → α} (m : Resources) (ks : List ResourceId)
    {f : ResourceRecord → ResourceRecord} (hf : ∀ r, p (f r) = p r) : Follow p m (m.updateAll ks f) := by
  induction ks generalizing m with
  | nil => exact fun k r' hr' => ⟨r', hr', rfl⟩
  | cons a ks ih =>
    intro k r' hr'
    obtain ⟨r, hr, hp⟩ := ih (m.update a f) k r' hr'
    rw [OrderedMap.find_update] at hr
    split_ifs at hr
    · obtain ⟨r0, hr0, rfl⟩ := Option.map_eq_some_iff.mp hr
      exact ⟨r0, hr0, hp.trans (hf r0)⟩
    · exact ⟨r, hr, hp⟩

theorem SamePlaces.follow {α : Type} {p : ResourceRecord → α} {m m' : Resources} (h : SamePlaces m m')
    (hp : ∀ r r', places r' = places r → p r' = p r) : Follow p m m' := by
  intro k r' hr'
  obtain ⟨r, hr, hsame⟩ := h.find hr'
  exact ⟨r, hr, hp r r' hsame⟩

/-- agreement is about placements only -/
theorem Agree.follow {t : IdTag} {D : Type} {g : Grouping t D} {m m' : Resources} {ds : OrderedMap (Id t) D}
    (h : Agree g m ds) (hs : Follow g.placement m m') : Agree g m' ds := by
  intro k r' hr' id hid
  obtain ⟨r, hr, hp⟩ := hs k r' hr'
  rw [hp]
  exact h k r hr id hid

/-- records are stored under their own valid identity -/
def Keyed (m : Resources) : Prop := ∀ k r, m.find k = some r → k.valid = true ∧ r.id = k

theorem Keyed.follow {m m' : Resources} (h : Keyed m) (hs : Follow ResourceRecord.id m m') : Keyed m' := by
  intro k r' hr'
  obtain ⟨r, hr, hid⟩ := hs k r' hr'
  obtain ⟨hvalid, hk⟩ := h k r hr
  exact ⟨hvalid, hid.trans hk⟩

theorem Keyed.insert {m : Resources} {k : ResourceId} {r : ResourceRecord} (h : Keyed m) (hk : k.valid = true)
    (hr : r.id = k) : Keyed (m.insert k r) := by
  intro a r' hr'
  rw [OrderedMap.find_insert] at hr'
  split_ifs at hr' with ha
  · rw [← ha, ← Option.some.inj hr']
    exact ⟨hk, hr⟩
  · exact h a r' hr'

theorem Keyed.erase {m : Resources} {k : ResourceId} (h : Keyed m) : Keyed (m.erase k) := by
  intro a r' hr'
  rw [OrderedMap.find_erase] at hr'
  split_ifs at hr'
  exact h a r' hr'

/-- records are stored under their own valid identity, and placement and membership agree -/
structure Placed (top : Topology) : Prop where
  keys : Keyed top.resources
  containment : Agree containmentDomains top.resources top.containmentDomains
  isolation : Agree isolationDomains top.resources top.isolationDomains
  failure : Agree failureDomains top.resources top.failureDomains

/-- domains of all kinds have valid identities -/
structure AllNamed (top : Topology) : Prop where
  containment : Named top.containmentDomains
  isolation : Named top.isolationDomains
  failure : Named top.failureDomains

/-- domains and dependencies are untouched and the resources stay where they are -/
structure Quiet (top top' : Topology) : Prop where
  resources : SamePlaces top.resources top'.resources
  containment : top'.containmentDomains = top.containmentDomains
  isolation : top'.isolationDomains = top.isolationDomains
  failure : top'.failureDomains = top.failureDomains
  dependencies : top'.dependencies = top.dependencies

namespace Quiet

variable {top top' : Topology}

theorem of_eq (h : top' = top) : Quiet top top' := by
  subst h
  exact ⟨.refl _, rfl, rfl, rfl, rfl⟩

theorem trans {top'' : Topology} (h : Quiet top top') (h' : Quiet top' top'') : Quiet top top'' :=
  ⟨h.resources.trans h'.resources, h'.containment.trans h.containment, h'.isolation.trans h.isolation,
    h'.failure.trans h.failure, h'.dependencies.trans h.dependencies⟩

theorem symm (h : Quiet top top') : Quiet top' top :=
  ⟨h.resources.symm, h.containment.symm, h.isolation.symm, h.failure.symm, h.dependencies.symm⟩

theorem placed (h : Quiet top top') (hp : Placed top) : Placed top' where
  keys := hp.keys.follow (h.resources.follow fun _ _ e => congrArg Prod.fst e)
  containment := h.containment ▸ hp.containment.follow (h.resources.follow fun _ _ e => congrArg (fun p => p.2.1) e)
  isolation := h.isolation ▸ hp.isolation.follow (h.resources.follow fun _ _ e => congrArg (fun p => p.2.2.1) e)
  failure := h.failure ▸ hp.failure.follow (h.resources.follow fun _ _ e => congrArg (fun p => p.2.2.2) e)

theorem named (h : Quiet top top') (hn : AllNamed top) : AllNamed top' where
  containment := h.containment ▸ hn.containment
  isolation := h.isolation ▸ hn.isolation
  failure := h.failure ▸ hn.failure

end Quiet

/-! ## Operations that leave membership alone -/

theorem editEach_topology (f : ResourceRecord → Option ResourceRecord) (ks : List ResourceId) (i : Impl) :
    (editEach f ks i).1.state.topology =
      { i.state.topology with resources := editMap f ks i.state.topology.resources } := by
  obtain ⟨g, h⟩ := editEach_frame f ks i
  rw [h]
  rfl

theorem planActions_topology (time : UInt64) (budget : ℕ) (record : ContainmentRecord) (ks : List ResourceId)
    (planned : List ActionId) (i : Impl) :
    (planActions time budget record ks planned i).1.state.topology = i.state.topology := by
  obtain ⟨actions, next, h⟩ := planActions_frame time budget record ks planned i
  rw [h]
  rfl

/-- the topology a commitment leaves -/
theorem commitContainment_topology (clk : Clock) (id : FaultId) (fault : FaultRecord) (radius : Records.BlastRadius)
    (i : Impl) : (commitContainment clk id fault radius i).impl.state.topology =
      { i.state.topology with
        resources := editMap (drain (clk 0)) radius.precautionary
          (editMap (fun r => some (fence (clk 0) i.state.workers radius.generation
            (outcomeQuarantines radius.recommended) r)) radius.mandatory i.state.topology.resources) } := by
  unfold commitContainment
  dsimp only [commit_topology]
  rw [planActions_topology, editEach_topology, editEach_topology]
  rfl

theorem quiet_editMap (top : Topology) {f : ResourceRecord → Option ResourceRecord} (ks : List ResourceId)
    (hf : ∀ r r', f r = some r' → places r' = places r) :
    Quiet top { top with resources := editMap f ks top.resources } := ⟨.editMap _ ks hf, rfl, rfl, rfl, rfl⟩

theorem quiet_publishResourceEvidence (clk : Clock) (id : ResourceId) (expected : ResourceGeneration)
    (freshness : EvidenceFreshness) (sequence : EvidenceSequence) (mechanism : ContainmentMechanism) (source : Text)
    (i : Impl) : Quiet i.state.topology
      (publishResourceEvidence clk id expected freshness sequence mechanism source i).impl.state.topology := by
  unfold publishResourceEvidence
  split
  · exact .of_eq rfl
  · next r hr =>
    exact ⟨.insert (admitEvidence_ok hr) rfl, rfl, rfl, rfl, rfl⟩

/-- what a registration makes of the topology -/
theorem quiet_revokePrevious (clk : Clock) (worker : WorkerId) (boot : WorkerBootId) (i : Impl) :
    Quiet i.state.topology (revokePrevious clk worker boot i).1.state.topology := by
  unfold revokePrevious
  split
  · exact .of_eq rfl
  split_ifs
  · exact .of_eq rfl
  split
  · exact .of_eq rfl
  · exact ⟨.updateAll _ _ fun _ => rfl, rfl, rfl, rfl, rfl⟩

theorem quiet_registerWorker (clk : Clock) (worker : WorkerId) (boot : WorkerBootId) (endpoint : Text)
    (sequence : EvidenceSequence) (i : Impl) :
    Quiet i.state.topology (registerWorker clk worker boot endpoint sequence i).impl.state.topology := by
  have hfresh : ∀ j, Quiet j.state.topology (registerFresh clk worker boot endpoint sequence j).impl.state.topology :=
    fun j => quiet_revokePrevious clk worker boot j
  unfold registerWorker
  split
  · exact .of_eq rfl
  split
  · exact .of_eq rfl
  split
  · exact hfresh i
  split
  · exact hfresh (i.withIncarnations (i.state.workers.incarnations.erase ⟨worker, boot⟩))
  split
  · exact .of_eq rfl
  split
  · exact .of_eq rfl
  · exact .of_eq rfl

theorem quiet_authorizeContainment (clk : Clock) (id : FaultId) (expected : FaultGeneration) (i : Impl) :
    Quiet i.state.topology (authorizeContainment clk id expected i).impl.state.topology := by
  unfold authorizeContainment
  split
  · exact .of_eq rfl
  split
  · exact .of_eq rfl
  · next fault _ _ radius hradius =>
    rw [commitContainment_topology]
    refine (quiet_editMap i.state.topology radius.mandatory fun r r' h => ?_).trans
      (quiet_editMap _ radius.precautionary fun r r' h => ?_)
    · rw [← Option.some.inj h]
      rfl
    · unfold drain at h
      split_ifs at h
      rw [← Option.some.inj h]
      rfl

theorem quiet_recordActionResult (clk : Clock) (result : ActionResult) (i : Impl) :
    Quiet i.state.topology (recordActionResult clk result i).impl.state.topology := by
  unfold recordActionResult
  split
  · exact .of_eq rfl
  split
  · exact .of_eq rfl
  split
  · exact .of_eq rfl
  · dsimp only [commit_topology]
    split
    · rw [editEach_topology]
      refine quiet_editMap _ _ fun r r' h => ?_
      rw [← Option.some.inj h]
      rfl
    · exact .of_eq rfl

/-- the topology a loss leaves: the owned resources are fenced, or nothing happened -/
theorem authorityLost_topology (clk : Clock) (worker : WorkerId) (boot : WorkerBootId) (detail : Text)
    (observationTimeMs : UInt64) (i : Impl) :
    (authorityLost clk worker boot detail observationTimeMs i).impl.state.topology = i.state.topology ∨
      (authorityLost clk worker boot detail observationTimeMs i).impl.state.topology =
        { i.state.topology with
          resources := editMap (fun r => some (fenceLost (clk 1) r))
            ((ownedBy boot i.state.topology.resources).map Prod.fst) i.state.topology.resources } := by
  unfold authorityLost
  split
  · exact .inl rfl
  split
  · exact .inl rfl
  · dsimp only
    by_cases hs : ¬ (lossSubject (ownedBy boot i.state.topology.resources)).valid
    · exact .inl (congrArg (fun step : Step LossOutcome => step.impl.state.topology) (if_pos hs))
    · exact .inr ((congrArg (fun step : Step LossOutcome => step.impl.state.topology) (if_neg hs)).trans
        (editEach_topology _ _ _))

theorem quiet_authorityLost (clk : Clock) (worker : WorkerId) (boot : WorkerBootId) (detail : Text)
    (observationTimeMs : UInt64) (i : Impl) :
    Quiet i.state.topology (authorityLost clk worker boot detail observationTimeMs i).impl.state.topology := by
  rcases authorityLost_topology clk worker boot detail observationTimeMs i with h | h
  · exact .of_eq h
  · rw [h]
    refine quiet_editMap i.state.topology _ fun r r' hr => ?_
    rw [← Option.some.inj hr]
    rfl

theorem takeOffContainment_topology (clk : Clock) (generation : ContainmentGeneration) (id : ResourceId) (i : Impl) :
    (takeOffContainment clk generation id i).1.state.topology = i.state.topology := by
  have hstage : ∀ (a : FaultId) (f : Option FaultRecord) (j : Impl),
      (stageFault a f j).1.state.topology = j.state.topology := by
    intro a f j
    cases f <;> rfl
  unfold takeOffContainment
  split
  · rfl
  · dsimp only
    split
    · exact hstage _ _ _
    · rfl

theorem quiet_authorizeRelease (clk : Clock) (request : ReleaseRequest) (i : Impl) :
    Quiet i.state.topology (authorizeRelease clk request i).impl.state.topology := by
  unfold authorizeRelease
  dsimp only
  split
  · exact .of_eq rfl
  split
  · exact .of_eq rfl
  · next r hr =>
    unfold grantRelease
    dsimp only [commit_topology]
    rw [takeOffContainment_topology]
    exact ⟨.insert hr rfl, rfl, rfl, rfl, rfl⟩

/-! ## Edits of one kind -/

section Edits

variable {t : IdTag} {D : Type} {g : Grouping t D} {m : Resources} {ds : OrderedMap (Id t) D}

theorem displace_displace {id : Id t} (hid : id.valid = true) (r : ResourceRecord) :
    g.displace id (g.displace id r) = g.displace id r := by
  by_cases hr : g.placement r = id
  · rw [Grouping.displace, Grouping.displace, if_pos hr, g.placement_place, if_neg]
    rintro rfl
    exact Bool.false_ne_true hid
  · rw [Grouping.displace, Grouping.displace, if_neg hr, if_neg hr]

/-- a new domain takes its registered members; that is right exactly when none of them was placed -/
theorem agree_register {id : Id t} {d : D} (hplace : ∀ r, g.place (g.place r id) id = g.place r id)
    (hnew : ds.has id = false) (h : Agree g m ds) :
    Agree g (g.placeMembers id (g.members d) m) (ds.insert id d) ↔
      ∀ k ∈ g.members d, ∀ r ∈ m.find k, (g.placement r).valid = false := by
  have hfind := OrderedMap.find_updateAll m (g.members d) (fun r => g.place r id) hplace
  have hnone : ∀ k, ¬ Lists g ds id k := fun k hl => by
    rw [hl.has] at hnew
    exact absurd hnew (by decide)
  constructor
  · intro h' k hk r hr
    by_contra hp
    have hp : (g.placement r).valid = true := Bool.eq_true_of_not_eq_false hp
    have hl := (h k r hr _ hp).mp rfl
    have hne : id ≠ g.placement r := fun he => hnone k (he ▸ hl)
    have hk' : (g.placeMembers id (g.members d) m).find k = some (g.place r id) := by
      rw [Grouping.placeMembers, hfind, if_pos hk, Option.mem_def.mp hr]
      rfl
    have hlist : Lists g (ds.insert id d) (g.placement r) k := Lists.insert_iff.mpr (by rwa [if_neg hne])
    have hplaced := (h' k _ hk' _ hp).mpr hlist
    rw [g.placement_place] at hplaced
    exact hne hplaced
  · intro hfree k r' hr' a ha
    rw [Grouping.placeMembers, hfind] at hr'
    rw [Lists.insert_iff]
    by_cases hk : k ∈ g.members d
    · rw [if_pos hk] at hr'
      obtain ⟨r, hr, rfl⟩ := Option.map_eq_some_iff.mp hr'
      rw [g.placement_place]
      by_cases hia : id = a
      · simp [hia, hk]
      · rw [if_neg hia, ← h k r hr a ha]
        refine iff_of_false hia fun hp => ?_
        have hinvalid := hfree k hk r hr
        rw [hp, ha] at hinvalid
        exact absurd hinvalid (by decide)
    · rw [if_neg hk] at hr'
      by_cases hia : id = a
      · subst hia
        rw [if_pos rfl, h k r' hr' id ha]
        exact iff_of_false (hnone k) hk
      · rw [if_neg hia, h k r' hr' a ha]

/-- a removed domain lets go of its registered members -/
theorem agree_unregister {id : Id t} {d : D} (hd : ds.find id = some d) (hid : id.valid = true)
    (hall : ∀ k ∈ g.members d, m.has k = true) (h : Agree g m ds) :
    Agree g (g.displaceMembers id (g.members d) m) (ds.erase id) := by
  intro k r' hr' a ha
  rw [Grouping.displaceMembers, OrderedMap.find_subscriptAll _ _ _ (displace_displace hid)] at hr'
  rw [Lists.erase_iff]
  by_cases hk : k ∈ g.members d
  · obtain ⟨r, hr⟩ := (OrderedMap.has_iff m k).mp (hall k hk)
    have hplaced : g.placement r = id := (h k r hr id hid).mpr ⟨d, hd, hk⟩
    rw [if_pos hk, hr, Option.getD_some, Grouping.displace, if_pos hplaced] at hr'
    rw [← Option.some.inj hr', g.placement_place]
    refine iff_of_false (fun he => ?_) fun hl => hl.1 (hplaced ▸ (h k r hr a ha).mpr hl.2)
    rw [← he] at ha
    exact Bool.false_ne_true ha
  · rw [if_neg hk] at hr'
    rw [h k r' hr' a ha]
    refine ⟨fun hl => ⟨?_, hl⟩, And.right⟩
    rintro rfl
    obtain ⟨d', hd', hk'⟩ := hl
    rw [hd] at hd'
    exact hk (Option.some.inj hd' ▸ hk')

/-- a domain's list is replaced: its members are placed and the dropped ones displaced; that is right exactly when the new
members come from nowhere else and the dropped ones are not on the new list -/
theorem agree_replace {id : Id t} {d d' : D} (hplace : ∀ r, g.place (g.place r id) id = g.place r id)
    (hid : id.valid = true) (hd : ds.find id = some d)
    (hall : ∀ k ∈ g.members d', m.has k = true)
    (hdropped : ∀ k ∈ droppedMembers (g.members d) (g.members d'), m.has k = true) (h : Agree g m ds) :
    Agree g (g.displaceMembers id (droppedMembers (g.members d) (g.members d')) (g.placeMembers id (g.members d') m))
        (ds.insert id d') ↔
      (∀ k ∈ g.members d', ∀ r ∈ m.find k, (g.placement r).valid = true → g.placement r = id) ∧
        ∀ k ∈ droppedMembers (g.members d) (g.members d'), k ∉ g.members d' := by
  have hplaced := OrderedMap.find_updateAll m (g.members d') (fun r => g.place r id) hplace
  have hfind := OrderedMap.find_subscriptAll (g.placeMembers id (g.members d') m)
    (droppedMembers (g.members d) (g.members d')) (g.displace id) (displace_displace hid)
  constructor
  · intro h'
    have hstays : ∀ k ∈ droppedMembers (g.members d) (g.members d'), k ∉ g.members d' := by
      intro k hk hmem
      obtain ⟨r, hr⟩ := (OrderedMap.has_iff _ _).mp (hall k hmem)
      have hk' := hfind k
      rw [if_pos hk, Grouping.placeMembers, hplaced, if_pos hmem, hr] at hk'
      have hat := (h' k _ hk' id hid).mpr (Lists.insert_iff.mpr (by rwa [if_pos rfl]))
      rw [Option.map_some, Option.getD_some, Grouping.displace, if_pos (g.placement_place r id), g.placement_place] at hat
      rw [← hat] at hid
      exact Bool.false_ne_true hid
    refine ⟨fun k hk r hr hv => ?_, hstays⟩
    by_contra hne
    have hl := (h k r hr (g.placement r) hv).mp rfl
    have hk' := hfind k
    rw [if_neg fun hin => hstays k hin hk, Grouping.placeMembers, hplaced, if_pos hk, Option.mem_def.mp hr] at hk'
    have hl' := (h' k _ hk' (g.placement r) hv).mpr (Lists.insert_iff.mpr (by rwa [if_neg (Ne.symm hne)]))
    rw [g.placement_place] at hl'
    exact hne hl'.symm
  · intro ⟨hfree, hstays⟩ k r' hr' a ha
    rw [Grouping.displaceMembers, hfind] at hr'
    rw [Lists.insert_iff]
    by_cases hin : k ∈ droppedMembers (g.members d) (g.members d')
    · -- a dropped member was placed here, and is placed nowhere now
      obtain ⟨r, hr⟩ := (OrderedMap.has_iff _ _).mp (hdropped k hin)
      have hwas : g.placement r = id := (h k r hr id hid).mpr ⟨d, hd, (List.mem_filter.mp hin).1⟩
      rw [if_pos hin, Grouping.placeMembers, hplaced, if_neg (hstays k hin), hr, Option.getD_some, Grouping.displace,
        if_pos hwas] at hr'
      rw [← Option.some.inj hr', g.placement_place]
      refine iff_of_false (fun he => ?_) fun hl => ?_
      · rw [← he] at ha
        exact Bool.false_ne_true ha
      · split_ifs at hl with hia
        · exact hstays k hin hl
        · exact hia (hwas.symm.trans ((h k r hr a ha).mpr hl))
    · rw [if_neg hin, Grouping.placeMembers, hplaced] at hr'
      by_cases hk : k ∈ g.members d'
      · rw [if_pos hk] at hr'
        obtain ⟨r, hr, rfl⟩ := Option.map_eq_some_iff.mp hr'
        rw [g.placement_place]
        by_cases hia : id = a
        · simp [hia, hk]
        · rw [if_neg hia, ← h k r hr a ha]
          refine iff_of_false hia fun hp => hia ?_
          have hhere := hfree k hk r hr (by rw [hp]; exact ha)
          exact hhere.symm.trans hp
      · rw [if_neg hk] at hr'
        rw [h k r' hr' a ha]
        by_cases hia : id = a
        · subst hia
          rw [if_pos rfl]
          refine iff_of_false (fun ⟨d0, hd0, hmem⟩ => hin ?_) hk
          rw [hd] at hd0
          obtain rfl := Option.some.inj hd0
          refine List.mem_filter.mpr ⟨hmem, ?_⟩
          by_contra hc
          exact hk (mem_of_idSetContains (by simpa using hc))
        · rw [if_neg hia]

/-- the domains that list a resource are at most the one it is placed in -/
def ListedOnly (g : Grouping t D) (ds : OrderedMap (Id t) D) (id : Id t) (k : ResourceId) : Prop :=
  ∀ e ∈ ds.toList, k ∈ g.members e.2 → e.1 = id

instance (g : Grouping t D) (ds : OrderedMap (Id t) D) (id : Id t) (k : ResourceId) : Decidable (ListedOnly g ds id k) :=
  inferInstanceAs (Decidable (∀ e ∈ _, _))

theorem listedOnly_iff {id : Id t} {k : ResourceId} : ListedOnly g ds id k ↔ ∀ a, Lists g ds a k → a = id := by
  constructor
  · rintro h a ⟨d, hd, hk⟩
    exact h (a, d) ((OrderedMap.mem_toList ds a d).mpr hd) hk
  · intro h e he hk
    exact h e.1 ⟨e.2, (OrderedMap.mem_toList ds e.1 e.2).mp he, hk⟩

/-- a new resource joins the domain it names; that is right exactly when no other domain lists it -/
theorem agree_join [Inhabited D] {k : ResourceId} {stored : ResourceRecord}
    (hexists : (g.placement stored).valid = true → ds.has (g.placement stored) = true) (hn : Named ds)
    (h : Agree g m ds) :
    Agree g (m.insert k stored) (g.join (g.placement stored) k ds) ↔ ListedOnly g ds (g.placement stored) k := by
  have hjoin : ∀ a b, Lists g (g.join (g.placement stored) k ds) a b ↔
      Lists g ds a b ∨ ((g.placement stored).valid = true ∧ g.placement stored = a ∧ b = k) := by
    intro a b
    unfold Grouping.join
    by_cases hv : (g.placement stored).valid = true
    · rw [if_pos hv, OrderedMap.subscript_eq_update _ _ (hexists hv), Lists.enlist_iff]
      simp [hv, hexists hv]
    · rw [if_neg hv]
      simp [hv]
  rw [listedOnly_iff]
  constructor
  · intro h' a hl
    obtain ⟨d, hd, -⟩ := id hl
    exact ((h' k stored (OrderedMap.find_insert_self _ _ _) a (hn a d hd)).mpr ((hjoin a k).mpr (.inl hl))).symm
  · intro honly b r' hr' a ha
    rw [hjoin]
    rw [OrderedMap.find_insert] at hr'
    by_cases hb : k = b
    · subst hb
      rw [if_pos rfl] at hr'
      obtain rfl := Option.some.inj hr'
      constructor
      · intro he
        exact .inr ⟨he ▸ ha, he, rfl⟩
      · rintro (hl | ⟨-, he, -⟩)
        · exact (honly a hl).symm
        · exact he
    · rw [if_neg hb] at hr'
      rw [h b r' hr' a ha, or_iff_left]
      rintro ⟨-, -, he⟩
      exact hb he.symm

/-- the domain a resource moves to exists, and the one it leaves no longer lists it -/
def MovesCleanly (g : Grouping t D) (ds : OrderedMap (Id t) D) (old new : Id t) (k : ResourceId) : Prop :=
  (new.valid = true → ds.has new = true) ∧
    (old.valid = true → old ≠ new → ∀ d ∈ ds.find old, k ∉ idSetErase (g.members d) k)

instance (g : Grouping t D) (ds : OrderedMap (Id t) D) (old new : Id t) (k : ResourceId) :
    Decidable (MovesCleanly g ds old new k) := inferInstanceAs (Decidable ((_ → _) ∧ (_ → _ → _)))

/-- the lists after a resource has moved -/
theorem lists_move {old new : Id t} {k : ResourceId} (a : Id t) (b : ResourceId) :
    Lists g (g.moveMembership old new k ds) a b ↔
      (if old.valid = true ∧ old ≠ new ∧ old = a ∧ b = k then ∃ d, ds.find a = some d ∧ k ∈ idSetErase (g.members d) k
        else Lists g ds a b) ∨ (new.valid = true ∧ new = a ∧ b = k ∧ ds.has new = true) := by
  have hdelist : Lists g (if old.valid ∧ old ≠ new then ds.update old (g.delist k) else ds) a b ↔
      if old.valid = true ∧ old ≠ new ∧ old = a ∧ b = k then ∃ d, ds.find a = some d ∧ k ∈ idSetErase (g.members d) k
        else Lists g ds a b := by
    by_cases hmove : old.valid = true ∧ old ≠ new
    · rw [if_pos hmove]
      by_cases hb : b = k
      · subst hb
        rw [Lists.update_iff]
        simp only [hmove.1, hmove.2, ne_eq, not_false_eq_true, and_true, true_and, Grouping.delist, g.members_setMembers]
      · rw [Lists.delist_ne_iff hb, if_neg]
        exact fun hall => hb hall.2.2.2
    · rw [if_neg hmove, if_neg]
      exact fun hall => hmove ⟨hall.1, hall.2.1⟩
  have hhas : (if old.valid ∧ old ≠ new then ds.update old (g.delist k) else ds).has new = ds.has new := by
    split_ifs
    · exact OrderedMap.has_update _ _ _ _
    · rfl
  unfold Grouping.moveMembership
  dsimp only
  by_cases hv : new.valid = true
  · rw [if_pos hv, Lists.enlist_iff, hdelist, hhas]
    simp [hv]
  · rw [if_neg hv, hdelist]
    simp [hv]

/-- a resource moves from one domain to another -/
theorem agree_move {k : ResourceId} {r stored : ResourceRecord} (hr : m.find k = some r) (h : Agree g m ds) :
    Agree g (m.insert k stored) (g.moveMembership (g.placement r) (g.placement stored) k ds) ↔
      MovesCleanly g ds (g.placement r) (g.placement stored) k := by
  generalize hold : g.placement r = old
  generalize hnew : g.placement stored = new
  constructor
  · intro h'
    have hself := h' k stored (OrderedMap.find_insert_self _ _ _)
    rw [hnew] at hself
    constructor
    · intro hv
      rcases (lists_move new k).mp ((hself new hv).mp rfl) with hl | ⟨-, -, -, hhas⟩
      · rw [if_neg fun hall => hall.2.1 hall.2.2.1] at hl
        exact hl.has
      · exact hhas
    · intro hv hne d hd hk
      have hstill : Lists g (g.moveMembership old new k ds) old k := by
        rw [lists_move, if_pos ⟨hv, hne, rfl, rfl⟩]
        exact .inl ⟨d, hd, hk⟩
      exact hne ((hself old hv).mpr hstill).symm
  · intro ⟨hexists, hleft⟩ b r' hr' a ha
    rw [lists_move]
    rw [OrderedMap.find_insert] at hr'
    by_cases hb : k = b
    · subst hb
      rw [if_pos rfl] at hr'
      rw [← Option.some.inj hr', hnew]
      constructor
      · intro he
        exact .inr ⟨he ▸ ha, he, rfl, hexists (he ▸ ha)⟩
      · rintro (hl | ⟨-, he, -⟩)
        · split_ifs at hl with hmove
          · obtain ⟨hv, hne, rfl, -⟩ := hmove
            obtain ⟨d, hd, hk⟩ := hl
            exact absurd hk (hleft hv hne d hd)
          · have hplaced := (h k r hr a ha).mpr hl
            rw [hold] at hplaced
            by_contra hne
            exact hmove ⟨hplaced ▸ ha, fun he => hne (he ▸ hplaced), hplaced, rfl⟩
        · exact he
    · rw [if_neg hb] at hr'
      rw [if_neg fun hall => hb hall.2.2.2.symm, h b r' hr' a ha, or_iff_left]
      rintro ⟨-, -, he, -⟩
      exact hb he.symm

end Edits

/-! ## Registering and removing domains -/

/-- a lookup that invents a record stores it under a key it does not name -/
theorem not_keyed_of_invented {m : Resources} {ks : List ResourceId} {f : ResourceRecord → ResourceRecord}
    (hidem : ∀ r, f (f r) = f r) (hid : ∀ r, (f r).id = r.id) {k : ResourceId} (hk : k ∈ ks) (hnone : m.find k = none) :
    ¬ Keyed (m.subscriptAll ks f) := by
  intro h
  have hfind := OrderedMap.find_subscriptAll m ks f hidem k
  rw [if_pos hk, hnone, Option.getD_none] at hfind
  obtain ⟨hvalid, heq⟩ := h k _ hfind
  rw [hid] at heq
  rw [← heq] at hvalid
  exact Bool.false_ne_true hvalid

section Displaced

variable {t : IdTag} {D : Type} (g : Grouping t D)

theorem displace_id (id : Id t) (r : ResourceRecord) : (g.displace id r).id = r.id :=
  (unplaced_fields (unplaced_displace g id r)).1

/-- members that are taken out of a domain are registered, or the records no longer have their keys -/
theorem registered_of_keyed {id : Id t} (hid : id.valid = true) {ks : List ResourceId} {m : Resources}
    (h : Keyed (g.displaceMembers id ks m)) : ∀ k ∈ ks, m.has k = true := by
  intro k hk
  by_contra hnone
  exact not_keyed_of_invented (displace_displace hid) (displace_id g id) hk
    ((OrderedMap.has_eq_false m k).mp (Bool.eq_false_iff.mpr hnone)) h

theorem follow_displaced {α : Type} {p : ResourceRecord → α} {id : Id t} {ks : List ResourceId} {m : Resources}
    (hp : ∀ r, p (g.displace id r) = p r) (hall : ∀ k ∈ ks, m.has k = true) : Follow p m (g.displaceMembers id ks m) := by
  rw [Grouping.displaceMembers, OrderedMap.subscriptAll_eq_updateAll m ks _ hall]
  exact .updateAll m ks hp

end Displaced

section Registered

variable {t : IdTag} {D : Type} (g : Grouping t D) (normalize : D → D) (clk : Clock) {domain : D} {i : Impl}

/-- the topology an accepted registration leaves -/
theorem register_topology (hvalid : (g.id domain).valid = true)
    (hnew : (g.domains i.state.topology).has (g.id domain) = false) :
    let placed := { i.state.topology with
      resources := g.placeMembers (g.id domain) (g.members domain) i.state.topology.resources }
    (g.register normalize clk domain i).impl.state.topology =
      g.setDomains placed ((g.domains placed).emplace (g.id domain)
        (normalize (g.setGeneration domain (nextGeneration i.state.topologyGeneration)))) := by
  unfold Grouping.register
  rw [if_neg (not_not.mpr hvalid), if_neg (Bool.eq_false_iff.mp hnew)]
  rfl

theorem register_refused (h : (g.id domain).valid = true → (g.domains i.state.topology).has (g.id domain) = true) :
    (g.register normalize clk domain i).impl = i := by
  unfold Grouping.register
  by_cases hvalid : ¬ (g.id domain).valid
  · rw [if_pos hvalid]
    rfl
  · rw [if_neg hvalid, if_pos (h (not_not.mp hvalid))]
    rfl

end Registered

section Unregistered

variable {t : IdTag} {D : Type} (g : Grouping t D) (clk : Clock) (id : Id t) (expected : TopologyGeneration) (i : Impl)

/-- a removal is refused, or the domain is erased and its members are taken out of it -/
theorem unregister_cases {notFound advanced : String} :
    (g.unregister notFound advanced clk id expected i).impl = i ∧ unregistered g id expected i = [] ∨
      ∃ d, (g.domains i.state.topology).find id = some d ∧ unregistered g id expected i = g.members d ∧
        (g.unregister notFound advanced clk id expected i).impl.state.topology =
          { g.setDomains i.state.topology ((g.domains i.state.topology).erase id) with
            resources := g.displaceMembers id (g.members d)
              (g.setDomains i.state.topology ((g.domains i.state.topology).erase id)).resources } := by
  unfold Grouping.unregister unregistered
  cases hd : (g.domains i.state.topology).find id with
  | none => exact .inl ⟨rfl, rfl⟩
  | some d =>
    dsimp only
    by_cases hok : expected.valid = true ∧ g.generation d = expected
    · refine .inr ⟨d, rfl, if_pos hok, ?_⟩
      rw [if_neg]
      · rfl
      · rintro (h | h)
        · exact h hok.1
        · exact h hok.2
    · refine .inl ⟨?_, if_neg hok⟩
      rw [if_pos]
      · rfl
      · by_contra h
        obtain ⟨hv, hg⟩ := not_or.mp h
        exact hok ⟨not_not.mp hv, not_not.mp hg⟩

/-- what taking a record out of a domain of one kind does not change -/
theorem displaced_elsewhere {α : Type} {p : ResourceRecord → α} (hp : ∀ r a, p (g.place r a) = p r) (r : ResourceRecord) :
    p (g.displace id r) = p r := by
  unfold Grouping.displace
  split_ifs
  · exact hp r _
  · rfl

end Unregistered

/-- a new domain takes only resources that are not placed -/
def TakesUnplaced {t : IdTag} {D : Type} (g : Grouping t D) (d : D) (i : Impl) : Prop :=
  (g.id d).valid = true → (g.domains i.state.topology).has (g.id d) = false →
    ∀ k ∈ g.members d, ∀ r ∈ i.state.topology.resources.find k, (g.placement r).valid = false

instance {t : IdTag} {D : Type} (g : Grouping t D) (d : D) (i : Impl) : Decidable (TakesUnplaced g d i) :=
  inferInstanceAs (Decidable (_ → _ → ∀ k ∈ _, ∀ r ∈ _, _))

section Kinds

variable (clk : Clock) {i : Impl}

/-! ### Isolation domains -/

theorem registerIsolationDomain_topology {domain : IsolationDomain} (hvalid : domain.id.valid = true)
    (hnew : i.state.topology.isolationDomains.has domain.id = false) :
    ∃ stored : IsolationDomain, stored.members = domain.members ∧
      (registerIsolationDomain clk domain i).impl.state.topology =
        { i.state.topology with
          resources := isolationDomains.placeMembers domain.id stored.members i.state.topology.resources
          isolationDomains := i.state.topology.isolationDomains.insert domain.id stored } := by
  let stored : IsolationDomain :=
    { domain with generation := nextGeneration i.state.topologyGeneration, classes := enumSetNormalize domain.classes }
  refine ⟨stored, rfl, ?_⟩
  rw [← OrderedMap.emplace_new _ stored ((OrderedMap.has_eq_false _ _).mp hnew)]
  exact register_topology isolationDomains _ clk hvalid hnew

theorem placed_registerIsolationDomain (domain : IsolationDomain) (h : Placed i.state.topology) :
    Placed (registerIsolationDomain clk domain i).impl.state.topology ↔ TakesUnplaced isolationDomains domain i := by
  by_cases hopen : domain.id.valid = true ∧ i.state.topology.isolationDomains.has domain.id = false
  swap
  · have hrefused : (registerIsolationDomain clk domain i).impl = i :=
      register_refused isolationDomains _ clk fun hv => Bool.eq_true_of_not_eq_false fun hn => hopen ⟨hv, hn⟩
    rw [hrefused]
    exact iff_of_true h fun hv hn => absurd ⟨hv, hn⟩ hopen
  obtain ⟨hvalid, hnew⟩ := hopen
  obtain ⟨stored, hmembers, htop⟩ := registerIsolationDomain_topology clk hvalid hnew
  have hagree := @agree_register _ _ isolationDomains _ _ _ stored (fun _ => rfl) hnew h.isolation
  have hcond : TakesUnplaced isolationDomains domain i ↔ ∀ k ∈ stored.members,
      ∀ r ∈ i.state.topology.resources.find k, r.isolationDomain.valid = false := by
    rw [hmembers]
    exact ⟨fun hall => hall hvalid hnew, fun hall _ _ => hall⟩
  rw [htop, hcond]
  constructor
  · intro h'
    exact hagree.mp h'.isolation
  · intro hfree
    exact {
      keys := h.keys.follow (.updateAll _ _ fun _ => rfl)
      containment := h.containment.follow (.updateAll _ _ fun _ => rfl)
      failure := h.failure.follow (.updateAll _ _ fun _ => rfl)
      isolation := hagree.mpr hfree }

theorem named_registerIsolationDomain (domain : IsolationDomain) (h : AllNamed i.state.topology) :
    AllNamed (registerIsolationDomain clk domain i).impl.state.topology := by
  by_cases hopen : domain.id.valid = true ∧ i.state.topology.isolationDomains.has domain.id = false
  · obtain ⟨stored, -, htop⟩ := registerIsolationDomain_topology clk hopen.1 hopen.2
    rw [htop]
    exact { h with isolation := h.isolation.insert hopen.1 }
  · have hrefused : (registerIsolationDomain clk domain i).impl = i :=
      register_refused isolationDomains _ clk fun hv => Bool.eq_true_of_not_eq_false fun hn => hopen ⟨hv, hn⟩
    rw [hrefused]
    exact h

/-! ### Failure domains -/

theorem registerFailureDomain_topology {domain : FailureDomain} (hvalid : domain.id.valid = true)
    (hnew : i.state.topology.failureDomains.has domain.id = false) :
    ∃ stored : FailureDomain, stored.members = domain.members ∧
      (registerFailureDomain clk domain i).impl.state.topology =
        { i.state.topology with
          resources := failureDomains.placeMembers domain.id stored.members i.state.topology.resources
          failureDomains := i.state.topology.failureDomains.insert domain.id stored } := by
  let stored : FailureDomain := { domain with generation := nextGeneration i.state.topologyGeneration }
  refine ⟨stored, rfl, ?_⟩
  rw [← OrderedMap.emplace_new _ stored ((OrderedMap.has_eq_false _ _).mp hnew)]
  exact register_topology failureDomains _ clk hvalid hnew

theorem placed_registerFailureDomain (domain : FailureDomain) (h : Placed i.state.topology) :
    Placed (registerFailureDomain clk domain i).impl.state.topology ↔ TakesUnplaced failureDomains domain i := by
  by_cases hopen : domain.id.valid = true ∧ i.state.topology.failureDomains.has domain.id = false
  swap
  · have hrefused : (registerFailureDomain clk domain i).impl = i :=
      register_refused failureDomains _ clk fun hv => Bool.eq_true_of_not_eq_false fun hn => hopen ⟨hv, hn⟩
    rw [hrefused]
    exact iff_of_true h fun hv hn => absurd ⟨hv, hn⟩ hopen
  obtain ⟨hvalid, hnew⟩ := hopen
  obtain ⟨stored, hmembers, htop⟩ := registerFailureDomain_topology clk hvalid hnew
  have hagree := @agree_register _ _ failureDomains _ _ _ stored (fun _ => rfl) hnew h.failure
  have hcond : TakesUnplaced failureDomains domain i ↔ ∀ k ∈ stored.members,
      ∀ r ∈ i.state.topology.resources.find k, r.failureDomain.valid = false := by
    rw [hmembers]
    exact ⟨fun hall => hall hvalid hnew, fun hall _ _ => hall⟩
  rw [htop, hcond]
  constructor
  · intro h'
    exact hagree.mp h'.failure
  · intro hfree
    exact {
      keys := h.keys.follow (.updateAll _ _ fun _ => rfl)
      containment := h.containment.follow (.updateAll _ _ fun _ => rfl)
      isolation := h.isolation.follow (.updateAll _ _ fun _ => rfl)
      failure := hagree.mpr hfree }

theorem named_registerFailureDomain (domain : FailureDomain) (h : AllNamed i.state.topology) :
    AllNamed (registerFailureDomain clk domain i).impl.state.topology := by
  by_cases hopen : domain.id.valid = true ∧ i.state.topology.failureDomains.has domain.id = false
  · obtain ⟨stored, -, htop⟩ := registerFailureDomain_topology clk hopen.1 hopen.2
    rw [htop]
    exact { h with failure := h.failure.insert hopen.1 }
  · have hrefused : (registerFailureDomain clk domain i).impl = i :=
      register_refused failureDomains _ clk fun hv => Bool.eq_true_of_not_eq_false fun hn => hopen ⟨hv, hn⟩
    rw [hrefused]
    exact h

/-! ### Removals -/

theorem placed_removeDomain {id : ContainmentDomainId} {expected : TopologyGeneration} (hn : AllNamed i.state.topology)
    (h : Placed i.state.topology) :
    Placed (removeDomain clk id expected i).impl.state.topology ↔ DropsRegistered (.removeDomain id expected) i := by
  rcases unregister_cases containmentDomains clk id expected i with ⟨himpl, hnone⟩ | ⟨d, hd, hdrops, himpl⟩
  · rw [removeDomain, himpl]
    refine iff_of_true h fun k hk => ?_
    rw [Quarantine.dropped, hnone] at hk
    simp at hk
  have hid := hn.containment id d hd
  have hcond : DropsRegistered (.removeDomain id expected) i ↔
      ∀ k ∈ d.members, i.state.topology.resources.has k = true := by
    rw [DropsRegistered, Quarantine.dropped, hdrops]
    exact Iff.rfl
  rw [hcond, removeDomain, himpl]
  constructor
  · intro h'
    exact registered_of_keyed containmentDomains hid h'.keys
  · intro hall
    exact {
      keys := h.keys.follow (follow_displaced _ (displace_id _ id) hall)
      containment := agree_unregister hd hid hall h.containment
      isolation := h.isolation.follow (follow_displaced _ (displaced_elsewhere _ id fun _ _ => rfl) hall)
      failure := h.failure.follow (follow_displaced _ (displaced_elsewhere _ id fun _ _ => rfl) hall) }

theorem placed_removeIsolationDomain {id : IsolationDomainId} {expected : TopologyGeneration}
    (hn : AllNamed i.state.topology) (h : Placed i.state.topology) :
    Placed (removeIsolationDomain clk id expected i).impl.state.topology ↔
      DropsRegistered (.removeIsolationDomain id expected) i := by
  rcases unregister_cases isolationDomains clk id expected i with ⟨himpl, hnone⟩ | ⟨d, hd, hdrops, himpl⟩
  · rw [removeIsolationDomain, himpl]
    refine iff_of_true h fun k hk => ?_
    rw [Quarantine.dropped, hnone] at hk
    simp at hk
  have hid := hn.isolation id d hd
  have hcond : DropsRegistered (.removeIsolationDomain id expected) i ↔
      ∀ k ∈ d.members, i.state.topology.resources.has k = true := by
    rw [DropsRegistered, Quarantine.dropped, hdrops]
    exact Iff.rfl
  rw [hcond, removeIsolationDomain, himpl]
  constructor
  · intro h'
    exact registered_of_keyed isolationDomains hid h'.keys
  · intro hall
    exact {
      keys := h.keys.follow (follow_displaced _ (displace_id _ id) hall)
      isolation := agree_unregister hd hid hall h.isolation
      containment := h.containment.follow (follow_displaced _ (displaced_elsewhere _ id fun _ _ => rfl) hall)
      failure := h.failure.follow (follow_displaced _ (displaced_elsewhere _ id fun _ _ => rfl) hall) }

theorem placed_removeFailureDomain {id : FailureDomainId} {expected : TopologyGeneration}
    (hn : AllNamed i.state.topology) (h : Placed i.state.topology) :
    Placed (removeFailureDomain clk id expected i).impl.state.topology ↔
      DropsRegistered (.removeFailureDomain id expected) i := by
  rcases unregister_cases failureDomains clk id expected i with ⟨himpl, hnone⟩ | ⟨d, hd, hdrops, himpl⟩
  · rw [removeFailureDomain, himpl]
    refine iff_of_true h fun k hk => ?_
    rw [Quarantine.dropped, hnone] at hk
    simp at hk
  have hid := hn.failure id d hd
  have hcond : DropsRegistered (.removeFailureDomain id expected) i ↔
      ∀ k ∈ d.members, i.state.topology.resources.has k = true := by
    rw [DropsRegistered, Quarantine.dropped, hdrops]
    exact Iff.rfl
  rw [hcond, removeFailureDomain, himpl]
  constructor
  · intro h'
    exact registered_of_keyed failureDomains hid h'.keys
  · intro hall
    exact {
      keys := h.keys.follow (follow_displaced _ (displace_id _ id) hall)
      failure := agree_unregister hd hid hall h.failure
      containment := h.containment.follow (follow_displaced _ (displaced_elsewhere _ id fun _ _ => rfl) hall)
      isolation := h.isolation.follow (follow_displaced _ (displaced_elsewhere _ id fun _ _ => rfl) hall) }

theorem named_removeDomain (id : ContainmentDomainId) (expected : TopologyGeneration) (h : AllNamed i.state.topology) :
    AllNamed (removeDomain clk id expected i).impl.state.topology := by
  rcases unregister_cases containmentDomains clk id expected i with ⟨himpl, -⟩ | ⟨d, -, -, himpl⟩
  · rw [removeDomain, himpl]
    exact h
  · rw [removeDomain, himpl]
    exact { h with containment := h.containment.erase }

theorem named_removeIsolationDomain (id : IsolationDomainId) (expected : TopologyGeneration)
    (h : AllNamed i.state.topology) : AllNamed (removeIsolationDomain clk id expected i).impl.state.topology := by
  rcases unregister_cases isolationDomains clk id expected i with ⟨himpl, -⟩ | ⟨d, -, -, himpl⟩
  · rw [removeIsolationDomain, himpl]
    exact h
  · rw [removeIsolationDomain, himpl]
    exact { h with isolation := h.isolation.erase }

theorem named_removeFailureDomain (id : FailureDomainId) (expected : TopologyGeneration)
    (h : AllNamed i.state.topology) : AllNamed (removeFailureDomain clk id expected i).impl.state.topology := by
  rcases unregister_cases failureDomains clk id expected i with ⟨himpl, -⟩ | ⟨d, -, -, himpl⟩
  · rw [removeFailureDomain, himpl]
    exact h
  · rw [removeFailureDomain, himpl]
    exact { h with failure := h.failure.erase }

/-! ### Containment domains -/

/-- a registration with a conflict has placed nobody before it -/
def ClaimsWhole (domain : ContainmentDomain) (i : Impl) : Prop :=
  domain.id.valid = true → i.state.topology.containmentDomains.has domain.id = false →
    (∀ k ∈ domain.members, foreign domain.id i.state.topology.resources k = false) ∨
      ∀ k ∈ domain.members.takeWhile fun k => !foreign domain.id i.state.topology.resources k,
        i.state.topology.resources.has k = false

instance (domain : ContainmentDomain) (i : Impl) : Decidable (ClaimsWhole domain i) :=
  inferInstanceAs (Decidable (_ → _ → _ ∨ _))

/-- a registration is refused, or is accepted, or meets a conflict -/
theorem registerDomain_cases (domain : ContainmentDomain) :
    (registerDomain clk domain i).impl = i ∧
        ¬ (domain.id.valid = true ∧ i.state.topology.containmentDomains.has domain.id = false) ∨
      domain.id.valid = true ∧ i.state.topology.containmentDomains.has domain.id = false ∧
        ((∃ stored : ContainmentDomain, stored.members = domain.members ∧
          (∀ k ∈ domain.members, foreign domain.id i.state.topology.resources k = false) ∧
          (registerDomain clk domain i).impl.state.topology =
            { i.state.topology with
              resources := containmentDomains.placeMembers domain.id stored.members i.state.topology.resources
              containmentDomains := i.state.topology.containmentDomains.insert domain.id stored }) ∨
        (¬ ∀ k ∈ domain.members, foreign domain.id i.state.topology.resources k = false) ∧
          (registerDomain clk domain i).impl.state.topology =
            { i.state.topology with
              resources := containmentDomains.placeMembers domain.id
                (domain.members.takeWhile fun k => !foreign domain.id i.state.topology.resources k)
                i.state.topology.resources }) := by
  unfold registerDomain
  by_cases hvalid : ¬ domain.id.valid
  · rw [if_pos hvalid]
    exact .inl ⟨rfl, fun h => hvalid h.1⟩
  rw [if_neg hvalid]
  cases hnew : i.state.topology.containmentDomains.has domain.id with
  | true =>
    rw [if_pos rfl]
    exact .inl ⟨rfl, fun h => absurd h.2 (by decide)⟩
  | false =>
    rw [if_neg Bool.false_ne_true]
    refine .inr ⟨not_not.mp hvalid, rfl, ?_⟩
    dsimp only
    simp only [claimMembers_eq, Impl.advanceTopology_topology]
    cases hconflict : domain.members.find? (foreign domain.id i.state.topology.resources) with
    | none =>
      have hfree : ∀ k ∈ domain.members, foreign domain.id i.state.topology.resources k = false :=
        fun k hk => Bool.eq_false_iff.mpr (List.find?_eq_none.mp hconflict k hk)
      let stored : ContainmentDomain := { domain with generation := nextGeneration i.state.topologyGeneration }
      refine .inl ⟨stored, rfl, hfree, ?_⟩
      have hall : domain.members.takeWhile (fun k => !foreign domain.id i.state.topology.resources k) = domain.members :=
        List.takeWhile_eq_self_iff.mpr fun k hk => by simp [hfree k hk]
      rw [← OrderedMap.emplace_new _ stored ((OrderedMap.has_eq_false _ _).mp hnew), hall]
      rfl
    | some member =>
      have hmember := List.find?_some hconflict
      refine .inr ⟨fun h => ?_, rfl⟩
      rw [h member (List.mem_of_find?_eq_some hconflict)] at hmember
      exact Bool.false_ne_true hmember

theorem placed_registerDomain (domain : ContainmentDomain) (h : Placed i.state.topology) :
    Placed (registerDomain clk domain i).impl.state.topology ↔ ClaimsWhole domain i := by
  rcases registerDomain_cases clk domain (i := i) with
    ⟨himpl, hnot⟩ | ⟨hvalid, hnew, ⟨stored, hmembers, hfree, htop⟩ | ⟨hconflict, htop⟩⟩
  · rw [himpl]
    exact iff_of_true h fun hv hn => absurd ⟨hv, hn⟩ hnot
  · rw [htop]
    refine iff_of_true ?_ fun _ _ => .inl hfree
    have hagree := @agree_register _ _ containmentDomains _ _ _ stored (fun _ => rfl) hnew h.containment
    exact {
      keys := h.keys.follow (.updateAll _ _ fun _ => rfl)
      containment := hagree.mpr fun k hk r hr => by
        -- a resource placed in this very domain would be listed by it
        by_contra hp
        have hp : r.containmentDomain.valid = true := Bool.eq_true_of_not_eq_false hp
        have hforeign := hfree k (hmembers ▸ hk)
        rw [foreign, Option.mem_def.mp hr, Option.any_some, hp, Bool.true_and] at hforeign
        have hsame : r.containmentDomain = domain.id := by simpa using hforeign
        have hl := (h.containment k r hr domain.id hvalid).mp hsame
        exact absurd (hl.has.symm.trans hnew) (by decide)
      isolation := h.isolation.follow (.updateAll _ _ fun _ => rfl)
      failure := h.failure.follow (.updateAll _ _ fun _ => rfl) }
  · rw [htop, ClaimsWhole, imp_iff_right hvalid, imp_iff_right hnew, or_iff_right hconflict]
    have hfind := OrderedMap.find_updateAll i.state.topology.resources
      (domain.members.takeWhile fun k => !foreign domain.id i.state.topology.resources k)
      (fun r => containmentDomains.place r domain.id) fun _ => rfl
    constructor
    · intro h' k hk
      by_contra hhas
      obtain ⟨r, hr⟩ := (OrderedMap.has_iff _ _).mp (Bool.eq_true_of_not_eq_false hhas)
      have hk' := hfind k
      rw [if_pos hk, hr] at hk'
      have hl := (h'.containment k _ hk' domain.id hvalid).mp rfl
      exact absurd (hl.has.symm.trans hnew) (by decide)
    · intro hnobody
      have hsame : containmentDomains.placeMembers domain.id
          (domain.members.takeWhile fun k => !foreign domain.id i.state.topology.resources k)
          i.state.topology.resources = i.state.topology.resources := by
        refine OrderedMap.ext fun k => ?_
        rw [Grouping.placeMembers, hfind]
        split_ifs with hk
        · rw [(OrderedMap.has_eq_false _ _).mp (hnobody k hk)]
          rfl
        · rfl
      rw [hsame]
      exact h

theorem named_registerDomain (domain : ContainmentDomain) (h : AllNamed i.state.topology) :
    AllNamed (registerDomain clk domain i).impl.state.topology := by
  rcases registerDomain_cases clk domain (i := i) with
    ⟨himpl, -⟩ | ⟨hvalid, -, ⟨stored, -, -, htop⟩ | ⟨-, htop⟩⟩
  · rw [himpl]
    exact h
  · rw [htop]
    exact { h with containment := h.containment.insert hvalid }
  · rw [htop]
    exact { h with }

/-- an update takes only unplaced members, and lets go of registered ones that it really drops -/
def UpdatesCleanly (domain : ContainmentDomain) (expected : TopologyGeneration) (i : Impl) : Prop :=
  ∀ previous ∈ (admitUpdateDomain domain expected i).toOption,
    (∀ k ∈ domain.members, ∀ r ∈ i.state.topology.resources.find k,
      r.containmentDomain.valid = true → r.containmentDomain = domain.id) ∧
    ∀ k ∈ droppedMembers previous.members domain.members,
      i.state.topology.resources.has k = true ∧ k ∉ domain.members

instance (domain : ContainmentDomain) (expected : TopologyGeneration) (i : Impl) :
    Decidable (UpdatesCleanly domain expected i) :=
  inferInstanceAs (Decidable (∀ previous ∈ _, (∀ k ∈ _, ∀ r ∈ _, _) ∧ ∀ k ∈ _, _))

theorem updateDomain_cases (domain : ContainmentDomain) (expected : TopologyGeneration) :
    (updateDomain clk domain expected i).impl = i ∧ (admitUpdateDomain domain expected i).toOption = none ∨
      ∃ previous stored : ContainmentDomain, admitUpdateDomain domain expected i = .ok previous ∧
        stored.members = domain.members ∧
        (updateDomain clk domain expected i).impl.state.topology =
          { i.state.topology with
            resources := containmentDomains.displaceMembers domain.id
              (droppedMembers previous.members domain.members)
              (containmentDomains.placeMembers domain.id domain.members i.state.topology.resources)
            containmentDomains := i.state.topology.containmentDomains.insert domain.id stored } := by
  unfold updateDomain
  cases hadmitted : admitUpdateDomain domain expected i with
  | error e => exact .inl ⟨rfl, rfl⟩
  | ok previous =>
    let stored : ContainmentDomain := { domain with generation := nextGeneration i.state.topologyGeneration }
    refine .inr ⟨previous, stored, rfl, rfl, ?_⟩
    have hall := (admitUpdateDomain_ok hadmitted).2
    rw [Grouping.placeMembers, ← OrderedMap.subscriptAll_eq_updateAll _ _ _ hall]
    rfl

theorem placed_updateDomain (domain : ContainmentDomain) (expected : TopologyGeneration) (hn : AllNamed i.state.topology)
    (h : Placed i.state.topology) :
    Placed (updateDomain clk domain expected i).impl.state.topology ↔ UpdatesCleanly domain expected i := by
  rcases updateDomain_cases clk domain expected (i := i) with ⟨himpl, hnone⟩ | ⟨previous, stored, hok, hmembers, htop⟩
  · rw [himpl, UpdatesCleanly, hnone]
    exact iff_of_true h fun previous hp => by simp at hp
  obtain ⟨hprevious, hall⟩ := admitUpdateDomain_ok hok
  have hid := hn.containment domain.id previous hprevious
  have hhas : ∀ k, (containmentDomains.placeMembers domain.id domain.members i.state.topology.resources).has k =
      i.state.topology.resources.has k := fun k => OrderedMap.has_updateAll _ _ _ _
  have hagree : (∀ k ∈ droppedMembers previous.members domain.members, i.state.topology.resources.has k = true) → _ :=
    fun hdropped => @agree_replace _ _ containmentDomains _ _ domain.id previous stored (fun _ => rfl) hid hprevious
      (fun k hk => hall k (hmembers ▸ hk)) (fun k hk => hdropped k (hmembers ▸ hk)) h.containment
  rw [htop, UpdatesCleanly, hok]
  simp only [Except.toOption, Option.mem_def, Option.some.injEq, forall_eq']
  simp only [containmentDomains, hmembers] at hagree
  constructor
  · intro h'
    have hregistered : ∀ k ∈ droppedMembers previous.members domain.members, i.state.topology.resources.has k = true :=
      fun k hk => hhas k ▸ registered_of_keyed containmentDomains hid h'.keys k hk
    obtain ⟨hfree, hstays⟩ := (hagree hregistered).mp h'.containment
    exact ⟨hfree, fun k hk => ⟨hregistered k hk, hstays k hk⟩⟩
  · rintro ⟨hfree, hdrops⟩
    have hregistered : ∀ k ∈ droppedMembers previous.members domain.members,
        (containmentDomains.placeMembers domain.id domain.members i.state.topology.resources).has k = true :=
      fun k hk => (hhas k).trans (hdrops k hk).1
    have hfollow : ∀ {α : Type} {p : ResourceRecord → α}, (∀ r a, p (containmentDomains.place r a) = p r) →
        Follow p i.state.topology.resources (containmentDomains.displaceMembers domain.id
          (droppedMembers previous.members domain.members)
          (containmentDomains.placeMembers domain.id domain.members i.state.topology.resources)) := by
      intro α p hp k r' hr'
      obtain ⟨r, hr, hsame⟩ := follow_displaced containmentDomains (displaced_elsewhere _ domain.id hp) hregistered k r' hr'
      obtain ⟨r0, hr0, hsame0⟩ := Follow.updateAll _ domain.members (fun r => hp r domain.id) k r hr
      exact ⟨r0, hr0, hsame.trans hsame0⟩
    exact {
      keys := h.keys.follow (hfollow fun _ _ => rfl)
      containment := (hagree fun k hk => (hdrops k hk).1).mpr ⟨hfree, fun k hk => (hdrops k hk).2⟩
      isolation := h.isolation.follow (hfollow fun _ _ => rfl)
      failure := h.failure.follow (hfollow fun _ _ => rfl) }

theorem named_updateDomain (domain : ContainmentDomain) (expected : TopologyGeneration) (h : AllNamed i.state.topology) :
    AllNamed (updateDomain clk domain expected i).impl.state.topology := by
  rcases updateDomain_cases clk domain expected (i := i) with ⟨himpl, -⟩ | ⟨previous, stored, hok, -, htop⟩
  · rw [himpl]
    exact h
  · rw [htop]
    have hid := h.containment domain.id previous (admitUpdateDomain_ok hok).1
    exact { h with containment := h.containment.insert hid }

/-! ### Resources -/

/-- no domain lists the new resource but the ones it names -/
def JoinsCleanly (record : ResourceRecord) (i : Impl) : Prop :=
  ∀ _ ∈ (admitRegisterResource record i).toOption,
    ListedOnly containmentDomains i.state.topology.containmentDomains record.containmentDomain record.id ∧
      ListedOnly isolationDomains i.state.topology.isolationDomains record.isolationDomain record.id ∧
      ListedOnly failureDomains i.state.topology.failureDomains record.failureDomain record.id

instance (record : ResourceRecord) (i : Impl) : Decidable (JoinsCleanly record i) :=
  inferInstanceAs (Decidable (∀ _ ∈ _, _ ∧ _ ∧ _))

/-- what an admitted registration found -/
theorem admitRegisterResource_ok {record : ResourceRecord} (h : admitRegisterResource record i = .ok ()) :
    record.id.valid = true ∧ i.state.topology.resources.has record.id = false ∧
      (record.containmentDomain.valid = true → i.state.topology.containmentDomains.has record.containmentDomain = true) ∧
      (record.isolationDomain.valid = true → i.state.topology.isolationDomains.has record.isolationDomain = true) ∧
      (record.failureDomain.valid = true → i.state.topology.failureDomains.has record.failureDomain = true) := by
  unfold admitRegisterResource at h
  dsimp only at h
  split_ifs at h with hvalid _ hhas hc hi hf
  exact ⟨hvalid, Bool.eq_false_iff.mpr hhas, fun hv => by_contra fun hn => hc ⟨hv, hn⟩,
    fun hv => by_contra fun hn => hi ⟨hv, hn⟩, fun hv => by_contra fun hn => hf ⟨hv, hn⟩⟩

/-- the topology a registration leaves -/
theorem registerResource_topology {record : ResourceRecord} (h : admitRegisterResource record i = .ok ()) :
    ∃ stored : ResourceRecord,
      stored = { record with generation := nextGeneration record.generation, updatedAtMs := clk 0 } ∧
      (registerResource clk record i).impl.state.topology =
        { i.state.topology with
          resources := i.state.topology.resources.insert record.id stored
          containmentDomains :=
            containmentDomains.join record.containmentDomain record.id i.state.topology.containmentDomains
          isolationDomains :=
            isolationDomains.join record.isolationDomain record.id i.state.topology.isolationDomains
          failureDomains := failureDomains.join record.failureDomain record.id i.state.topology.failureDomains } := by
  let stored : ResourceRecord := { record with generation := nextGeneration record.generation, updatedAtMs := clk 0 }
  refine ⟨stored, rfl, ?_⟩
  rw [← OrderedMap.emplace_new _ stored ((OrderedMap.has_eq_false _ _).mp (admitRegisterResource_ok h).2.1)]
  unfold registerResource
  rw [h]
  dsimp only
  split_ifs <;> rfl

theorem registerResource_refused {record : ResourceRecord} {e : Error} (h : admitRegisterResource record i = .error e) :
    (registerResource clk record i).impl = i := by
  unfold registerResource
  rw [h]
  rfl

theorem placed_registerResource (record : ResourceRecord) (hn : AllNamed i.state.topology)
    (h : Placed i.state.topology) :
    Placed (registerResource clk record i).impl.state.topology ↔ JoinsCleanly record i := by
  cases hadmitted : admitRegisterResource record i with
  | error e =>
    rw [registerResource_refused clk hadmitted, JoinsCleanly, hadmitted]
    exact iff_of_true h fun _ hp => by simp [Except.toOption] at hp
  | ok =>
    obtain ⟨hvalid, -, hc, hi, hf⟩ := admitRegisterResource_ok hadmitted
    obtain ⟨stored, hstored, htop⟩ := registerResource_topology clk hadmitted
    have hplaces : places stored = places record := by rw [hstored]; rfl
    simp only [places, Prod.mk.injEq] at hplaces
    obtain ⟨hid, hpc, hpi, hpf⟩ := hplaces
    have hkeys : Keyed (i.state.topology.resources.insert record.id stored) := h.keys.insert hvalid hid
    have hagreec := @agree_join _ _ containmentDomains i.state.topology.resources i.state.topology.containmentDomains _
      record.id stored
    have hagreei := @agree_join _ _ isolationDomains i.state.topology.resources i.state.topology.isolationDomains _
      record.id stored
    have hagreef := @agree_join _ _ failureDomains i.state.topology.resources i.state.topology.failureDomains _
      record.id stored
    simp only [containmentDomains, isolationDomains, failureDomains, hpc, hpi, hpf] at hagreec hagreei hagreef
    rw [htop, JoinsCleanly, hadmitted]
    simp only [Except.toOption, Option.mem_def, forall_const]
    constructor
    · intro h'
      exact ⟨(hagreec hc hn.containment h.containment).mp h'.containment,
        (hagreei hi hn.isolation h.isolation).mp h'.isolation, (hagreef hf hn.failure h.failure).mp h'.failure⟩
    · rintro ⟨hlc, hli, hlf⟩
      exact ⟨hkeys, (hagreec hc hn.containment h.containment).mpr hlc, (hagreei hi hn.isolation h.isolation).mpr hli,
        (hagreef hf hn.failure h.failure).mpr hlf⟩

/-- an admitted replacement moves the resource cleanly in all three kinds -/
def RelocatesCleanly (record : ResourceRecord) (expected : ResourceGeneration) (i : Impl) : Prop :=
  ∀ previous ∈ (admitResource "resource.update" record.id expected i).toOption,
    MovesCleanly containmentDomains i.state.topology.containmentDomains previous.containmentDomain record.containmentDomain
        record.id ∧
      MovesCleanly isolationDomains i.state.topology.isolationDomains previous.isolationDomain record.isolationDomain
        record.id ∧
      MovesCleanly failureDomains i.state.topology.failureDomains previous.failureDomain record.failureDomain record.id

instance (record : ResourceRecord) (expected : ResourceGeneration) (i : Impl) :
    Decidable (RelocatesCleanly record expected i) :=
  inferInstanceAs (Decidable (∀ previous ∈ _, _ ∧ _ ∧ _))

/-- a replacement is refused, or the record moves from where it was to where the caller says -/
theorem updateResource_cases (record : ResourceRecord) (expected : ResourceGeneration) :
    (updateResource clk record expected i).impl = i ∧
        (admitResource "resource.update" record.id expected i).toOption = none ∨
      ∃ previous stored : ResourceRecord, admitResource "resource.update" record.id expected i = .ok previous ∧
        stored = { record with generation := nextGeneration record.generation, updatedAtMs := clk 0 } ∧
        (updateResource clk record expected i).impl.state.topology =
          { i.state.topology with
            resources := i.state.topology.resources.insert record.id stored
            containmentDomains := containmentDomains.moveMembership previous.containmentDomain record.containmentDomain
              record.id i.state.topology.containmentDomains
            isolationDomains := isolationDomains.moveMembership previous.isolationDomain record.isolationDomain
              record.id i.state.topology.isolationDomains
            failureDomains := failureDomains.moveMembership previous.failureDomain record.failureDomain
              record.id i.state.topology.failureDomains } := by
  unfold updateResource
  cases hadmitted : admitResource "resource.update" record.id expected i with
  | error e => exact .inl ⟨rfl, rfl⟩
  | ok previous =>
    let stored : ResourceRecord := { record with generation := nextGeneration record.generation, updatedAtMs := clk 0 }
    exact .inr ⟨previous, stored, rfl, rfl, rfl⟩

theorem placed_updateResource (record : ResourceRecord) (expected : ResourceGeneration) (h : Placed i.state.topology) :
    Placed (updateResource clk record expected i).impl.state.topology ↔ RelocatesCleanly record expected i := by
  rcases updateResource_cases clk record expected (i := i) with ⟨himpl, hnone⟩ | ⟨previous, stored, hok, hstored, htop⟩
  · rw [himpl, RelocatesCleanly, hnone]
    exact iff_of_true h fun _ hp => by simp at hp
  have hfind := admitResource_ok hok
  have hplaces : places stored = places record := by rw [hstored]; rfl
  simp only [places, Prod.mk.injEq] at hplaces
  obtain ⟨hid, hpc, hpi, hpf⟩ := hplaces
  have hkeys : Keyed (i.state.topology.resources.insert record.id stored) :=
    h.keys.insert (h.keys record.id previous hfind).1 hid
  have hagreec := @agree_move _ _ containmentDomains _ _ record.id previous stored hfind h.containment
  have hagreei := @agree_move _ _ isolationDomains _ _ record.id previous stored hfind h.isolation
  have hagreef := @agree_move _ _ failureDomains _ _ record.id previous stored hfind h.failure
  simp only [containmentDomains, isolationDomains, failureDomains, hpc, hpi, hpf] at hagreec hagreei hagreef
  rw [htop, RelocatesCleanly, hok]
  simp only [Except.toOption, Option.mem_def, Option.some.injEq, forall_eq']
  constructor
  · intro h'
    exact ⟨hagreec.mp h'.containment, hagreei.mp h'.isolation, hagreef.mp h'.failure⟩
  · rintro ⟨hmc, hmi, hmf⟩
    exact ⟨hkeys, hagreec.mpr hmc, hagreei.mpr hmi, hagreef.mpr hmf⟩

/-- a removal is refused, or the record is erased, its edges are too, and the domains it names let go of it -/
theorem removeResource_cases (id : ResourceId) (expected : ResourceGeneration) :
    (removeResource clk id expected i).impl = i ∨
      ∃ removed : ResourceRecord, i.state.topology.resources.find id = some removed ∧
        (removeResource clk id expected i).impl.state.topology =
          { i.state.topology with
            resources := i.state.topology.resources.erase id
            containmentDomains :=
              containmentDomains.leave removed.containmentDomain id i.state.topology.containmentDomains
            isolationDomains := isolationDomains.leave removed.isolationDomain id i.state.topology.isolationDomains
            failureDomains := failureDomains.leave removed.failureDomain id i.state.topology.failureDomains
            dependencies := (edgesOf i.state.topology.dependencies id).foldl eraseEdge
              (rebuildIndexes i.state.topology.dependencies) } := by
  unfold removeResource
  cases hadmitted : admitResource "resource.remove" id expected i with
  | error e => exact .inl rfl
  | ok removed =>
    dsimp only
    split_ifs
    · exact .inl rfl
    · exact .inr ⟨removed, admitResource_ok hadmitted, rfl⟩

theorem placed_removeResource (id : ResourceId) (expected : ResourceGeneration) (h : Placed i.state.topology) :
    Placed (removeResource clk id expected i).impl.state.topology := by
  rcases removeResource_cases clk id expected (i := i) with himpl | ⟨removed, hfind, htop⟩
  · rw [himpl]
    exact h
  · rw [htop]
    exact {
      keys := h.keys.erase
      containment := h.containment.leave _
      isolation := h.isolation.leave _
      failure := h.failure.leave _ }

theorem named_registerResource (record : ResourceRecord) (h : AllNamed i.state.topology) :
    AllNamed (registerResource clk record i).impl.state.topology := by
  cases hadmitted : admitRegisterResource record i with
  | error e =>
    rw [registerResource_refused clk hadmitted]
    exact h
  | ok =>
    obtain ⟨-, -, hc, hi, hf⟩ := admitRegisterResource_ok hadmitted
    obtain ⟨stored, -, htop⟩ := registerResource_topology clk hadmitted
    rw [htop]
    exact ⟨h.containment.join hc, h.isolation.join hi, h.failure.join hf⟩

theorem named_updateResource (record : ResourceRecord) (expected : ResourceGeneration) (h : AllNamed i.state.topology) :
    AllNamed (updateResource clk record expected i).impl.state.topology := by
  rcases updateResource_cases clk record expected (i := i) with ⟨himpl, -⟩ | ⟨previous, stored, -, -, htop⟩
  · rw [himpl]
    exact h
  · rw [htop]
    exact ⟨h.containment.move, h.isolation.move, h.failure.move⟩

theorem named_removeResource (id : ResourceId) (expected : ResourceGeneration) (h : AllNamed i.state.topology) :
    AllNamed (removeResource clk id expected i).impl.state.topology := by
  rcases removeResource_cases clk id expected (i := i) with himpl | ⟨removed, -, htop⟩
  · rw [himpl]
    exact h
  · rw [htop]
    exact ⟨h.containment.leave, h.isolation.leave, h.failure.leave⟩

end Kinds

/-! ## Every operation -/

/-- **The condition.** What an operation must find for the copies to stay in agreement; the operations not listed keep them
in agreement whatever they find. -/
def KeepsPlaces : Op → Impl → Prop
  | .registerDomain domain, i => ClaimsWhole domain i
  | .updateDomain domain expected, i => UpdatesCleanly domain expected i
  | .removeDomain id expected, i => DropsRegistered (.removeDomain id expected) i
  | .registerIsolationDomain domain, i => TakesUnplaced isolationDomains domain i
  | .removeIsolationDomain id expected, i => DropsRegistered (.removeIsolationDomain id expected) i
  | .registerFailureDomain domain, i => TakesUnplaced failureDomains domain i
  | .removeFailureDomain id expected, i => DropsRegistered (.removeFailureDomain id expected) i
  | .registerResource record, i => JoinsCleanly record i
  | .updateResource record expected, i => RelocatesCleanly record expected i
  | _, _ => True

instance (op : Op) (i : Impl) : Decidable (KeepsPlaces op i) := by
  unfold KeepsPlaces
  split <;> infer_instance

/-- the operations that edit domains, placements or dependencies -/
def editsGraph : Op → Bool
  | .registerDomain _ | .updateDomain _ _ | .removeDomain _ _ | .registerIsolationDomain _ | .removeIsolationDomain _ _
  | .registerFailureDomain _ | .removeFailureDomain _ _ | .registerResource _ | .updateResource _ _
  | .removeResource _ _ | .registerDependency _ | .removeDependency _ _ => true
  | _ => false

/-- any other operation leaves domains, placements and dependencies as they are -/
theorem quiet_after (c : Call) (i : Impl) (h : editsGraph c.op = false) :
    Quiet i.state.topology (c.after i).state.topology := by
  have hframe := frame_run c i
  obtain ⟨clk, op⟩ := c
  have hfixed : .topology ∉ op.parts → Quiet i.state.topology (Call.after ⟨clk, op⟩ i).state.topology :=
    fun hp => .of_eq (hframe.topology hp)
  cases op with
  | registerDomain _ | updateDomain _ _ | removeDomain _ _ | registerIsolationDomain _ | removeIsolationDomain _ _
  | registerFailureDomain _ | removeFailureDomain _ _ | registerResource _ | updateResource _ _ | removeResource _ _
  | registerDependency _ | removeDependency _ _ =>
    exact absurd h.symm Bool.false_ne_true
  | publishResourceEvidence id expected freshness sequence mechanism source =>
    exact quiet_publishResourceEvidence clk id expected freshness sequence mechanism source i
  | registerWorker worker boot endpoint sequence => exact quiet_registerWorker clk worker boot endpoint sequence i
  | beginEpoch nowMs reason => exact ⟨.mapVals _ fun _ => rfl, rfl, rfl, rfl, rfl⟩
  | authorizeContainment id expected => exact quiet_authorizeContainment clk id expected i
  | recordActionResult result => exact quiet_recordActionResult clk result i
  | authorizeRelease request => exact quiet_authorizeRelease clk request i
  | authorityLost worker boot detail time => exact quiet_authorityLost clk worker boot detail time i
  | setPolicy _ | retireWorker _ _ _ | publishFault _ | supersedeFault _ _ _ | dispatchBegin _ _ | dispatchEnd _ _
  | recordActionAck _ | verifyContainment _ | authorizeDegradedMode _ | revalidateDegradedMode _ | noteAuthorityLoss _ _
  | requestShutdown | persistenceFault _ =>
    exact hfixed (by simp [Op.parts])

/-- a dependency is registered or nothing happens -/
theorem registerDependency_cases (clk : Clock) (edge : DependencyEdge) (i : Impl) :
    (registerDependency clk edge i).impl = i ∨ admitRegisterDependency edge i = .ok () ∧
      (registerDependency clk edge i).impl.state.topology = { i.state.topology with
        dependencies := insertEdge i.state.topology.dependencies
          { edge with generation := nextGeneration edge.generation } } := by
  unfold registerDependency
  split
  · exact .inl rfl
  · next hadmitted => exact .inr ⟨hadmitted, rfl⟩

/-- a dependency is removed or nothing happens -/
theorem removeDependency_cases (clk : Clock) (id : DependencyId) (expected : DependencyGeneration) (i : Impl) :
    (removeDependency clk id expected i).impl = i ∨
      (removeDependency clk id expected i).impl.state.topology =
        { i.state.topology with dependencies := eraseEdge i.state.topology.dependencies id } := by
  unfold removeDependency
  split
  · exact .inl rfl
  · split_ifs
    · exact .inl rfl
    · exact .inr rfl

/-- an edit of the dependencies moves nobody -/
theorem placed_dependencies {top : Topology} (h : Placed top) (g : DependencyGraph) :
    Placed { top with dependencies := g } := { h with }

theorem named_dependencies {top : Topology} (h : AllNamed top) (g : DependencyGraph) :
    AllNamed { top with dependencies := g } := { h with }

/-- every operation leaves the domains with valid identities -/
theorem named_after (c : Call) (i : Impl) (h : AllNamed i.state.topology) : AllNamed (c.after i).state.topology := by
  cases hedits : editsGraph c.op with
  | false => exact (quiet_after c i hedits).named h
  | true =>
    obtain ⟨clk, op⟩ := c
    cases op with
    | registerDomain domain => exact named_registerDomain clk domain h
    | updateDomain domain expected => exact named_updateDomain clk domain expected h
    | removeDomain id expected => exact named_removeDomain clk id expected h
    | registerIsolationDomain domain => exact named_registerIsolationDomain clk domain h
    | removeIsolationDomain id expected => exact named_removeIsolationDomain clk id expected h
    | registerFailureDomain domain => exact named_registerFailureDomain clk domain h
    | removeFailureDomain id expected => exact named_removeFailureDomain clk id expected h
    | registerResource record => exact named_registerResource clk record h
    | updateResource record expected => exact named_updateResource clk record expected h
    | removeResource id expected => exact named_removeResource clk id expected h
    | registerDependency edge =>
      show AllNamed (registerDependency clk edge i).impl.state.topology
      rcases registerDependency_cases clk edge i with himpl | ⟨-, htop⟩
      · rw [himpl]
        exact h
      · rw [htop]
        exact named_dependencies h _
    | removeDependency id expected =>
      show AllNamed (removeDependency clk id expected i).impl.state.topology
      rcases removeDependency_cases clk id expected i with himpl | htop
      · rw [himpl]
        exact h
      · rw [htop]
        exact named_dependencies h _
    | _ => exact absurd hedits (by simp [editsGraph])

/-- **Step.** From a state where the copies agree, an operation leaves them in agreement exactly under its condition. -/
theorem placed_after_iff (c : Call) (i : Impl) (hn : AllNamed i.state.topology) (h : Placed i.state.topology) :
    Placed (c.after i).state.topology ↔ KeepsPlaces c.op i := by
  cases hedits : editsGraph c.op with
  | false =>
    have hplaced := (quiet_after c i hedits).placed h
    obtain ⟨clk, op⟩ := c
    refine iff_of_true hplaced ?_
    cases op <;> trivial
  | true =>
    obtain ⟨clk, op⟩ := c
    cases op with
    | registerDomain domain => exact placed_registerDomain clk domain h
    | updateDomain domain expected => exact placed_updateDomain clk domain expected hn h
    | removeDomain id expected => exact placed_removeDomain clk hn h
    | registerIsolationDomain domain => exact placed_registerIsolationDomain clk domain h
    | removeIsolationDomain id expected => exact placed_removeIsolationDomain clk hn h
    | registerFailureDomain domain => exact placed_registerFailureDomain clk domain h
    | removeFailureDomain id expected => exact placed_removeFailureDomain clk hn h
    | registerResource record => exact placed_registerResource clk record hn h
    | updateResource record expected => exact placed_updateResource clk record expected h
    | removeResource id expected => exact iff_of_true (placed_removeResource clk id expected h) trivial
    | registerDependency edge =>
      refine iff_of_true ?_ trivial
      show Placed (registerDependency clk edge i).impl.state.topology
      rcases registerDependency_cases clk edge i with himpl | ⟨-, htop⟩
      · rw [himpl]
        exact h
      · rw [htop]
        exact placed_dependencies h _
    | removeDependency id expected =>
      refine iff_of_true ?_ trivial
      show Placed (removeDependency clk id expected i).impl.state.topology
      rcases removeDependency_cases clk id expected i with himpl | htop
      · rw [himpl]
        exact h
      · rw [htop]
        exact placed_dependencies h _
    | _ => exact absurd hedits (by simp [editsGraph])

end FaultContainment.Membership
