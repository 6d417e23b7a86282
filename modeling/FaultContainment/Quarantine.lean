/-
The quarantine invariant: a live containment holds its mandatory resources.

Every operation falls under one of three rules. Most keep every fence and leave the mandatory sets alone (`Passes`); a
commitment fences what it makes mandatory; a granted release lifts one fence and takes the resource off its containment.

- `QuarantineInv`: records under their own keys, mandatory sets sorted and apart from the released ones, members fenced.
- `quarantineInv_after`: each operation keeps it, as long as it drops only registered members from a domain.
- `lifted_after`: the one operation that lifts a fence.
-/
import FaultContainment.Lib.Runs
import FaultContainment.Engine.Ops

namespace FaultContainment.Quarantine

open FaultContainment.Lib FaultContainment.Ids FaultContainment.Enums FaultContainment.Records
open FaultContainment.BlastRadius FaultContainment.Engine

abbrev Resources := OrderedMap ResourceId ResourceRecord
abbrev Containments := OrderedMap ContainmentGeneration ContainmentRecord

/-- the fence around a resource -/
def Fenced (r : ResourceRecord) : Prop := r.quarantined = true ∧ isContained r.state = true

/-! ## Keeping fences -/

/-- no fenced record disappears or loses its fence -/
structure Keeps (m m' : Resources) : Prop where
  keyed : OrderedMap.Keyed ResourceRecord.id m → OrderedMap.Keyed ResourceRecord.id m'
  fenced : ∀ k r, m.find k = some r → Fenced r → ∃ r', m'.find k = some r' ∧ Fenced r'

/-- an edit of a record that keeps its identity and its fence -/
def KeepsRecord (f : ResourceRecord → ResourceRecord) : Prop := ∀ r, (f r).id = r.id ∧ (Fenced r → Fenced (f r))

namespace Keeps

variable {m m' m'' : Resources}

theorem refl (m : Resources) : Keeps m m := ⟨id, fun _ r h hf => ⟨r, h, hf⟩⟩

theorem trans (h : Keeps m m') (h' : Keeps m' m'') : Keeps m m'' := by
  refine ⟨h'.keyed ∘ h.keyed, fun k r hr hf => ?_⟩
  obtain ⟨r', hr', hf'⟩ := h.fenced k r hr hf
  exact h'.fenced k r' hr' hf'

theorem insert {k : ResourceId} {r r' : ResourceRecord} (hr : m.find k = some r) (hid : r'.id = r.id)
    (hf : Fenced r → Fenced r') : Keeps m (m.insert k r') := by
  constructor
  · exact fun hk => hk.insert (by rw [hid, hk k r hr])
  · intro a v ha hv
    rw [OrderedMap.find_insert]
    split_ifs with h
    · subst h
      obtain rfl := Option.some.inj (hr.symm.trans ha)
      exact ⟨r', rfl, hf hv⟩
    · exact ⟨v, ha, hv⟩

theorem emplace (m : Resources) {k : ResourceId} {r : ResourceRecord} (hid : r.id = k) : Keeps m (m.emplace k r) := by
  constructor
  · exact fun hk => hk.emplace hid
  · intro a v ha hv
    rw [OrderedMap.find_emplace, if_neg (by rintro ⟨rfl, hn⟩; simp [hn] at ha)]
    exact ⟨v, ha, hv⟩

theorem update (m : Resources) (k : ResourceId) {f : ResourceRecord → ResourceRecord} (hf : KeepsRecord f) :
    Keeps m (m.update k f) := by
  unfold OrderedMap.update
  split
  · next r hr => exact insert hr (hf r).1 (hf r).2
  · exact refl m

theorem updateAll (m : Resources) (ks : List ResourceId) {f : ResourceRecord → ResourceRecord} (hf : KeepsRecord f) :
    Keeps m (m.updateAll ks f) := by
  induction ks generalizing m with
  | nil => exact refl m
  | cons k ks ih => exact (update m k hf).trans (ih _)

theorem subscriptAll (m : Resources) {ks : List ResourceId} {f : ResourceRecord → ResourceRecord} (hf : KeepsRecord f)
    (h : ∀ k ∈ ks, m.has k = true) : Keeps m (m.subscriptAll ks f) := by
  rw [OrderedMap.subscriptAll_eq_updateAll m ks f h]
  exact updateAll m ks hf

theorem mapVals (m : Resources) {f : ResourceRecord → ResourceRecord} (hf : KeepsRecord f) :
    Keeps m (m.mapVals fun _ r => f r) := by
  constructor
  · exact fun hk => hk.mapVals fun _ r => (hf r).1
  · intro a v ha hv
    exact ⟨f v, by rw [OrderedMap.find_mapVals, ha]; rfl, (hf v).2 hv⟩

end Keeps

/-! ## Containments that only move on -/

/-- every containment was there before with the same members, and none came back to life -/
def Follows (cs cs' : Containments) : Prop :=
  ∀ g c', cs'.find g = some c' → ∃ c, cs.find g = some c ∧ c'.generation = c.generation ∧
    c'.mandatory = c.mandatory ∧ c'.released = c.released ∧
    (containmentIsLive c'.status = true → containmentIsLive c.status = true)

theorem Follows.refl (cs : Containments) : Follows cs cs := fun _ c h => ⟨c, h, rfl, rfl, rfl, id⟩

/-- fences kept, members unchanged -/
structure Passes (s s' : RuntimeSnapshot) : Prop where
  keeps : Keeps s.topology.resources s'.topology.resources
  follows : Follows s.containments s'.containments

theorem Passes.refl (s : RuntimeSnapshot) : Passes s s := ⟨Keeps.refl _, Follows.refl _⟩

theorem Passes.trans {s s' s'' : RuntimeSnapshot} (h : Passes s s') (h' : Passes s' s'') : Passes s s'' := by
  refine ⟨h.keeps.trans h'.keeps, fun g c'' hc'' => ?_⟩
  obtain ⟨c', hc', hg', hm', hr', hl'⟩ := h'.follows g c'' hc''
  obtain ⟨c, hc, hg, hm, hr, hl⟩ := h.follows g c' hc'
  exact ⟨c, hc, hg'.trans hg, hm'.trans hm, hr'.trans hr, hl ∘ hl'⟩

/-- an operation that leaves resources and containments alone -/
theorem Passes.of_eq {s s' : RuntimeSnapshot} (hr : s'.topology.resources = s.topology.resources)
    (hc : s'.containments = s.containments) : Passes s s' := by
  refine ⟨?_, ?_⟩
  · rw [hr]; exact Keeps.refl _
  · rw [hc]; exact Follows.refl _

/-- an operation that edits resources only -/
theorem Passes.of_keeps {s s' : RuntimeSnapshot} (hr : Keeps s.topology.resources s'.topology.resources)
    (hc : s'.containments = s.containments) : Passes s s' := ⟨hr, hc ▸ Follows.refl _⟩

/-- a commit adds history only -/
theorem Passes.commit {α : Type} {s : RuntimeSnapshot} {i : Impl} (h : Passes s i.state) (time : UInt64)
    (entry : HistoryEvent) (before : List DurableEvent.Event) (event : Option HistoryEvent → DurableEvent.Event)
    (after : List DurableEvent.Event) (a : α) : Passes s (commit i time entry before event after a).impl.state :=
  ⟨h.keeps, h.follows⟩

/-! ## The invariant -/

structure QuarantineInv (s : RuntimeSnapshot) : Prop where
  keyed : OrderedMap.Keyed ResourceRecord.id s.topology.resources
  containmentsKeyed : OrderedMap.Keyed ContainmentRecord.generation s.containments
  sorted : ∀ g c, s.containments.find g = some c → SortedSet c.mandatory
  apart : ∀ g c, s.containments.find g = some c → ∀ r ∈ c.mandatory, r ∉ c.released
  held : ∀ g c, s.containments.find g = some c → containmentIsLive c.status = true → ∀ k ∈ c.mandatory,
    ∃ r, s.topology.resources.find k = some r ∧ Fenced r

theorem QuarantineInv.passes {s s' : RuntimeSnapshot} (h : QuarantineInv s) (hp : Passes s s') : QuarantineInv s' where
  keyed := hp.keeps.keyed h.keyed
  containmentsKeyed g c' hc' := by
    obtain ⟨c, hc, hgen, -⟩ := hp.follows g c' hc'
    rw [hgen, h.containmentsKeyed g c hc]
  sorted g c' hc' := by
    obtain ⟨c, hc, -, hm, -⟩ := hp.follows g c' hc'
    exact hm ▸ h.sorted g c hc
  apart g c' hc' k hk := by
    obtain ⟨c, hc, -, hm, hr, -⟩ := hp.follows g c' hc'
    rw [hr]
    exact h.apart g c hc k (hm ▸ hk)
  held g c' hc' hl k hk := by
    obtain ⟨c, hc, -, hm, -, hlive⟩ := hp.follows g c' hc'
    obtain ⟨r, hr, hf⟩ := h.held g c hc (hlive hl) k (hm ▸ hk)
    exact hp.keeps.fenced k r hr hf

/-! ## Topology operations -/

section Grouped

variable {t : IdTag} {D : Type} (g : Grouping t D)

theorem unplaced_fields {r r' : ResourceRecord} (h : unplaced r' = unplaced r) :
    r'.id = r.id ∧ r'.quarantined = r.quarantined ∧ r'.state = r.state := by
  have hid := congrArg ResourceRecord.id h
  have hq := congrArg ResourceRecord.quarantined h
  have hs := congrArg ResourceRecord.state h
  exact ⟨hid, hq, hs⟩

theorem keepsRecord_of_unplaced {f : ResourceRecord → ResourceRecord} (hf : ∀ r, unplaced (f r) = unplaced r) :
    KeepsRecord f := by
  intro r
  obtain ⟨hid, hq, hs⟩ := unplaced_fields (hf r)
  exact ⟨hid, fun h => ⟨hq ▸ h.1, hs ▸ h.2⟩⟩

theorem keepsRecord_place (id : Id t) : KeepsRecord fun r => g.place r id :=
  keepsRecord_of_unplaced fun r => g.unplaced_place r id

theorem unplaced_displace (id : Id t) (r : ResourceRecord) : unplaced (g.displace id r) = unplaced r := by
  unfold Grouping.displace
  split_ifs
  · exact g.unplaced_place r {}
  · rfl

theorem keepsRecord_displace (id : Id t) : KeepsRecord (g.displace id) :=
  keepsRecord_of_unplaced (unplaced_displace g id)

@[simp] theorem edit_resources (i : Impl) (f : OrderedMap (Id t) D → OrderedMap (Id t) D) :
    (g.edit i f).state.topology.resources = i.state.topology.resources := g.resources_setDomains _ _

@[simp] theorem edit_containments (i : Impl) (f : OrderedMap (Id t) D → OrderedMap (Id t) D) :
    (g.edit i f).state.containments = i.state.containments := rfl

theorem passes_register (normalize : D → D) (clk : Clock) (domain : D) (i : Impl) :
    Passes i.state (g.register normalize clk domain i).impl.state := by
  unfold Grouping.register
  split
  · exact Passes.refl _
  · split
    · exact Passes.refl _
    · refine Passes.commit (Passes.of_keeps ?_ ?_) _ _ _ _ _ _
      · rw [edit_resources]
        exact Keeps.updateAll _ _ (keepsRecord_place g _)
      · rfl

theorem passes_unregister (notFound advanced : String) (clk : Clock) (id : Id t) (expected : TopologyGeneration)
    (i : Impl) (h : ∀ d, (g.domains i.state.topology).find id = some d → expected.valid = true →
      g.generation d = expected → ∀ k ∈ g.members d, i.state.topology.resources.has k = true) :
    Passes i.state (g.unregister notFound advanced clk id expected i).impl.state := by
  unfold Grouping.unregister
  split
  · exact Passes.refl _
  · next d hd =>
    split_ifs with hc
    · exact Passes.refl _
    · rw [not_or, not_not, ne_eq, not_not] at hc
      have he : (g.edit i fun m => m.erase id).advanceTopology.state.topology.resources = i.state.topology.resources :=
        edit_resources g i fun m => m.erase id
      refine Passes.commit (Passes.of_keeps ?_ ?_) _ _ _ _ _ _
      · show Keeps i.state.topology.resources (g.displaceMembers id (g.members d)
          (g.edit i fun m => m.erase id).advanceTopology.state.topology.resources)
        rw [he]
        exact Keeps.subscriptAll _ (keepsRecord_displace g id) (h d hd hc.1 hc.2)
      · rfl

end Grouped

theorem keeps_claimMembers (id : ContainmentDomainId) (members : IdSet .resourceId) (m : Resources) :
    Keeps m (claimMembers id members m).1 := by
  induction members generalizing m with
  | nil => exact Keeps.refl m
  | cons k members ih =>
    unfold claimMembers
    split
    · exact ih m
    · next r hr =>
      split_ifs
      · exact Keeps.refl m
      · refine Keeps.trans (Keeps.insert hr ?_ ?_) (ih _)
        · rfl
        · exact fun h => h

theorem passes_registerDomain (clk : Clock) (domain : ContainmentDomain) (i : Impl) :
    Passes i.state (registerDomain clk domain i).impl.state := by
  unfold registerDomain
  split
  · exact Passes.refl _
  · split
    · exact Passes.refl _
    · have hk := keeps_claimMembers domain.id domain.members i.state.topology.resources
      dsimp only
      split
      · exact Passes.of_keeps hk rfl
      · exact Passes.of_keeps hk rfl

/-- what an admitted update found -/
theorem admitUpdateDomain_ok {domain previous : ContainmentDomain} {expected : TopologyGeneration} {i : Impl}
    (h : admitUpdateDomain domain expected i = .ok previous) :
    i.state.topology.containmentDomains.find domain.id = some previous ∧
      ∀ k ∈ domain.members, i.state.topology.resources.has k = true := by
  unfold admitUpdateDomain at h
  split at h
  · simp at h
  · next d hd =>
    split_ifs at h
    split at h
    · simp at h
    · next hall =>
      obtain rfl := Except.ok.inj h
      refine ⟨hd, fun k hk => ?_⟩
      have := List.find?_eq_none.mp hall k hk
      simpa only [Bool.not_eq_true', Bool.not_eq_false] using this

theorem passes_updateDomain (clk : Clock) (domain : ContainmentDomain) (expected : TopologyGeneration) (i : Impl)
    (h : ∀ previous, admitUpdateDomain domain expected i = .ok previous →
      ∀ k ∈ droppedMembers previous.members domain.members, i.state.topology.resources.has k = true) :
    Passes i.state (updateDomain clk domain expected i).impl.state := by
  unfold updateDomain
  split
  · exact Passes.refl _
  · next previous hp =>
    refine Passes.of_keeps ?_ rfl
    have hall := (admitUpdateDomain_ok hp).2
    have hplace : KeepsRecord fun r => { r with containmentDomain := domain.id } := fun r => ⟨rfl, fun h => h⟩
    have hsub := OrderedMap.subscriptAll_eq_updateAll i.state.topology.resources domain.members
      (fun r => { r with containmentDomain := domain.id }) hall
    refine (Keeps.subscriptAll _ hplace hall).trans (Keeps.subscriptAll _ (keepsRecord_displace _ _) fun k hk => ?_)
    show (i.state.topology.resources.subscriptAll domain.members _).has k = true
    rw [hsub, OrderedMap.has_updateAll]
    exact h previous hp k hk

theorem passes_registerResource (clk : Clock) (record : ResourceRecord) (i : Impl) :
    Passes i.state (registerResource clk record i).impl.state := by
  unfold registerResource
  split
  · exact Passes.refl _
  · dsimp only
    split_ifs <;> exact Passes.of_keeps (Keeps.emplace i.state.topology.resources rfl) rfl

/-- what an admitted request on a resource found -/
theorem admitResource_ok {stage : String} {id : ResourceId} {expected : ResourceGeneration} {i : Impl}
    {r : ResourceRecord} (h : admitResource stage id expected i = .ok r) :
    i.state.topology.resources.find id = some r := by
  unfold admitResource at h
  split at h
  · simp at h
  · next r' hr =>
    split_ifs at h
    rw [hr, Except.ok.inj h]

theorem admitEvidence_ok {id : ResourceId} {expected : ResourceGeneration} {sequence : EvidenceSequence} {i : Impl}
    {r : ResourceRecord} (h : admitEvidence id expected sequence i = .ok r) :
    i.state.topology.resources.find id = some r := by
  unfold admitEvidence at h
  split at h
  · simp at h
  · next r' hr =>
    split_ifs at h
    rw [hr, Except.ok.inj h]

theorem passes_registerDependency (clk : Clock) (edge : DependencyEdge) (i : Impl) :
    Passes i.state (registerDependency clk edge i).impl.state := by
  unfold registerDependency
  split
  · exact Passes.refl _
  · exact Passes.of_eq rfl rfl

theorem passes_removeDependency (clk : Clock) (id : DependencyId) (expected : DependencyGeneration) (i : Impl) :
    Passes i.state (removeDependency clk id expected i).impl.state := by
  unfold removeDependency
  split
  · exact Passes.refl _
  · split
    · exact Passes.refl _
    · exact Passes.of_eq rfl rfl

theorem passes_setPolicy (clk : Clock) (policy : ContainmentPolicy) (i : Impl) :
    Passes i.state (setPolicy clk policy i).impl.state := by
  unfold setPolicy
  split
  · exact Passes.refl _
  · exact Passes.of_eq rfl rfl

theorem keepsRecord_withEvidence (time : UInt64) (freshness : EvidenceFreshness) (sequence : EvidenceSequence)
    (mechanism : ContainmentMechanism) : KeepsRecord (withEvidence time freshness sequence mechanism) := by
  refine fun r => ⟨rfl, fun h => ⟨h.1, ?_⟩⟩
  simp only [withEvidence, h.1, Bool.not_true, Bool.false_eq_true, false_and, if_false]
  exact h.2

theorem passes_publishResourceEvidence (clk : Clock) (id : ResourceId) (expected : ResourceGeneration)
    (freshness : EvidenceFreshness) (sequence : EvidenceSequence) (mechanism : ContainmentMechanism) (source : Text)
    (i : Impl) :
    Passes i.state (publishResourceEvidence clk id expected freshness sequence mechanism source i).impl.state := by
  unfold publishResourceEvidence
  split
  · exact Passes.refl _
  · next r hr =>
    have hk := keepsRecord_withEvidence (clk 0) freshness sequence mechanism r
    exact Passes.of_keeps (Keeps.insert (admitEvidence_ok hr) hk.1 hk.2) rfl

/-! ## Workers and epochs -/

theorem keepsRecord_freshness (f : EvidenceFreshness) :
    KeepsRecord fun r : ResourceRecord => { r with freshness := f } := fun _ => ⟨rfl, fun h => h⟩

theorem passes_revokePrevious (clk : Clock) (worker : WorkerId) (boot : WorkerBootId) (i : Impl) :
    Passes i.state (revokePrevious clk worker boot i).1.state := by
  unfold revokePrevious
  split
  · exact Passes.refl _
  · split
    · exact Passes.refl _
    · split
      · exact Passes.refl _
      · exact Passes.of_keeps (Keeps.updateAll _ _ (keepsRecord_freshness _)) rfl

theorem passes_registerWorker (clk : Clock) (worker : WorkerId) (boot : WorkerBootId) (endpoint : Text)
    (sequence : EvidenceSequence) (i : Impl) :
    Passes i.state (registerWorker clk worker boot endpoint sequence i).impl.state := by
  have hfresh : ∀ j : Impl, Passes j.state (registerFresh clk worker boot endpoint sequence j).impl.state := by
    intro j
    have h := passes_revokePrevious clk worker boot j
    exact ⟨h.keeps, h.follows⟩
  unfold registerWorker
  split
  · exact Passes.refl _
  · split
    · exact Passes.refl _
    · split
      · exact hfresh i
      · split
        · have h := hfresh (i.withIncarnations (i.state.workers.incarnations.erase ⟨worker, boot⟩))
          exact ⟨h.keeps, h.follows⟩
        · split
          · exact Passes.refl _
          · split
            · exact Passes.of_eq rfl rfl
            · exact Passes.refl _

theorem passes_retireWorker (clk : Clock) (worker : WorkerId) (boot : WorkerBootId) (reason : Text) (i : Impl) :
    Passes i.state (retireWorker clk worker boot reason i).impl.state := by
  unfold retireWorker
  split
  · exact Passes.refl _
  · split
    · exact Passes.refl _
    · exact Passes.of_eq rfl rfl

theorem passes_beginEpoch (clk : Clock) (nowMs : UInt64) (reason : Text) (i : Impl) :
    Passes i.state (beginEpoch clk nowMs reason i).impl.state :=
  Passes.of_keeps (Keeps.mapVals _ (keepsRecord_freshness .revalidationRequired)) rfl

/-- an edit that changes some records, keeping identities and fences -/
def KeepsEdit (f : ResourceRecord → Option ResourceRecord) : Prop :=
  ∀ r r', f r = some r' → r'.id = r.id ∧ (Fenced r → Fenced r')

theorem Keeps.editMap (m : Resources) (ks : List ResourceId) {f : ResourceRecord → Option ResourceRecord}
    (hf : KeepsEdit f) : Keeps m (editMap f ks m) := by
  induction ks generalizing m with
  | nil => exact Keeps.refl m
  | cons k ks ih =>
    rw [editMap_cons]
    split
    · exact ih m
    · next r' hr =>
      obtain ⟨r, hfind, hfr⟩ := Option.bind_eq_some_iff.mp hr
      exact (Keeps.insert hfind (hf r r' hfr).1 (hf r r' hfr).2).trans (ih _)

theorem passes_editEach {f : ResourceRecord → Option ResourceRecord} (hf : KeepsEdit f) (ks : List ResourceId)
    (i : Impl) : Passes i.state (editEach f ks i).1.state := by
  obtain ⟨g, h⟩ := editEach_frame f ks i
  rw [h]
  exact Passes.of_keeps (Keeps.editMap _ ks hf) rfl

theorem fenced_fenceLost (time : UInt64) (r : ResourceRecord) : Fenced (fenceLost time r) := ⟨rfl, rfl⟩

theorem passes_authorityLost (clk : Clock) (worker : WorkerId) (boot : WorkerBootId) (detail : Text) (at_ : UInt64)
    (i : Impl) : Passes i.state (authorityLost clk worker boot detail at_ i).impl.state := by
  have hf : KeepsEdit fun r => some (fenceLost (clk 1) r) := by
    intro r r' h
    obtain rfl := Option.some.inj h
    exact ⟨rfl, fun _ => fenced_fenceLost _ r⟩
  unfold authorityLost
  split
  · exact Passes.refl _
  · split
    · exact Passes.refl _
    · dsimp only
      generalize hs : lossSubject _ = subject
      by_cases hv : subject.valid = true
      · rw [if_neg (not_not.mpr hv)]
        refine Passes.commit (Passes.trans ?_ (passes_editEach hf _ _)) _ _ _ _ _ _
        exact Passes.of_eq rfl rfl
      · rw [if_pos hv]
        exact Passes.of_eq rfl rfl

/-! ## Faults, dispatch, verification, degraded modes -/

theorem passes_publishFault (clk : Clock) (evidence : FaultEvidence) (i : Impl) :
    Passes i.state (publishFault clk evidence i).impl.state := by
  have ha : (allocateFault evidence i).state = i.state := by
    unfold allocateFault
    split_ifs <;> rfl
  unfold publishFault
  split
  · exact Passes.refl _
  · split
    · exact Passes.refl _
    · dsimp only
      revert ha
      generalize allocateFault evidence i = j
      intro ha
      rw [← ha]
      split
      · exact Passes.refl _
      · split
        · exact Passes.of_eq rfl rfl
        · split
          · exact Passes.refl _
          · exact Passes.of_eq rfl rfl

theorem passes_supersedeFault (clk : Clock) (id : FaultId) (expected : FaultGeneration) (reason : Text) (i : Impl) :
    Passes i.state (supersedeFault clk id expected reason i).impl.state := by
  unfold supersedeFault
  split
  · exact Passes.refl _
  · exact Passes.of_eq rfl rfl

theorem passes_dispatchOne (clk : Clock) (record : ContainmentRecord) (d : Dispatch) (id : ActionId) :
    Passes d.impl.state (dispatchOne clk record d id).impl.state := by
  unfold dispatchOne
  split
  · exact Passes.refl _
  · split
    · exact Passes.refl _
    · split
      · exact Passes.of_eq rfl rfl
      · exact Passes.of_eq rfl rfl

theorem passes_settleOne (clk : Clock) (d : Dispatch) (attempt : Attempt) :
    Passes d.impl.state (settleOne clk d attempt).impl.state := by
  unfold settleOne
  split
  · exact Passes.refl _
  · split
    · exact Passes.refl _
    · split
      · exact Passes.of_eq rfl rfl
      · exact Passes.of_eq rfl rfl

/-- a loop of dispatch rounds -/
theorem passes_foldl {α : Type} {f : Dispatch → α → Dispatch} (hf : ∀ d a, Passes d.impl.state (f d a).impl.state)
    (as : List α) (d : Dispatch) : Passes d.impl.state (as.foldl f d).impl.state := by
  induction as generalizing d with
  | nil => exact Passes.refl _
  | cons a as ih => exact (hf d a).trans (ih (f d a))

theorem passes_dispatchBegin (clk : Clock) (generation : ContainmentGeneration) (executorAttached : Bool) (i : Impl) :
    Passes i.state (dispatchBegin clk generation executorAttached i).impl.state := by
  unfold dispatchBegin
  split
  · exact Passes.refl _
  · exact passes_foldl (passes_dispatchOne clk _) _ { impl := i, summary := { containmentGeneration := generation } }

theorem passes_dispatchEnd (clk : Clock) (attempts : List Attempt) (summary : DispatchSummary) (i : Impl) :
    Passes i.state (dispatchEnd clk attempts summary i).impl.state :=
  passes_foldl (passes_settleOne clk) attempts { impl := i, summary := summary }

theorem passes_recordActionAck (clk : Clock) (ack : ActionAcknowledgment) (i : Impl) :
    Passes i.state (recordActionAck clk ack i).impl.state := by
  unfold recordActionAck
  split
  · exact Passes.refl _
  · split
    · exact Passes.refl _
    · split
      · exact Passes.refl _
      · exact Passes.of_eq rfl rfl

theorem passes_recordActionResult (clk : Clock) (result : ActionResult) (i : Impl) :
    Passes i.state (recordActionResult clk result i).impl.state := by
  have hf : KeepsEdit fun r => some (withResult result.mechanism r) := by
    intro r r' h
    obtain rfl := Option.some.inj h
    exact ⟨rfl, fun h => h⟩
  unfold recordActionResult
  split
  · exact Passes.refl _
  · split
    · exact Passes.refl _
    · split
      · exact Passes.refl _
      · dsimp only
        split
        · refine Passes.commit (Passes.trans ?_ (passes_editEach hf _ _)) _ _ _ _ _ _
          exact Passes.of_eq rfl rfl
        · exact Passes.of_eq rfl rfl

theorem passes_stageFault (id : FaultId) (f : Option FaultRecord) (i : Impl) :
    Passes i.state (stageFault id f i).1.state := by
  unfold stageFault
  split
  · exact Passes.refl _
  · exact Passes.of_eq rfl rfl

/-- a verification moves a live containment on, and nothing else -/
theorem follows_withVerification {cs : Containments} {generation : ContainmentGeneration} {record : ContainmentRecord}
    (h : cs.find generation = some record) (hl : containmentIsLive record.status = true) (time : UInt64)
    (v : ContainmentVerification) : Follows cs (cs.insert generation (withVerification time v record)) := by
  intro g c' hc'
  rw [OrderedMap.find_insert] at hc'
  split_ifs at hc' with hg
  · obtain rfl := Option.some.inj hc'
    exact ⟨record, hg ▸ h, rfl, rfl, rfl, fun _ => hl⟩
  · exact ⟨c', hc', rfl, rfl, rfl, id⟩

theorem passes_verifyContainment (clk : Clock) (generation : ContainmentGeneration) (i : Impl) :
    Passes i.state (verifyContainment clk generation i).impl.state := by
  unfold verifyContainment
  split
  · exact Passes.refl _
  · next record hr =>
    have hadmitted : i.state.containments.find generation = some record ∧ containmentIsLive record.status = true := by
      unfold admitVerify at hr
      split at hr
      · simp at hr
      · next record' hrec =>
        split_ifs at hr with hl
        obtain rfl := Except.ok.inj hr
        exact ⟨hrec, hl⟩
    have hv := follows_withVerification hadmitted.1 hadmitted.2 (clk 0) (verificationOf i.state record generation (clk 0))
    refine Passes.commit (Passes.trans ?_ (passes_stageFault record.fault _ _)) _ _ _ _ _ _
    exact ⟨Keeps.refl _, hv⟩

theorem passes_authorizeDegradedMode (clk : Clock) (contract : DegradedModeContract) (i : Impl) :
    Passes i.state (authorizeDegradedMode clk contract i).impl.state := by
  unfold authorizeDegradedMode
  split
  · exact Passes.refl _
  · dsimp only
    split
    · exact Passes.of_eq rfl rfl
    · exact Passes.of_eq rfl rfl

theorem passes_revalidateDegradedMode (clk : Clock) (id : DegradedModeId) (i : Impl) :
    Passes i.state (revalidateDegradedMode clk id i).impl.state := by
  unfold revalidateDegradedMode
  split
  · exact Passes.refl _
  · exact Passes.of_eq rfl rfl

/-! ## Removal, commitment, release -/

/-- a resource that no live containment lists may go -/
theorem QuarantineInv.erases {s s' : RuntimeSnapshot} (h : QuarantineInv s) (id : ResourceId)
    (hr : s'.topology.resources = s.topology.resources.erase id) (hc : s'.containments = s.containments)
    (hfree : ∀ g c, s.containments.find g = some c → containmentIsLive c.status = true → id ∉ c.mandatory) :
    QuarantineInv s' where
  keyed := hr ▸ h.keyed.erase id
  containmentsKeyed := hc ▸ h.containmentsKeyed
  sorted := hc ▸ h.sorted
  apart := hc ▸ h.apart
  held := by
    rw [hr, hc]
    intro g c hg hl k hk
    have hne : id ≠ k := by rintro rfl; exact hfree g c hg hl hk
    rw [OrderedMap.find_erase, if_neg hne]
    exact h.held g c hg hl k hk

theorem quarantineInv_removeResource (clk : Clock) (id : ResourceId) (expected : ResourceGeneration) (i : Impl)
    (h : QuarantineInv i.state) : QuarantineInv (removeResource clk id expected i).impl.state := by
  unfold removeResource
  split
  · exact h
  · split_ifs with hheld
    · exact h
    · refine h.erases id ?_ ?_ fun g c hc hl hk => hheld ?_
      · simp only [commit_topology, Impl.advanceTopology_topology, Impl.withResources_resources, edit_resources,
          Impl.withDependencies_resources]
      · simp only [commit_containments, Impl.advanceTopology_containments, Impl.withResources_containments,
          edit_containments, Impl.withDependencies_containments]
      unfold heldBy
      refine List.any_eq_true.mpr ⟨c, (OrderedMap.mem_vals _ c).mpr ⟨g, hc⟩, ?_⟩
      rw [hl, (idSetContains_iff (h.sorted g c hc) id).mpr hk]
      rfl

/-- a commitment that fences its mandatory resources -/
theorem QuarantineInv.commits {s s' : RuntimeSnapshot} (h : QuarantineInv s)
    (hk : Keeps s.topology.resources s'.topology.resources) (record : ContainmentRecord)
    (hc : s'.containments = s.containments.emplace record.generation record) (hs : SortedSet record.mandatory)
    (hr : record.released = [])
    (hf : ∀ k ∈ record.mandatory, ∃ r, s'.topology.resources.find k = some r ∧ Fenced r) : QuarantineInv s' := by
  have hcase : ∀ g c, s'.containments.find g = some c →
      (g = record.generation ∧ c = record) ∨ s.containments.find g = some c := by
    intro g c hg
    rw [hc, OrderedMap.find_emplace] at hg
    split_ifs at hg with hnew
    · exact .inl ⟨hnew.1.symm, (Option.some.inj hg).symm⟩
    · exact .inr hg
  refine ⟨hk.keyed h.keyed, fun g c hg => ?_, fun g c hg => ?_, fun g c hg => ?_, fun g c hg => ?_⟩
  · obtain ⟨rfl, rfl⟩ | hold := hcase g c hg
    · rfl
    · exact h.containmentsKeyed g c hold
  · obtain ⟨rfl, rfl⟩ | hold := hcase g c hg
    · exact hs
    · exact h.sorted g c hold
  · obtain ⟨rfl, rfl⟩ | hold := hcase g c hg
    · simp [hr]
    · exact h.apart g c hold
  · obtain ⟨rfl, rfl⟩ | hold := hcase g c hg
    · exact fun _ => hf
    · intro hl k hkm
      obtain ⟨r, hfind, hfr⟩ := h.held g c hold hl k hkm
      exact hk.fenced k r hfind hfr

/-- an edit that fences reaches every registered resource it lists -/
theorem editMap_fences {f : ResourceRecord → ResourceRecord} (hf : ∀ r, (f r).id = r.id ∧ Fenced (f r))
    (ks : List ResourceId) (m : Resources) {k : ResourceId} (hk : k ∈ ks) (hm : m.has k = true) :
    ∃ r, (editMap (fun r => some (f r)) ks m).find k = some r ∧ Fenced r := by
  have hedit : KeepsEdit fun r => some (f r) := by
    intro r r' h
    obtain rfl := Option.some.inj h
    exact ⟨(hf r).1, fun _ => (hf r).2⟩
  induction ks generalizing m with
  | nil => simp at hk
  | cons a ks ih =>
    obtain ⟨r, hr⟩ := (OrderedMap.has_iff m k).mp hm
    rw [editMap_cons]
    by_cases hak : a = k
    · subst hak
      rw [hr]
      exact (Keeps.editMap _ ks hedit).fenced a (f r) (OrderedMap.find_insert_self m a (f r)) (hf r).2
    · refine ih _ ((List.mem_cons.mp hk).resolve_left (Ne.symm hak)) ?_
      split
      · exact hm
      · next r' _ => exact (OrderedMap.has_iff _ k).mpr ⟨r, by rw [OrderedMap.find_insert_ne m r' hak, hr]⟩

theorem fenced_fence (time : UInt64) (workers : WorkerRegistry) (generation : ContainmentGeneration) (quarantine : Bool)
    (r : ResourceRecord) : Fenced (fence time workers generation quarantine r) := by
  refine ⟨rfl, ?_⟩
  show isContained (if quarantine = true then _ else _) = true
  split_ifs <;> rfl

/-- draining leaves contained resources alone -/
theorem keepsEdit_drain (time : UInt64) : KeepsEdit (drain time) := by
  intro r r' h
  unfold drain at h
  split_ifs at h with ho
  obtain rfl := Option.some.inj h
  refine ⟨rfl, fun hf => ?_⟩
  have hc := hf.2
  unfold isOperable at ho
  cases hs : r.state <;> rw [hs] at ho hc <;> simp [isContained] at ho hc

/-- the resources a commitment leaves -/
theorem commitContainment_resources (clk : Clock) (id : FaultId) (fault : FaultRecord) (radius : Records.BlastRadius)
    (i : Impl) :
    (commitContainment clk id fault radius i).impl.state.topology.resources =
      editMap (drain (clk 0)) radius.precautionary
        (editMap (fun r => some (fence (clk 0) i.state.workers radius.generation
          (outcomeQuarantines radius.recommended) r)) radius.mandatory i.state.topology.resources) := by
  unfold commitContainment
  dsimp only [commit_topology]
  rw [planActions_resources, editEach_resources, editEach_resources]
  rfl

/-- the record a commitment adds -/
theorem commitContainment_containments (clk : Clock) (id : FaultId) (fault : FaultRecord)
    (radius : Records.BlastRadius) (i : Impl) : ∃ actions status,
    (commitContainment clk id fault radius i).impl.state.containments =
      i.state.containments.emplace radius.generation
        { newContainment (clk 0) id fault radius i with actions := actions, degradedStatus := status } := by
  unfold commitContainment
  dsimp only [commit_containments]
  rw [planActions_containments, editEach_containments, editEach_containments]
  exact ⟨_, _, rfl⟩

theorem quarantineInv_authorizeContainment (clk : Clock) (id : FaultId) (expected : FaultGeneration) (i : Impl)
    (h : QuarantineInv i.state) : QuarantineInv (authorizeContainment clk id expected i).impl.state := by
  unfold authorizeContainment
  split
  · exact h
  · next fault _ =>
    split
    · exact h
    · next radius hr =>
      have hradius := admitRadius_ok hr
      obtain ⟨actions, status, hc⟩ := commitContainment_containments clk id fault radius i
      let f := fence (clk 0) i.state.workers radius.generation (outcomeQuarantines radius.recommended)
      have hf : ∀ r, (f r).id = r.id ∧ Fenced (f r) := fun r => ⟨rfl, fenced_fence _ _ _ _ r⟩
      have hdrain := Keeps.editMap (editMap (fun r => some (f r)) radius.mandatory i.state.topology.resources)
        radius.precautionary (keepsEdit_drain (clk 0))
      refine h.commits ?_ { newContainment (clk 0) id fault radius i with actions := actions, degradedStatus := status }
        hc ?_ rfl fun k hk => ?_
      · rw [commitContainment_resources]
        refine (Keeps.editMap _ _ ?_).trans hdrain
        rintro r r' h
        obtain rfl := Option.some.inj h
        exact ⟨(hf r).1, fun _ => (hf r).2⟩
      · exact mandatory_sorted hradius
      · obtain ⟨r, hfind, hr⟩ := editMap_fences hf radius.mandatory i.state.topology.resources hk
          (mandatory_registered h.keyed hradius hk)
        rw [commitContainment_resources]
        exact hdrain.fenced k r hfind hr

/-- the only live containment that lists a resource whose release is granted is the one it is released from -/
theorem generation_of_granted {s : RuntimeSnapshot} (h : QuarantineInv s) {g g' : ContainmentGeneration}
    {live : ContainmentRecord} {k : ResourceId} (hg : s.containments.find g = some live)
    (hl : containmentIsLive live.status = true) (hk : k ∈ live.mandatory) (hother : heldElsewhere s g' k = false) :
    g = g' := by
  by_contra hne
  have hnone := List.any_eq_false.mp hother (g, live) ((OrderedMap.mem_toList _ g live).mpr hg)
  have hin : idSetContains live.mandatory k = true := (idSetContains_iff (h.sorted g live hg) k).mpr hk
  have hout : idSetContains live.released k = false := by
    by_contra hcon
    exact h.apart g live hg k hk (mem_of_idSetContains (by simpa using hcon))
  simp [hne, hl, hin, hout] at hnone

/-- a release that no other live containment stands against -/
theorem QuarantineInv.releases {s s' : RuntimeSnapshot} (h : QuarantineInv s) {g : ContainmentGeneration}
    {c : ContainmentRecord} {id : ResourceId} {r r' : ResourceRecord} (time : UInt64)
    (hr : s.topology.resources.find id = some r) (hid : r'.id = r.id)
    (hres : s'.topology.resources = s.topology.resources.insert id r') (hc : s.containments.find g = some c)
    (hcs : s'.containments = s.containments.insert g (takeOff time id c)) (hother : heldElsewhere s g id = false) :
    QuarantineInv s' := by
  have hsort := h.sorted g c hc
  have hcase : ∀ g' c', s'.containments.find g' = some c' →
      (g' = g ∧ c' = takeOff time id c) ∨ (g' ≠ g ∧ s.containments.find g' = some c') := by
    intro g' c' hg'
    rw [hcs, OrderedMap.find_insert] at hg'
    split_ifs at hg' with hg
    · exact .inl ⟨hg.symm, (Option.some.inj hg').symm⟩
    · exact .inr ⟨Ne.symm hg, hg'⟩
  refine ⟨?_, fun g' c' hg' => ?_, fun g' c' hg' => ?_, fun g' c' hg' => ?_, fun g' c' hg' hl k hk => ?_⟩
  · rw [hres]
    exact h.keyed.insert (by rw [hid, h.keyed id r hr])
  · obtain ⟨rfl, rfl⟩ | ⟨-, hold⟩ := hcase g' c' hg'
    · exact h.containmentsKeyed g' c hc
    · exact h.containmentsKeyed g' c' hold
  · obtain ⟨rfl, rfl⟩ | ⟨-, hold⟩ := hcase g' c' hg'
    · exact sorted_idSetErase hsort id
    · exact h.sorted g' c' hold
  · obtain ⟨rfl, rfl⟩ | ⟨-, hold⟩ := hcase g' c' hg'
    · intro k hk
      obtain ⟨hkm, hne⟩ := (mem_idSetErase hsort id k).mp hk
      have hnot := h.apart g' c hc k hkm
      show k ∉ idSetInsert c.released id
      simp [hne, hnot]
    · exact h.apart g' c' hold
  · have hheld : k ≠ id → ∀ g₀ c₀, s.containments.find g₀ = some c₀ → containmentIsLive c₀.status = true →
        k ∈ c₀.mandatory → ∃ r, s'.topology.resources.find k = some r ∧ Fenced r := by
      intro hne g₀ c₀ hc₀ hl₀ hk₀
      rw [hres, OrderedMap.find_insert_ne _ _ (Ne.symm hne)]
      exact h.held g₀ c₀ hc₀ hl₀ k hk₀
    obtain ⟨rfl, rfl⟩ | ⟨hne, hold⟩ := hcase g' c' hg'
    · obtain ⟨hkm, hkid⟩ := (mem_idSetErase hsort id k).mp hk
      refine hheld hkid g' c hc ?_ hkm
      have hs : (takeOff time id c).status = if idSetErase c.mandatory id = [] then .released else c.status := rfl
      rw [hs] at hl
      split_ifs at hl
      · simp [containmentIsLive] at hl
      · exact hl
    · refine hheld ?_ g' c' hold hl hk
      rintro rfl
      exact hne (generation_of_granted h hold hl hk hother)

/-- a release is granted only when every criterion passed -/
theorem judgeCriteria_granted {cs : List Criterion} {a : ReleaseAssessment} (h : (judgeCriteria cs a).granted = true)
    (ha : a.granted = false) : ∀ c ∈ cs, c.finding.passed = true := by
  induction cs generalizing a with
  | nil => simp
  | cons c cs ih =>
    unfold judgeCriteria at h
    dsimp only at h
    split_ifs at h with hp
    · exact List.forall_mem_cons.mpr ⟨hp, ih h ha⟩
    · rw [ha] at h
      simp at h

theorem judgeCriteria_generation (cs : List Criterion) (a : ReleaseAssessment) :
    (judgeCriteria cs a).containmentGeneration = a.containmentGeneration := by
  induction cs generalizing a with
  | nil => rfl
  | cons c cs ih =>
    unfold judgeCriteria
    dsimp only
    split_ifs
    · rw [ih]
    · rfl

/-- a containment a request is about is one on record -/
theorem containmentFor_find {s : RuntimeSnapshot} (h : OrderedMap.Keyed ContainmentRecord.generation s.containments)
    {request : ReleaseRequest} {c : ContainmentRecord} (hc : containmentFor s request = some c) :
    s.containments.find c.generation = some c := by
  unfold containmentFor at hc
  split_ifs at hc
  · rw [h _ c hc, hc]
  · obtain ⟨g, hg⟩ := (OrderedMap.mem_vals _ c).mp (List.mem_of_find?_eq_some hc)
    rw [h g c hg, hg]

/-- one criterion asks whether another live containment needs the resource -/
theorem releaseCriteria_elsewhere (s : RuntimeSnapshot) (request : ReleaseRequest) (r : ResourceRecord)
    (c : ContainmentRecord) : ∃ criterion ∈ releaseCriteria s request r c,
      criterion.finding.passed = !heldElsewhere s c.generation request.resource :=
  ⟨(releaseCriteria s request r c).get ⟨6, by simp [releaseCriteria]⟩, List.get_mem _ _, rfl⟩

/-- what a granted release found -/
theorem assessRelease_granted {s : RuntimeSnapshot} (h : QuarantineInv s) {request : ReleaseRequest}
    (hg : (assessRelease s request).granted = true) : ∃ r c, s.topology.resources.find request.resource = some r ∧
      s.containments.find c.generation = some c ∧
      (assessRelease s request).containmentGeneration = c.generation ∧
      heldElsewhere s c.generation request.resource = false := by
  unfold assessRelease at hg ⊢
  cases hr : s.topology.resources.find request.resource with
  | none => simp [hr] at hg
  | some r =>
    cases hc : containmentFor s request with
    | none => simp [hr, hc] at hg
    | some c =>
      simp only [hr, hc] at hg ⊢
      refine ⟨r, c, rfl, containmentFor_find h.containmentsKeyed hc, judgeCriteria_generation _ _, ?_⟩
      obtain ⟨criterion, hmem, hpassed⟩ := releaseCriteria_elsewhere s request r c
      have hp := judgeCriteria_granted hg rfl criterion hmem
      rw [hpassed] at hp
      simpa using hp

theorem stageFault_resources (id : FaultId) (f : Option FaultRecord) (i : Impl) :
    (stageFault id f i).1.state.topology.resources = i.state.topology.resources := by cases f <;> rfl

theorem stageFault_containments (id : FaultId) (f : Option FaultRecord) (i : Impl) :
    (stageFault id f i).1.state.containments = i.state.containments := by cases f <;> rfl

/-- a known containment loses the resource; the resources stay -/
theorem takeOffContainment_state (clk : Clock) {g : ContainmentGeneration} {c : ContainmentRecord} (id : ResourceId)
    (i : Impl) (hc : i.state.containments.find g = some c) :
    (takeOffContainment clk g id i).1.state.topology.resources = i.state.topology.resources ∧
      (takeOffContainment clk g id i).1.state.containments =
        i.state.containments.insert g (takeOff (clk 2) id c) := by
  unfold takeOffContainment
  rw [hc]
  dsimp only
  split_ifs
  · rw [stageFault_resources, stageFault_containments]
    exact ⟨rfl, rfl⟩
  · exact ⟨rfl, rfl⟩

theorem passes_authorizeRelease (clk : Clock) (request : ReleaseRequest) (i : Impl)
    (hg : (assessRelease i.state request).granted = false) :
    Passes i.state (authorizeRelease clk request i).impl.state := by
  unfold authorizeRelease
  dsimp only
  rw [if_pos (by simp [hg])]
  exact Passes.of_eq rfl rfl

/-- **A granted release.** The resource returns to service and leaves the one containment that held it. -/
theorem authorizeRelease_granted (clk : Clock) (request : ReleaseRequest) (i : Impl) (h : QuarantineInv i.state)
    (hg : (assessRelease i.state request).granted = true) :
    ∃ r c release, i.state.topology.resources.find request.resource = some r ∧
      i.state.containments.find c.generation = some c ∧
      heldElsewhere i.state c.generation request.resource = false ∧
      (authorizeRelease clk request i).impl.state.topology.resources =
        i.state.topology.resources.insert request.resource (returnToService (clk 1) release r) ∧
      (authorizeRelease clk request i).impl.state.containments =
        i.state.containments.insert c.generation (takeOff (clk 2) request.resource c) := by
  obtain ⟨r, c, hr, hc, hgen, hother⟩ := assessRelease_granted h hg
  refine ⟨r, c, nextGeneration i.state.releaseGeneration, hr, hc, hother, ?_⟩
  unfold authorizeRelease
  dsimp only
  rw [if_neg (by simp [hg]), hr]
  dsimp only
  unfold grantRelease
  dsimp only [commit_topology, commit_containments]
  rw [hgen]
  generalize hj : Impl.mk _ _ _ _ _ _ _ _ _ _ _ = j
  have hcj : j.state.containments.find c.generation = some c := by rw [← hj]; exact hc
  obtain ⟨hres, hcs⟩ := takeOffContainment_state clk request.resource j hcj
  rw [hres, hcs, ← hj]
  exact ⟨rfl, rfl⟩

theorem quarantineInv_authorizeRelease (clk : Clock) (request : ReleaseRequest) (i : Impl) (h : QuarantineInv i.state) :
    QuarantineInv (authorizeRelease clk request i).impl.state := by
  cases hg : (assessRelease i.state request).granted with
  | false => exact h.passes (passes_authorizeRelease clk request i hg)
  | true =>
    obtain ⟨r, c, release, hr, hc, hother, hres, hcs⟩ := authorizeRelease_granted clk request i h hg
    exact h.releases (clk 2) hr (show (returnToService (clk 1) release r).id = r.id from rfl) hres hc hcs hother

/-! ## Every operation -/

/-- the members of a domain that `unregister` is about to remove -/
def unregistered {t : IdTag} {D : Type} (g : Grouping t D) (id : Id t) (expected : TopologyGeneration) (i : Impl) :
    IdSet .resourceId :=
  match (g.domains i.state.topology).find id with
  | none => []
  | some d => if expected.valid ∧ g.generation d = expected then g.members d else []

/-- the members that `updateDomain` is about to drop -/
def updateDropped (domain : ContainmentDomain) (expected : TopologyGeneration) (i : Impl) : IdSet .resourceId :=
  match admitUpdateDomain domain expected i with
  | .ok previous => droppedMembers previous.members domain.members
  | .error _ => []

/-- the members an operation is about to take out of a domain -/
def dropped : Op → Impl → IdSet .resourceId
  | .updateDomain domain expected, i => updateDropped domain expected i
  | .removeDomain id expected, i => unregistered containmentDomains id expected i
  | .removeIsolationDomain id expected, i => unregistered isolationDomains id expected i
  | .removeFailureDomain id expected, i => unregistered failureDomains id expected i
  | _, _ => []

/-- every member taken out of a domain is a registered resource -/
def DropsRegistered (op : Op) (i : Impl) : Prop := ∀ k ∈ dropped op i, i.state.topology.resources.has k = true

instance (op : Op) (i : Impl) : Decidable (DropsRegistered op i) :=
  inferInstanceAs (Decidable (∀ k ∈ dropped op i, i.state.topology.resources.has k = true))

/-- `update_resource` -/
def isUpdateResource : Op → Bool
  | .updateResource _ _ => true
  | _ => false

theorem passes_unregister_dropped {t : IdTag} {D : Type} (g : Grouping t D) (notFound advanced : String) (clk : Clock)
    (id : Id t) (expected : TopologyGeneration) (i : Impl)
    (h : ∀ k ∈ unregistered g id expected i, i.state.topology.resources.has k = true) :
    Passes i.state (g.unregister notFound advanced clk id expected i).impl.state := by
  refine passes_unregister g notFound advanced clk id expected i fun d hd hv hgen => ?_
  unfold unregistered at h
  rw [hd] at h
  simpa only [hv, hgen, and_self, if_true] using h

/-- The three rules: every operation keeps the fences, except a removal, a commitment and a release. -/
theorem after_cases (c : Call) (i : Impl) (hu : isUpdateResource c.op = false) (hd : DropsRegistered c.op i) :
    Passes i.state (c.after i).state ∨ (∃ id expected, c.op = .removeResource id expected) ∨
      (∃ id expected, c.op = .authorizeContainment id expected) ∨ (∃ request, c.op = .authorizeRelease request) := by
  obtain ⟨clk, op⟩ := c
  cases op with
  | updateResource _ _ => simp [isUpdateResource] at hu
  | removeResource id expected => exact .inr (.inl ⟨id, expected, rfl⟩)
  | authorizeContainment id expected => exact .inr (.inr (.inl ⟨id, expected, rfl⟩))
  | authorizeRelease request => exact .inr (.inr (.inr ⟨request, rfl⟩))
  | registerDomain domain => exact .inl (passes_registerDomain clk domain i)
  | updateDomain domain expected =>
    refine .inl (passes_updateDomain clk domain expected i fun previous hp => ?_)
    have hd : ∀ k ∈ updateDropped domain expected i, i.state.topology.resources.has k = true := hd
    unfold updateDropped at hd
    rwa [hp] at hd
  | removeDomain id expected => exact .inl (passes_unregister_dropped _ _ _ clk id expected i hd)
  | registerIsolationDomain domain => exact .inl (passes_register _ _ clk domain i)
  | removeIsolationDomain id expected => exact .inl (passes_unregister_dropped _ _ _ clk id expected i hd)
  | registerFailureDomain domain => exact .inl (passes_register _ _ clk domain i)
  | removeFailureDomain id expected => exact .inl (passes_unregister_dropped _ _ _ clk id expected i hd)
  | registerResource record => exact .inl (passes_registerResource clk record i)
  | registerDependency edge => exact .inl (passes_registerDependency clk edge i)
  | removeDependency id expected => exact .inl (passes_removeDependency clk id expected i)
  | setPolicy policy => exact .inl (passes_setPolicy clk policy i)
  | publishResourceEvidence id expected freshness sequence mechanism source =>
    exact .inl (passes_publishResourceEvidence clk id expected freshness sequence mechanism source i)
  | registerWorker worker boot endpoint sequence => exact .inl (passes_registerWorker clk worker boot endpoint sequence i)
  | retireWorker worker boot reason => exact .inl (passes_retireWorker clk worker boot reason i)
  | beginEpoch nowMs reason => exact .inl (passes_beginEpoch clk nowMs reason i)
  | publishFault evidence => exact .inl (passes_publishFault clk evidence i)
  | supersedeFault id expected reason => exact .inl (passes_supersedeFault clk id expected reason i)
  | dispatchBegin generation executorAttached => exact .inl (passes_dispatchBegin clk generation executorAttached i)
  | dispatchEnd attempts summary => exact .inl (passes_dispatchEnd clk attempts summary i)
  | recordActionAck ack => exact .inl (passes_recordActionAck clk ack i)
  | recordActionResult result => exact .inl (passes_recordActionResult clk result i)
  | verifyContainment generation => exact .inl (passes_verifyContainment clk generation i)
  | authorizeDegradedMode contract => exact .inl (passes_authorizeDegradedMode clk contract i)
  | revalidateDegradedMode id => exact .inl (passes_revalidateDegradedMode clk id i)
  | authorityLost worker boot detail time => exact .inl (passes_authorityLost clk worker boot detail time i)
  | noteAuthorityLoss key fault => exact .inl (Passes.of_eq rfl rfl)
  | requestShutdown =>
    refine .inl ?_
    show Passes i.state (requestShutdown clk i).impl.state
    unfold requestShutdown
    split_ifs
    · exact Passes.refl _
    · exact Passes.of_eq rfl rfl
  | persistenceFault e => exact .inl (Passes.of_eq rfl rfl)

/-- **Step.** Every operation but `update_resource` keeps the invariant, unless it drops an unregistered member. -/
theorem quarantineInv_after (c : Call) (i : Impl) (hu : isUpdateResource c.op = false) (hd : DropsRegistered c.op i)
    (h : QuarantineInv i.state) : QuarantineInv (c.after i).state := by
  obtain hp | ⟨id, expected, hop⟩ | ⟨id, expected, hop⟩ | ⟨request, hop⟩ := after_cases c i hu hd
  · exact h.passes hp
  · unfold Call.after
    rw [hop]
    exact quarantineInv_removeResource c.clk id expected i h
  · unfold Call.after
    rw [hop]
    exact quarantineInv_authorizeContainment c.clk id expected i h
  · unfold Call.after
    rw [hop]
    exact quarantineInv_authorizeRelease c.clk request i h

/-! ## Runs -/

/-- every live containment finds its mandatory resources present and fenced -/
def Held (s : RuntimeSnapshot) : Prop :=
  ∀ g c, s.containments.find g = some c → containmentIsLive c.status = true → ∀ k ∈ c.mandatory,
    ∃ r, s.topology.resources.find k = some r ∧ r.quarantined = true ∧ isContained r.state = true

/-- a call lifts the fence of a live member only as a granted release of it, which takes it off the containment -/
def LiftsByRelease (c : Call) (i : Impl) : Prop :=
  ∀ g live, i.state.containments.find g = some live → containmentIsLive live.status = true → ∀ k ∈ live.mandatory,
    (∃ r, (c.after i).state.topology.resources.find k = some r ∧ r.quarantined = true ∧ isContained r.state = true) ∨
      ∃ request, c.op = .authorizeRelease request ∧ request.resource = k ∧
        (assessRelease i.state request).granted = true ∧
        ∃ after, (c.after i).state.containments.find g = some after ∧ k ∉ after.mandatory

/-- a removal leaves the containments alone -/
theorem removeResource_containments (clk : Clock) (id : ResourceId) (expected : ResourceGeneration) (i : Impl) :
    (removeResource clk id expected i).impl.state.containments = i.state.containments := by
  unfold removeResource
  split
  · rfl
  · split_ifs
    · rfl
    · simp only [commit_containments, Impl.advanceTopology_containments, Impl.withResources_containments,
        edit_containments, Impl.withDependencies_containments]

/-- a commitment leaves earlier containments alone -/
theorem authorizeContainment_containments (clk : Clock) (id : FaultId) (expected : FaultGeneration) (i : Impl)
    {g : ContainmentGeneration} {c : ContainmentRecord} (hc : i.state.containments.find g = some c) :
    (authorizeContainment clk id expected i).impl.state.containments.find g = some c := by
  unfold authorizeContainment
  split
  · exact hc
  · next fault _ =>
    split
    · exact hc
    · next radius _ =>
      obtain ⟨actions, status, h⟩ := commitContainment_containments clk id fault radius i
      rw [h, OrderedMap.find_emplace, if_neg (by rintro ⟨rfl, hn⟩; simp [hn] at hc)]
      exact hc

/-- **Step.** Only a granted release lifts a fence. -/
theorem liftsByRelease (c : Call) (i : Impl) (hu : isUpdateResource c.op = false) (hd : DropsRegistered c.op i)
    (h : QuarantineInv i.state) : LiftsByRelease c i := by
  intro g live hg hl k hk
  have hafter := quarantineInv_after c i hu hd h
  obtain ⟨r, hr, hf⟩ := h.held g live hg hl k hk
  obtain hp | ⟨id, expected, hop⟩ | ⟨id, expected, hop⟩ | ⟨request, hop⟩ := after_cases c i hu hd
  · exact .inl (hp.keeps.fenced k r hr hf)
  · refine .inl (hafter.held g live ?_ hl k hk)
    unfold Call.after
    rw [hop]
    exact (congrArg (OrderedMap.find · g) (removeResource_containments c.clk id expected i)).trans hg
  · refine .inl (hafter.held g live ?_ hl k hk)
    unfold Call.after
    rw [hop]
    exact authorizeContainment_containments c.clk id expected i hg
  · have hrun : c.after i = (authorizeRelease c.clk request i).impl := by unfold Call.after; rw [hop]; rfl
    cases hgr : (assessRelease i.state request).granted with
    | false =>
      left
      rw [hrun]
      exact (passes_authorizeRelease c.clk request i hgr).keeps.fenced k r hr hf
    | true =>
      obtain ⟨r₀, c₀, release, hr₀, hc₀, hother, hres, hcs⟩ := authorizeRelease_granted c.clk request i h hgr
      rw [hrun, hres, hcs]
      by_cases hk' : request.resource = k
      · right
        obtain rfl := hk'
        obtain rfl := generation_of_granted h hg hl hk hother
        obtain rfl := Option.some.inj (hg.symm.trans hc₀)
        refine ⟨request, hop, rfl, hgr, takeOff (c.clk 2) request.resource live, OrderedMap.find_insert_self _ _ _, ?_⟩
        exact fun hmem => ((mem_idSetErase (h.sorted _ live hg) _ _).mp hmem).2 rfl
      · left
        rw [OrderedMap.find_insert_ne _ _ hk']
        exact ⟨r, hr, hf⟩

theorem quarantineInv_construct (clk : Clock) (config : Config) : QuarantineInv (construct clk config).state := by
  have hr : (construct clk config).state.topology.resources = ∅ := rfl
  have hc : (construct clk config).state.containments = ∅ := rfl
  constructor
  · intro k r h
    simp [hr] at h
  · intro g c h
    simp [hc] at h
  all_goals
    intro g c h
    simp [hc] at h

/-- **Quarantine.** In every run of the engine without `update_resource` in which no operation takes an unregistered member
out of a domain, the live containments hold their mandatory resources, and only releases lift a fence. -/
theorem held_run (clk : Clock) (config : Config) (calls : List Call)
    (h : Runs.Along Call.after (fun c i => isUpdateResource c.op = false ∧ DropsRegistered c.op i) calls
      (construct clk config)) :
    Held (Runs.run Call.after calls (construct clk config)).state ∧
      Runs.Along Call.after LiftsByRelease calls (construct clk config) := by
  have hstep : ∀ (c : Call) (i : Impl), isUpdateResource c.op = false ∧ DropsRegistered c.op i →
      QuarantineInv i.state → QuarantineInv (c.after i).state := fun c i hc => quarantineInv_after c i hc.1 hc.2
  have h0 := quarantineInv_construct clk config
  exact ⟨(Runs.run_inv hstep h h0).held, Runs.along_of_inv hstep (fun c i hc => liftsByRelease c i hc.1 hc.2) h h0⟩

/-- a domain loses a registered member before the member is contained -/
def registeredMember : List Call := [
  ⟨ticks, .registerResource { id := ⟨5⟩ }⟩,
  ⟨ticks, .registerDomain { id := ⟨1⟩, members := [⟨5⟩] }⟩,
  ⟨ticks, .removeDomain ⟨1⟩ ⟨3⟩⟩,
  ⟨ticks, .publishFault { subject := ⟨5⟩, kind := .processDeath }⟩,
  ⟨ticks, .authorizeContainment ⟨1⟩ {}⟩]

theorem held_run_registeredMember :
    Held (Runs.run Call.after registeredMember (construct ticks {})).state ∧
      Runs.Along Call.after LiftsByRelease registeredMember (construct ticks {}) :=
  held_run ticks {} registeredMember (by decide +kernel)

/-- a domain is registered ahead of its member and removed again; the fault is then on a record nobody registered -/
def inventedMember : List Call := [
  ⟨ticks, .registerDomain { id := ⟨1⟩, members := [⟨5⟩] }⟩,
  ⟨ticks, .removeDomain ⟨1⟩ ⟨2⟩⟩,
  ⟨ticks, .publishFault { subject := ⟨5⟩, kind := .processDeath }⟩,
  ⟨ticks, .authorizeContainment ⟨1⟩ {}⟩]

/-- Without the condition a live containment ends up holding a resource that is not there. -/
theorem held_run_inventedMember :
    ¬ ∀ (clk : Clock) (config : Config) (calls : List Call), (∀ c ∈ calls, isUpdateResource c.op = false) →
      Held (Runs.run Call.after calls (construct clk config)).state ∧
        Runs.Along Call.after LiftsByRelease calls (construct clk config) := by
  intro h
  have hheld := (h ticks {} inventedMember (by decide)).1
  have hlisted : ((Runs.run Call.after inventedMember (construct ticks {})).state.containments.find ⟨1⟩).any
      (fun c => containmentIsLive c.status && c.mandatory.contains ⟨0⟩) = true := by decide +kernel
  have habsent : (Runs.run Call.after inventedMember (construct ticks {})).state.topology.resources.has ⟨0⟩ = false := by
    decide +kernel
  obtain ⟨hsome, hlive⟩ := (Option.any_eq_true_iff_get _ _).mp hlisted
  rw [Bool.and_eq_true, List.contains_iff_mem] at hlive
  obtain ⟨r, hr, -⟩ := hheld ⟨1⟩ _ (Option.some_get hsome).symm hlive.1 ⟨0⟩ hlive.2
  rw [OrderedMap.has_eq_false, hr] at habsent
  simp at habsent

end FaultContainment.Quarantine
