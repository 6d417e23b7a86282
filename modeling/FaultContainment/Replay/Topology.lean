/-
The topology, replayed.

Operations on domains place resources and edit member lists without a record of it, an epoch advance and a fresh boot
distrust evidence without one, and a domain that is taken apart may create records under no identity. What is left of the
topology is followed by every operation: the edges, the resources under a real identity apart from placement and freshness,
and the domains apart from their members.

- `follows_edges`, `kept_after`, `follows_domains`: each operation is followed.
-/
import FaultContainment.References
import FaultContainment.Replay.Commitments

namespace FaultContainment.Replay

open FaultContainment.Lib FaultContainment.Ids FaultContainment.Enums FaultContainment.Records
open FaultContainment.DurableEvent FaultContainment.Engine FaultContainment.References
open FaultContainment.Dependency FaultContainment.Membership
open FaultContainment.Dispatching (frame_fenced fenced plannedBy committed commitContainment_stored)
open FaultContainment.Engine.Grouping (Resources)

/-! ## Dependencies -/

theorem edges_applyEvent (e : Event) (i : Impl)
    (h : e.kind ∉ [DurableEventKind.dependencyUpsert, .dependencyRemove]) :
    (applyEvent e i).state.topology.dependencies.edges = i.state.topology.dependencies.edges := by
  obtain ⟨kind, body, history⟩ := e
  cases kind
  case dependencyUpsert => simp at h
  case dependencyRemove => simp at h
  case history => cases history <;> rfl
  all_goals rfl

def edgeView : View (OrderedMap DependencyId DependencyEdge) where
  see i := i.state.topology.dependencies.edges
  kinds := [.dependencyUpsert, .dependencyRemove]
  deaf := edges_applyEvent

theorem edges_eraseEdge (g : DependencyGraph) (id : DependencyId) : (eraseEdge g id).edges = g.edges.erase id := by
  refine OrderedMap.ext fun k => ?_
  rw [find_eraseEdge, OrderedMap.find_erase]

/-- the edges a replica drops for a removed resource are those the engine drops -/
theorem see_dependencyRemoves (ds : List DependencyId) {g : DependencyGraph} {j : Impl} (hj : edgeView.see j = g.edges) :
    edgeView.see (applyAll (ds.map fun d => ⟨.dependencyRemove, d, none⟩) j) = (ds.foldl eraseEdge g).edges := by
  induction ds generalizing g j with
  | nil => exact hj
  | cons d ds ih =>
    refine ih ?_
    show (eraseEdge j.state.topology.dependencies d).edges = (eraseEdge g d).edges
    rw [edges_eraseEdge, edges_eraseEdge]
    exact congrArg (fun m => m.erase d) hj

theorem follows_edges (c : Call) (i : Impl) : edgeView.Follows c i := by
  have hother : .counters ∉ edgeView.kinds := by simp [edgeView]
  have hstill : (c.after i).state.topology.dependencies = i.state.topology.dependencies →
      edgeView.see (c.after i) = edgeView.see i := fun h => congrArg DependencyGraph.edges h
  cases hedits : editsGraph c.op with
  | false =>
    refine edgeView.follows_foreign ?_ (hstill (quiet_after c i hedits).dependencies)
    obtain ⟨clk, op⟩ := c
    cases op <;> simp [edgeView, Op.kinds, editsGraph] at hedits ⊢
  | true =>
    obtain ⟨clk, op⟩ := c
    cases op with
    | registerDomain domain =>
      exact edgeView.follows_foreign (by simp [edgeView, Op.kinds]) (hstill (grows_registerDomain clk domain i).dependencies)
    | updateDomain domain expected =>
      exact edgeView.follows_foreign (by simp [edgeView, Op.kinds])
        (hstill (grows_updateDomain clk domain expected i).dependencies)
    | removeDomain id expected =>
      exact edgeView.follows_foreign (by simp [edgeView, Op.kinds])
        (hstill (grows_unregister containmentDomains clk id expected i fun _ _ => rfl).dependencies)
    | registerIsolationDomain domain =>
      exact edgeView.follows_foreign (by simp [edgeView, Op.kinds])
        (hstill (grows_registerIsolationDomain clk domain i).dependencies)
    | removeIsolationDomain id expected =>
      exact edgeView.follows_foreign (by simp [edgeView, Op.kinds])
        (hstill (grows_unregister isolationDomains clk id expected i fun _ _ => rfl).dependencies)
    | registerFailureDomain domain =>
      exact edgeView.follows_foreign (by simp [edgeView, Op.kinds])
        (hstill (grows_registerFailureDomain clk domain i).dependencies)
    | removeFailureDomain id expected =>
      exact edgeView.follows_foreign (by simp [edgeView, Op.kinds])
        (hstill (grows_unregister failureDomains clk id expected i fun _ _ => rfl).dependencies)
    | registerResource record =>
      exact edgeView.follows_foreign (by simp [edgeView, Op.kinds])
        (hstill (grows_registerResource clk record i).dependencies)
    | updateResource record expected =>
      exact edgeView.follows_foreign (by simp [edgeView, Op.kinds])
        (hstill (grows_updateResource clk record expected i).dependencies)
    | removeResource id expected =>
      intro j hj
      show edgeView.see (applyAll (removeResource clk id expected i).staged j) =
        edgeView.see (removeResource clk id expected i).impl
      unfold removeResource
      split
      · exact hj
      split
      · exact hj
      · dsimp only
        rw [edgeView.commit hother]
        exact see_dependencyRemoves _ (g := rebuildIndexes i.state.topology.dependencies) hj
    | registerDependency edge =>
      intro j hj
      show edgeView.see (applyAll (registerDependency clk edge i).staged j) =
        edgeView.see (registerDependency clk edge i).impl
      unfold registerDependency
      split
      · exact hj
      · dsimp only
        rw [edgeView.commit_one hother]
        exact congrArg (fun m => OrderedMap.insert m edge.id { edge with generation := nextGeneration edge.generation }) hj
    | removeDependency id expected =>
      intro j hj
      show edgeView.see (applyAll (removeDependency clk id expected i).staged j) =
        edgeView.see (removeDependency clk id expected i).impl
      unfold removeDependency
      split
      · exact hj
      split
      · exact hj
      · dsimp only
        rw [edgeView.commit_one hother]
        show (eraseEdge j.state.topology.dependencies id).edges = (eraseEdge i.state.topology.dependencies id).edges
        rw [edges_eraseEdge, edges_eraseEdge]
        exact congrArg (fun m => m.erase id) hj
    | _ => exact absurd hedits (by simp [editsGraph])

/-! ## Resources -/

/-- a resource as a new epoch finds it, apart from where it is placed -/
def shown (r : ResourceRecord) : ResourceRecord := distrust (unplaced r)

/-- the resources under a real identity; the engine also creates records under none, and stages none of them -/
def known (m : Resources) : Resources := (m.keep fun r => r.id.valid).mapVals fun _ r => shown r

theorem find_known (m : Resources) (k : ResourceId) :
    (known m).find k = ((m.find k).filter fun r => r.id.valid).map shown := by
  unfold known
  rw [OrderedMap.find_mapVals, OrderedMap.find_keep]

theorem known_insert {m : Resources} {k : ResourceId} {r : ResourceRecord} (h : r.id.valid = true) :
    known (m.insert k r) = (known m).insert k (shown r) := by
  refine OrderedMap.ext fun a => ?_
  rw [find_known, OrderedMap.find_insert, OrderedMap.find_insert, find_known]
  split_ifs
  · simp [h]
  · rfl

/-- a record under no identity is not known -/
theorem known_unnamed {m : Resources} {k : ResourceId} {r : ResourceRecord} (h : r.id.valid = false)
    (hm : (known m).find k = none) : known (m.insert k r) = known m := by
  refine OrderedMap.ext fun a => ?_
  rw [find_known, OrderedMap.find_insert]
  split_ifs with ha
  · rw [← ha, hm]
    simp [h]
  · rw [find_known]

theorem known_erase (m : Resources) (k : ResourceId) : known (m.erase k) = (known m).erase k := by
  refine OrderedMap.ext fun a => ?_
  rw [find_known, OrderedMap.find_erase, OrderedMap.find_erase, find_known]
  split_ifs <;> rfl

/-- two records that show the same -/
theorem known_alike {r r' : ResourceRecord} (h : shown r' = shown r) :
    ((some r').filter fun r => r.id.valid).map shown = ((some r).filter fun r => r.id.valid).map shown := by
  have hid : (shown r').id = (shown r).id := congrArg ResourceRecord.id h
  replace hid : r'.id = r.id := hid
  simp only [Option.filter_some, hid]
  split_ifs
  · exact congrArg some h
  · rfl

/-- an edit that does not show -/
theorem known_update {f : ResourceRecord → ResourceRecord} (hf : ∀ r, shown (f r) = shown r) (m : Resources) (k : ResourceId) :
    known (m.update k f) = known m := by
  refine OrderedMap.ext fun a => ?_
  rw [find_known, find_known, OrderedMap.find_update]
  split_ifs
  · cases m.find a with
    | none => rfl
    | some r => exact known_alike (hf r)
  · rfl

theorem known_updateAll {f : ResourceRecord → ResourceRecord} (hf : ∀ r, shown (f r) = shown r) (m : Resources)
    (ks : List ResourceId) : known (m.updateAll ks f) = known m := by
  unfold OrderedMap.updateAll
  induction ks generalizing m with
  | nil => rfl
  | cons k ks ih => exact (ih _).trans (known_update hf m k)

/-- even one that creates the records it does not find -/
theorem known_subscriptAll {f : ResourceRecord → ResourceRecord} (hf : ∀ r, shown (f r) = shown r) (m : Resources)
    (ks : List ResourceId) : known (m.subscriptAll ks f) = known m := by
  unfold OrderedMap.subscriptAll
  induction ks generalizing m with
  | nil => rfl
  | cons k ks ih =>
    refine (ih _).trans (OrderedMap.ext fun a => ?_)
    rw [find_known, find_known, OrderedMap.find_subscript]
    split_ifs with ha
    · rw [← ha]
      cases m.find k with
      | none => exact known_alike (hf default)
      | some r => exact known_alike (hf r)
    · rfl

theorem known_mapVals {f : ResourceRecord → ResourceRecord} (hf : ∀ r, shown (f r) = shown r) (m : Resources) :
    known (m.mapVals fun _ r => f r) = known m := by
  refine OrderedMap.ext fun a => ?_
  rw [find_known, find_known, OrderedMap.find_mapVals]
  cases m.find a with
  | none => rfl
  | some r => exact known_alike (hf r)

/-- a record under a real identity stands under it -/
def Named (m : Resources) : Prop := ∀ k r, m.find k = some r → r.id.valid = true → r.id = k

theorem Named.insert {m : Resources} (h : Named m) {k : ResourceId} {r : ResourceRecord} (hr : r.id.valid = true → r.id = k) :
    Named (m.insert k r) := by
  intro a v hv
  rw [OrderedMap.find_insert] at hv
  split_ifs at hv with ha
  · rw [← Option.some.inj hv, ← ha]
    exact hr
  · exact h a v hv

theorem Named.erase {m : Resources} (h : Named m) (k : ResourceId) : Named (m.erase k) := by
  intro a v hv
  rw [OrderedMap.find_erase] at hv
  split_ifs at hv
  exact h a v hv

/-- nothing is known under no identity -/
theorem Named.unnamed {m : Resources} (h : Named m) {k : ResourceId} (hk : k.valid = false) : (known m).find k = none := by
  rw [find_known]
  cases hfind : m.find k with
  | none => rfl
  | some r =>
    rw [Option.filter_some, if_neg]
    · rfl
    · intro hv
      rw [h k r hfind hv, hk] at hv
      exact Bool.false_ne_true hv

/-- two tables that show the same agree on the names -/
theorem Named.of_known {m m' : Resources} (h : Named m) (hm : known m' = known m) : Named m' := by
  intro k r hr hv
  have hfind := congrArg (OrderedMap.find · k) hm
  rw [find_known, find_known, hr, Option.filter_some, if_pos hv] at hfind
  cases hk : m.find k with
  | none =>
    rw [hk] at hfind
    simp at hfind
  | some p =>
    rw [hk, Option.filter_some] at hfind
    split_ifs at hfind with hp
    · have hid : (shown r).id = (shown p).id := congrArg ResourceRecord.id (Option.some.inj hfind)
      replace hid : r.id = p.id := hid
      rw [hid]
      exact h k p hk hp
    · simp at hfind

theorem resources_applyEvent (e : Event) (i : Impl) (h : e.kind ∉ [DurableEventKind.resourceUpsert, .resourceRemove]) :
    (applyEvent e i).state.topology.resources = i.state.topology.resources := by
  obtain ⟨kind, body, history⟩ := e
  cases kind
  case resourceUpsert => simp at h
  case resourceRemove => simp at h
  case history => cases history <;> rfl
  all_goals rfl

def resourceView : View Resources where
  see i := known i.state.topology.resources
  kinds := [.resourceUpsert, .resourceRemove]
  deaf e i h := congrArg known (resources_applyEvent e i h)

/-- the record of an edited resource is replayed, or neither it nor the resource is known -/
theorem see_edited {m : Resources} (hn : Named m) {k : ResourceId} {p r : ResourceRecord} (hfind : m.find k = some p)
    (hid : r.id = p.id) (h : Option HistoryEvent) {j : Impl} (hj : resourceView.see j = known m) :
    resourceView.see (applyEvent ⟨.resourceUpsert, r, h⟩ j) = known (m.insert k r) := by
  have hj : known j.state.topology.resources = known m := hj
  show known (j.state.topology.resources.insert r.id r) = known (m.insert k r)
  by_cases hv : r.id.valid = true
  · have hk : r.id = k := hid.trans (hn k p hfind (hid ▸ hv))
    rw [hk, known_insert hv, known_insert hv, hj]
  · have hv := Bool.eq_false_of_not_eq_true hv
    have hnone : (known m).find k = none := by
      rw [find_known, hfind, Option.filter_some, if_neg]
      · rfl
      · rw [← hid, hv]
        exact Bool.false_ne_true
    rw [known_unnamed hv hnone, known_unnamed hv, hj]
    rw [hj]
    exact hn.unnamed hv

/-- resources edited one by one are replayed one by one -/
theorem see_editEach {f : ResourceRecord → Option ResourceRecord} (hf : ∀ r r', f r = some r' → r'.id = r.id)
    (ks : List ResourceId) {i j : Impl} (hn : Named i.state.topology.resources) (hj : resourceView.see j = resourceView.see i) :
    resourceView.see (applyAll (editEach f ks i).2 j) = resourceView.see (editEach f ks i).1 ∧
      Named (editEach f ks i).1.state.topology.resources := by
  induction ks generalizing i j with
  | nil => exact ⟨hj, hn⟩
  | cons k ks ih =>
    unfold editEach
    cases hb : (i.state.topology.resources.find k).bind f with
    | none => exact ih hn hj
    | some r =>
      obtain ⟨p, hfind, hfp⟩ := Option.bind_eq_some_iff.mp hb
      have hid := hf p r hfp
      dsimp only
      refine ih ?_ ?_
      · exact hn.insert fun hv => hid.trans (hn k p hfind (hid ▸ hv))
      · exact see_edited hn hfind hid none hj

/-- a resource by resource account of an operation: it is followed, and the names stay -/
structure Kept (c : Call) (i : Impl) : Prop where
  follows : resourceView.Follows c i
  named : Named (c.after i).state.topology.resources

/-- an operation that shows no change and stages no resource -/
theorem Kept.still {c : Call} {i : Impl} (hn : Named i.state.topology.resources)
    (hkinds : ∀ kind ∈ resourceView.kinds, kind ∉ c.op.kinds)
    (h : known (c.after i).state.topology.resources = known i.state.topology.resources) : Kept c i :=
  ⟨resourceView.follows_foreign hkinds h, hn.of_known h⟩

section Grouped

variable {t : IdTag} {D : Type} (g : Grouping t D)

theorem shown_place (r : ResourceRecord) (id : Id t) : shown (g.place r id) = shown r :=
  congrArg distrust (g.unplaced_place r id)

theorem shown_displace (id : Id t) (r : ResourceRecord) : shown (g.displace id r) = shown r :=
  congrArg distrust (Quarantine.unplaced_displace g id r)

theorem known_placeMembers (id : Id t) (ks : IdSet .resourceId) (m : Resources) :
    known (g.placeMembers id ks m) = known m :=
  known_updateAll (fun r => shown_place g r id) m ks

theorem known_displaceMembers (id : Id t) (ks : IdSet .resourceId) (m : Resources) :
    known (g.displaceMembers id ks m) = known m :=
  known_subscriptAll (shown_displace g id) m ks

theorem known_register (normalize : D → D) (clk : Clock) (domain : D) (i : Impl) :
    known (g.register normalize clk domain i).impl.state.topology.resources = known i.state.topology.resources := by
  by_cases hopen : (g.id domain).valid = true ∧ (g.domains i.state.topology).has (g.id domain) = false
  · rw [register_topology g normalize clk hopen.1 hopen.2]
    dsimp only
    rw [g.resources_setDomains]
    exact known_placeMembers g _ _ _
  · rw [register_refused g normalize clk fun hv => Bool.eq_true_of_not_eq_false fun hn => hopen ⟨hv, hn⟩]

theorem known_unregister {notFound advanced : String} (clk : Clock) (id : Id t) (expected : TopologyGeneration) (i : Impl) :
    known (g.unregister notFound advanced clk id expected i).impl.state.topology.resources =
      known i.state.topology.resources := by
  rcases unregister_cases g clk id expected i with ⟨himpl, -⟩ | ⟨d, -, -, htop⟩
  · rw [himpl]
  · rw [htop]
    dsimp only
    rw [g.resources_setDomains]
    exact known_displaceMembers g _ _ _

end Grouped

/-- the records of members that were only placed tell a replica nothing new -/
theorem see_memberEvents (members : IdSet .resourceId) {m : Resources} (hn : Named m) {j : Impl}
    (hj : resourceView.see j = known m) : resourceView.see (applyAll (memberEvents members m) j) = known m := by
  unfold memberEvents
  induction members generalizing j with
  | nil => exact hj
  | cons k ks ih =>
    cases hk : m.find k with
    | none =>
      rw [List.filterMap_cons_none (by rw [hk]; rfl)]
      exact ih hj
    | some r =>
      rw [List.filterMap_cons_some (by rw [hk]; rfl), applyAll_cons]
      refine ih ?_
      rw [see_edited hn hk rfl none hj, OrderedMap.insert_find m hk]

theorem kept_registerDomain (clk : Clock) (domain : ContainmentDomain) {i : Impl} (hn : Named i.state.topology.resources) :
    Kept ⟨clk, .registerDomain domain⟩ i := by
  have hclaimed : known (claimMembers domain.id domain.members i.state.topology.resources).1 =
      known i.state.topology.resources := by
    rw [claimMembers_eq]
    exact known_updateAll (f := fun r => { r with containmentDomain := domain.id }) (fun _ => rfl) _ _
  have hnamed := hn.of_known hclaimed
  have hother : .counters ∉ resourceView.kinds := by simp [resourceView]
  suffices h : resourceView.Follows ⟨clk, .registerDomain domain⟩ i ∧
      known (registerDomain clk domain i).impl.state.topology.resources = known i.state.topology.resources from
    ⟨h.1, hn.of_known h.2⟩
  unfold View.Follows
  show (∀ j, resourceView.see j = resourceView.see i → resourceView.see (applyAll (registerDomain clk domain i).staged j) =
    resourceView.see (registerDomain clk domain i).impl) ∧ _
  unfold registerDomain
  split
  · exact ⟨fun j hj => hj, rfl⟩
  split
  · exact ⟨fun j hj => hj, rfl⟩
  · dsimp only
    split
    · exact ⟨fun j hj => hj.trans hclaimed.symm, hclaimed⟩
    · refine ⟨fun j hj => ?_, hclaimed⟩
      rw [resourceView.commit hother]
      exact see_memberEvents domain.members hnamed (hj.trans hclaimed.symm)

/-- a commitment edits the fenced and the drained resources -/
theorem kept_fencing (clk : Clock) (id : FaultId) (fault : FaultRecord) (radius : Records.BlastRadius) {i j : Impl}
    (hn : Named i.state.topology.resources) (hj : resourceView.see j = resourceView.see i) :
    resourceView.see (applyAll (fencing clk id fault radius i) j) = resourceView.see (fenced clk id fault radius i) ∧
      Named (fenced clk id fault radius i).state.topology.resources := by
  have hfence : ∀ r r', some (fence (clk 0) i.state.workers radius.generation (outcomeQuarantines radius.recommended) r) =
      some r' → r'.id = r.id := by
    intro r r' h
    rw [← Option.some.inj h]
    rfl
  have hdrain : ∀ r r', drain (clk 0) r = some r' → r'.id = r.id := by
    intro r r' h
    unfold drain at h
    split_ifs at h
    rw [← Option.some.inj h]
  obtain ⟨hfenced, hnamed⟩ := see_editEach hfence radius.mandatory (i := i.withFaults (i.state.faults.insert id { fault with
    state := .containmentInProgress, containmentGeneration := radius.generation, lastUpdatedMs := clk 0 })) hn hj
  unfold fencing fenced
  dsimp only
  rw [applyAll_append]
  exact see_editEach hdrain radius.precautionary hnamed hfenced

theorem kept_authorizeContainment (clk : Clock) (id : FaultId) (expected : FaultGeneration) {i : Impl}
    (hn : Named i.state.topology.resources) : Kept ⟨clk, .authorizeContainment id expected⟩ i := by
  suffices h : resourceView.Follows ⟨clk, .authorizeContainment id expected⟩ i ∧
      Named (authorizeContainment clk id expected i).impl.state.topology.resources from ⟨h.1, h.2⟩
  unfold View.Follows
  show (∀ j, resourceView.see j = resourceView.see i →
    resourceView.see (applyAll (authorizeContainment clk id expected i).staged j) =
      resourceView.see (authorizeContainment clk id expected i).impl) ∧ _
  unfold authorizeContainment
  split
  · exact ⟨fun j hj => hj, hn⟩
  split
  · exact ⟨fun j hj => hj, hn⟩
  · next fault _ _ radius _ =>
    obtain ⟨entry, hstaged⟩ := commitContainment_staged clk id fault radius i
    obtain ⟨_, _, hstored⟩ := commitContainment_stored clk id fault radius i
    have hplanned : (plannedBy clk id fault radius i).1.state.topology.resources =
        (fenced clk id fault radius i).state.topology.resources := planActions_resources _ _ _ _ _ _
    rw [hstored, hstaged]
    refine ⟨fun j hj => ?_, ?_⟩
    · obtain ⟨hfenced, -⟩ := kept_fencing clk id fault radius hn hj
      rw [applyAll_append, applyAll_append]
      have hquiet := see_planned (v := resourceView) (by simp [resourceView]) (plannedBy clk id fault radius i).2.2
        (applyAll (fencing clk id fault radius i) j)
      exact (hquiet.trans hfenced).trans (congrArg known hplanned).symm
    · obtain ⟨-, hnamed⟩ := kept_fencing clk id fault radius hn (j := i) rfl
      exact hplanned ▸ hnamed

theorem kept_recordActionResult (clk : Clock) (result : ActionResult) {i : Impl} (hn : Named i.state.topology.resources) :
    Kept ⟨clk, .recordActionResult result⟩ i := by
  have hother : .counters ∉ resourceView.kinds := by simp [resourceView]
  have hclaim : ∀ r r', some (withResult result.mechanism r) = some r' → r'.id = r.id := by
    intro r r' h
    rw [← Option.some.inj h]
    rfl
  suffices h : resourceView.Follows ⟨clk, .recordActionResult result⟩ i ∧
      Named (recordActionResult clk result i).impl.state.topology.resources from ⟨h.1, h.2⟩
  unfold View.Follows
  show (∀ j, resourceView.see j = resourceView.see i →
    resourceView.see (applyAll (recordActionResult clk result i).staged j) =
      resourceView.see (recordActionResult clk result i).impl) ∧ _
  unfold recordActionResult
  split
  · exact ⟨fun j hj => hj, hn⟩
  · next action _ =>
    split
    · exact ⟨fun j hj => hj, hn⟩
    split
    · exact ⟨fun j hj => hj, hn⟩
    · by_cases hsuccess : result.success = true
      · simp only [if_pos hsuccess]
        refine ⟨fun j hj => ?_, ?_⟩
        · rw [resourceView.commit hother]
          refine (see_editEach hclaim [action.target] ?_ ?_).1
          · exact hn
          · exact hj
        · refine (see_editEach hclaim [action.target] (j := i) ?_ ?_).2
          · exact hn
          · rfl
      · simp only [if_neg hsuccess]
        refine ⟨fun j hj => ?_, hn⟩
        rw [resourceView.commit hother]
        exact hj

theorem kept_authorityLost (clk : Clock) (worker : WorkerId) (boot : WorkerBootId) (detail : Text) (time : UInt64) {i : Impl}
    (hn : Named i.state.topology.resources) : Kept ⟨clk, .authorityLost worker boot detail time⟩ i := by
  have hother : .counters ∉ resourceView.kinds := by simp [resourceView]
  have hfence : ∀ r r', some (fenceLost (clk 1) r) = some r' → r'.id = r.id := by
    intro r r' h
    rw [← Option.some.inj h]
    rfl
  suffices h : resourceView.Follows ⟨clk, .authorityLost worker boot detail time⟩ i ∧
      Named (authorityLost clk worker boot detail time i).impl.state.topology.resources from ⟨h.1, h.2⟩
  unfold View.Follows
  show (∀ j, resourceView.see j = resourceView.see i →
    resourceView.see (applyAll (authorityLost clk worker boot detail time i).staged j) =
      resourceView.see (authorityLost clk worker boot detail time i).impl) ∧ _
  unfold authorityLost
  split
  · exact ⟨fun j hj => hj, hn⟩
  · next w _ =>
    split
    · exact ⟨fun j hj => hj, hn⟩
    · dsimp only
      rw [Impl.withIncarnations_topology]
      by_cases hsubject : (lossSubject (ownedBy boot i.state.topology.resources)).valid = true
      · rw [if_neg (not_not.mpr hsubject)]
        refine ⟨fun j hj => ?_, ?_⟩
        · rw [resourceView.commit hother]
          refine (see_editEach hfence _ ?_ ?_).1
          · exact hn
          · exact hj
        · refine (see_editEach hfence _ (j := i) ?_ ?_).2
          · exact hn
          · rfl
      · rw [if_pos hsubject]
        exact ⟨fun j hj => hj, hn⟩

/-- a stored record, under its own identity -/
theorem see_stored {m : Resources} {r : ResourceRecord} (h : Option HistoryEvent) {j : Impl} (hn : Named m)
    (hj : resourceView.see j = known m) :
    resourceView.see (applyEvent ⟨.resourceUpsert, r, h⟩ j) = known (m.insert r.id r) := by
  have hj : known j.state.topology.resources = known m := hj
  show known (j.state.topology.resources.insert r.id r) = known (m.insert r.id r)
  by_cases hv : r.id.valid = true
  · rw [known_insert hv, known_insert hv, hj]
  · have hv := Bool.eq_false_of_not_eq_true hv
    rw [known_unnamed hv (hn.unnamed hv), known_unnamed hv, hj]
    rw [hj]
    exact hn.unnamed hv

theorem kept_registerResource (clk : Clock) (record : ResourceRecord) {i : Impl} (hn : Named i.state.topology.resources) :
    Kept ⟨clk, .registerResource record⟩ i := by
  have hother : .counters ∉ resourceView.kinds := by simp [resourceView]
  suffices h : resourceView.Follows ⟨clk, .registerResource record⟩ i ∧
      Named (registerResource clk record i).impl.state.topology.resources from ⟨h.1, h.2⟩
  unfold View.Follows
  show (∀ j, resourceView.see j = resourceView.see i →
    resourceView.see (applyAll (registerResource clk record i).staged j) =
      resourceView.see (registerResource clk record i).impl) ∧ _
  cases hadmitted : admitRegisterResource record i with
  | error e =>
    unfold registerResource
    rw [hadmitted]
    exact ⟨fun j hj => hj, hn⟩
  | ok =>
    have hfree := (OrderedMap.has_eq_false _ _).mp (admitRegisterResource_ok hadmitted).2.1
    have himpl : (registerResource clk record i).impl.state.topology.resources =
        i.state.topology.resources.insert record.id
          { record with generation := nextGeneration record.generation, updatedAtMs := clk 0 } := by
      rw [← OrderedMap.emplace_new _ _ hfree]
      unfold registerResource
      rw [hadmitted]
      dsimp only
      split_ifs <;> rfl
    refine ⟨fun j hj => ?_, ?_⟩
    · show _ = known (registerResource clk record i).impl.state.topology.resources
      rw [himpl]
      unfold registerResource
      rw [hadmitted]
      dsimp only
      rw [resourceView.commit hother]
      exact see_stored none hn hj
    · rw [himpl]
      exact hn.insert fun _ => rfl

theorem kept_updateResource (clk : Clock) (record : ResourceRecord) (expected : ResourceGeneration) {i : Impl}
    (hn : Named i.state.topology.resources) : Kept ⟨clk, .updateResource record expected⟩ i := by
  have hother : .counters ∉ resourceView.kinds := by simp [resourceView]
  suffices h : resourceView.Follows ⟨clk, .updateResource record expected⟩ i ∧
      Named (updateResource clk record expected i).impl.state.topology.resources from ⟨h.1, h.2⟩
  unfold View.Follows
  show (∀ j, resourceView.see j = resourceView.see i →
    resourceView.see (applyAll (updateResource clk record expected i).staged j) =
      resourceView.see (updateResource clk record expected i).impl) ∧ _
  unfold updateResource
  split
  · exact ⟨fun j hj => hj, hn⟩
  · refine ⟨fun j hj => ?_, ?_⟩
    · dsimp only
      rw [resourceView.commit hother]
      exact see_stored none hn hj
    · exact hn.insert fun _ => rfl

theorem kept_removeResource (clk : Clock) (id : ResourceId) (expected : ResourceGeneration) {i : Impl}
    (hn : Named i.state.topology.resources) : Kept ⟨clk, .removeResource id expected⟩ i := by
  have hother : .counters ∉ resourceView.kinds := by simp [resourceView]
  suffices h : resourceView.Follows ⟨clk, .removeResource id expected⟩ i ∧
      Named (removeResource clk id expected i).impl.state.topology.resources from ⟨h.1, h.2⟩
  unfold View.Follows
  show (∀ j, resourceView.see j = resourceView.see i →
    resourceView.see (applyAll (removeResource clk id expected i).staged j) =
      resourceView.see (removeResource clk id expected i).impl) ∧ _
  unfold removeResource
  split
  · exact ⟨fun j hj => hj, hn⟩
  split
  · exact ⟨fun j hj => hj, hn⟩
  · refine ⟨fun j hj => ?_, ?_⟩
    · dsimp only
      rw [resourceView.commit hother, resourceView.deafAll]
      · show known (j.state.topology.resources.erase id) = known (i.state.topology.resources.erase id)
        rw [known_erase, known_erase]
        exact congrArg (fun m => m.erase id) hj
      · intro e he
        obtain ⟨d, -, rfl⟩ := List.mem_map.mp he
        simp [resourceView]
    · exact hn.erase id

theorem kept_publishResourceEvidence (clk : Clock) (id : ResourceId) (expected : ResourceGeneration)
    (freshness : EvidenceFreshness) (sequence : EvidenceSequence) (mechanism : ContainmentMechanism) (source : Text)
    {i : Impl} (hn : Named i.state.topology.resources) :
    Kept ⟨clk, .publishResourceEvidence id expected freshness sequence mechanism source⟩ i := by
  have hother : .counters ∉ resourceView.kinds := by simp [resourceView]
  suffices h : resourceView.Follows ⟨clk, .publishResourceEvidence id expected freshness sequence mechanism source⟩ i ∧
      Named (publishResourceEvidence clk id expected freshness sequence mechanism source i).impl.state.topology.resources from
    ⟨h.1, h.2⟩
  unfold View.Follows
  show (∀ j, resourceView.see j = resourceView.see i → resourceView.see
    (applyAll (publishResourceEvidence clk id expected freshness sequence mechanism source i).staged j) =
      resourceView.see (publishResourceEvidence clk id expected freshness sequence mechanism source i).impl) ∧ _
  unfold publishResourceEvidence
  split
  · exact ⟨fun j hj => hj, hn⟩
  · next r hadmit =>
    have hfind := Quarantine.admitEvidence_ok hadmit
    refine ⟨fun j hj => ?_, ?_⟩
    · dsimp only
      rw [resourceView.commit hother]
      refine see_edited hn hfind ?_ none hj
      rfl
    · exact hn.insert fun hv => hn id r hfind hv

/-- a resource returned to service -/
theorem kept_authorizeRelease (clk : Clock) (request : ReleaseRequest) {i : Impl} (hn : Named i.state.topology.resources) :
    Kept ⟨clk, .authorizeRelease request⟩ i := by
  have hother : .counters ∉ resourceView.kinds := by simp [resourceView]
  have hquiet : ∀ g id (k j : Impl), resourceView.see (applyAll (takeOffContainment clk g id k).2.1 j) = resourceView.see j ∧
      resourceView.see (applyAll (takeOffContainment clk g id k).2.2 j) = resourceView.see j ∧
      (takeOffContainment clk g id k).1.state.topology = k.state.topology := by
    intro g id k j
    unfold takeOffContainment
    split
    · exact ⟨rfl, rfl, rfl⟩
    · next c _ =>
      have hfault : ∀ f (k' : Impl), (stageFault c.fault f k').1.state.topology = k'.state.topology := by
        intro f k'
        cases f <;> rfl
      dsimp only
      split_ifs
      · exact ⟨see_faultUpserts (by simp [resourceView]) _ _ _ j, rfl, hfault _ _⟩
      · exact ⟨rfl, rfl, rfl⟩
  suffices h : resourceView.Follows ⟨clk, .authorizeRelease request⟩ i ∧
      Named (authorizeRelease clk request i).impl.state.topology.resources from ⟨h.1, h.2⟩
  unfold View.Follows
  show (∀ j, resourceView.see j = resourceView.see i →
    resourceView.see (applyAll (authorizeRelease clk request i).staged j) =
      resourceView.see (authorizeRelease clk request i).impl) ∧ _
  unfold authorizeRelease
  dsimp only
  split
  · refine ⟨fun j hj => ?_, hn⟩
    rw [resourceView.commit_one hother]
    exact hj
  · split
    · exact ⟨fun j hj => hj, hn⟩
    · next r hfind =>
      unfold grantRelease
      dsimp only
      refine ⟨fun j hj => ?_, ?_⟩
      · rw [resourceView.commit hother, (hquiet _ _ _ _).2.1]
        show _ = known (takeOffContainment clk _ request.resource _).1.state.topology.resources
        rw [(hquiet _ _ _ j).2.2]
        refine see_edited hn hfind ?_ none ((hquiet _ _ _ j).1.trans hj)
        rfl
      · show Named (takeOffContainment clk _ request.resource _).1.state.topology.resources
        rw [(hquiet _ _ _ i).2.2]
        exact hn.insert fun hv => hn _ r hfind hv

/-- a registration distrusts the evidence of what the previous incarnation held -/
theorem known_registerWorker (clk : Clock) (worker : WorkerId) (boot : WorkerBootId) (endpoint : Text)
    (sequence : EvidenceSequence) (i : Impl) :
    known (registerWorker clk worker boot endpoint sequence i).impl.state.topology.resources =
      known i.state.topology.resources := by
  have hrevoked : ∀ k : Impl, known (revokePrevious clk worker boot k).1.state.topology.resources =
      known k.state.topology.resources := by
    intro k
    unfold revokePrevious
    split
    · rfl
    split
    · rfl
    split
    · rfl
    · exact known_updateAll (f := fun r => { r with freshness := .revalidationRequired }) (fun _ => rfl) _ _
  have hfresh : ∀ k : Impl, known (registerFresh clk worker boot endpoint sequence k).impl.state.topology.resources =
      known k.state.topology.resources := hrevoked
  unfold registerWorker
  split
  · rfl
  split
  · rfl
  split
  · exact hfresh i
  · split
    · exact hfresh _
    split
    · rfl
    split <;> rfl

/-- **Step.** Every operation is followed resource by resource, placements and freshness aside. -/
theorem kept_after (c : Call) {i : Impl} (hn : Named i.state.topology.resources) : Kept c i := by
  have hframe := frame_run c i
  obtain ⟨clk, op⟩ := c
  cases op
  case registerDomain domain => exact kept_registerDomain clk domain hn
  case updateDomain domain expected =>
    refine .still hn (by simp [resourceView, Op.kinds]) ?_
    show known (updateDomain clk domain expected i).impl.state.topology.resources = _
    rcases updateDomain_cases clk domain expected (i := i) with ⟨himpl, -⟩ | ⟨previous, stored, -, -, htop⟩
    · rw [himpl]
    · rw [htop]
      exact (known_displaceMembers containmentDomains _ _ _).trans (known_placeMembers containmentDomains _ _ _)
  case removeDomain id expected =>
    exact .still hn (by simp [resourceView, Op.kinds]) (known_unregister containmentDomains clk id expected i)
  case registerIsolationDomain domain =>
    exact .still hn (by simp [resourceView, Op.kinds]) (known_register isolationDomains _ clk domain i)
  case removeIsolationDomain id expected =>
    exact .still hn (by simp [resourceView, Op.kinds]) (known_unregister isolationDomains clk id expected i)
  case registerFailureDomain domain =>
    exact .still hn (by simp [resourceView, Op.kinds]) (known_register failureDomains _ clk domain i)
  case removeFailureDomain id expected =>
    exact .still hn (by simp [resourceView, Op.kinds]) (known_unregister failureDomains clk id expected i)
  case registerResource record => exact kept_registerResource clk record hn
  case updateResource record expected => exact kept_updateResource clk record expected hn
  case removeResource id expected => exact kept_removeResource clk id expected hn
  case registerDependency edge =>
    refine .still hn (by simp [resourceView, Op.kinds]) ?_
    show known (registerDependency clk edge i).impl.state.topology.resources = _
    rcases registerDependency_cases clk edge i with himpl | ⟨-, htop⟩
    · rw [himpl]
    · rw [htop]
  case removeDependency id expected =>
    refine .still hn (by simp [resourceView, Op.kinds]) ?_
    show known (removeDependency clk id expected i).impl.state.topology.resources = _
    rcases removeDependency_cases clk id expected i with himpl | htop
    · rw [himpl]
    · rw [htop]
  case publishResourceEvidence id expected freshness sequence mechanism source =>
    exact kept_publishResourceEvidence clk id expected freshness sequence mechanism source hn
  case registerWorker worker boot endpoint sequence =>
    refine .still hn (by simp [resourceView, Op.kinds]) ?_
    exact known_registerWorker clk worker boot endpoint sequence i
  case beginEpoch nowMs reason =>
    exact .still hn (by simp [resourceView, Op.kinds]) (known_mapVals (f := distrust) (fun _ => rfl) _)
  case authorizeContainment id expected => exact kept_authorizeContainment clk id expected hn
  case recordActionResult result => exact kept_recordActionResult clk result hn
  case authorizeRelease request => exact kept_authorizeRelease clk request hn
  case authorityLost worker boot detail time => exact kept_authorityLost clk worker boot detail time hn
  all_goals
    exact .still hn (by simp [resourceView, Op.kinds])
      (congrArg (fun top : Topology => known top.resources) (hframe.topology (by simp [Op.parts])))

/-! ## Domains -/

section Bare

variable {t : IdTag} {D : Type} (g : Grouping t D)

/-- the domains of one kind apart from their members -/
def bare (m : OrderedMap (Id t) D) : OrderedMap (Id t) D := m.mapVals fun _ d => g.setMembers d []

theorem bare_insert (m : OrderedMap (Id t) D) (k : Id t) (d : D) :
    bare g (m.insert k d) = (bare g m).insert k (g.setMembers d []) := by
  refine OrderedMap.ext fun a => ?_
  unfold bare
  rw [OrderedMap.find_mapVals, OrderedMap.find_insert, OrderedMap.find_insert, OrderedMap.find_mapVals]
  split_ifs <;> rfl

theorem bare_erase (m : OrderedMap (Id t) D) (k : Id t) : bare g (m.erase k) = (bare g m).erase k := by
  refine OrderedMap.ext fun a => ?_
  unfold bare
  rw [OrderedMap.find_mapVals, OrderedMap.find_erase, OrderedMap.find_erase, OrderedMap.find_mapVals]
  split_ifs <;> rfl

variable {g}

/-- an edit of a member list -/
theorem bare_update {f : D → D} (hf : ∀ d, g.setMembers (f d) [] = g.setMembers d []) (m : OrderedMap (Id t) D) (k : Id t) :
    bare g (m.update k f) = bare g m := by
  refine OrderedMap.ext fun a => ?_
  unfold bare
  rw [OrderedMap.find_mapVals, OrderedMap.find_mapVals, OrderedMap.find_update]
  split_ifs
  · rw [Option.map_map]
    exact congrArg (fun f => Option.map f (m.find a)) (funext hf)
  · rfl

variable (hset : ∀ d s, g.setMembers (g.setMembers d s) [] = g.setMembers d [])
include hset

theorem bare_join [Inhabited D] {id : Id t} {m : OrderedMap (Id t) D} (hid : id.valid = true → m.has id = true)
    (r : ResourceId) : bare g (g.join id r m) = bare g m := by
  unfold Grouping.join
  split_ifs with hv
  · rw [OrderedMap.subscript_eq_update m _ (hid hv)]
    exact bare_update (fun d => hset d _) m id
  · rfl

theorem bare_leave (id : Id t) (r : ResourceId) (m : OrderedMap (Id t) D) : bare g (g.leave id r m) = bare g m := by
  unfold Grouping.leave
  split_ifs
  · exact bare_update (fun d => hset d _) m id
  · rfl

theorem bare_moveMembership (old new : Id t) (r : ResourceId) (m : OrderedMap (Id t) D) :
    bare g (g.moveMembership old new r m) = bare g m := by
  unfold Grouping.moveMembership
  dsimp only
  split_ifs
  · exact (bare_update (fun d => hset d _) _ new).trans (bare_update (fun d => hset d _) m old)
  · exact bare_update (fun d => hset d _) _ new
  · exact bare_update (fun d => hset d _) _ old
  · rfl

end Bare

/-- the domains of the three kinds -/
def charts (top : Topology) : OrderedMap ContainmentDomainId ContainmentDomain ×
    OrderedMap IsolationDomainId IsolationDomain × OrderedMap FailureDomainId FailureDomain :=
  (bare containmentDomains top.containmentDomains, bare isolationDomains top.isolationDomains,
    bare failureDomains top.failureDomains)

theorem charts_of_eq {top top' : Topology} (hc : bare containmentDomains top'.containmentDomains =
    bare containmentDomains top.containmentDomains) (hi : bare isolationDomains top'.isolationDomains =
    bare isolationDomains top.isolationDomains) (hf : bare failureDomains top'.failureDomains =
    bare failureDomains top.failureDomains) : charts top' = charts top := Prod.ext hc (Prod.ext hi hf)

def domainKinds : List DurableEventKind :=
  [.containmentDomainUpsert, .containmentDomainRemove, .isolationDomainUpsert, .isolationDomainRemove,
    .failureDomainUpsert, .failureDomainRemove]

theorem charts_applyEvent (e : Event) (i : Impl) (h : e.kind ∉ domainKinds) :
    charts (applyEvent e i).state.topology = charts i.state.topology := by
  unfold domainKinds at h
  obtain ⟨kind, body, history⟩ := e
  cases kind
  case containmentDomainUpsert => simp at h
  case containmentDomainRemove => simp at h
  case isolationDomainUpsert => simp at h
  case isolationDomainRemove => simp at h
  case failureDomainUpsert => simp at h
  case failureDomainRemove => simp at h
  case history => cases history <;> rfl
  all_goals rfl

def domainView : View (OrderedMap ContainmentDomainId ContainmentDomain ×
    OrderedMap IsolationDomainId IsolationDomain × OrderedMap FailureDomainId FailureDomain) where
  see i := charts i.state.topology
  kinds := domainKinds
  deaf := charts_applyEvent

theorem charts_parts {top top' : Topology} (h : charts top' = charts top) :
    bare containmentDomains top'.containmentDomains = bare containmentDomains top.containmentDomains ∧
      bare isolationDomains top'.isolationDomains = bare isolationDomains top.isolationDomains ∧
      bare failureDomains top'.failureDomains = bare failureDomains top.failureDomains :=
  ⟨congrArg Prod.fst h, congrArg (fun p => p.2.1) h, congrArg (fun p => p.2.2) h⟩

/-- the same domain stored on both sides -/
theorem bare_stored {t : IdTag} {D : Type} (g : Grouping t D) {m m' : OrderedMap (Id t) D} (h : bare g m' = bare g m) (k : Id t)
    (d : D) : bare g (m'.insert k d) = bare g (m.insert k d) := by
  rw [bare_insert, bare_insert, h]

theorem bare_erased {t : IdTag} {D : Type} (g : Grouping t D) {m m' : OrderedMap (Id t) D} (h : bare g m' = bare g m)
    (k : Id t) : bare g (m'.erase k) = bare g (m.erase k) := by
  rw [bare_erase, bare_erase, h]

section Charted

variable {clk : Clock} {i : Impl}

theorem charted_registerDomain (domain : ContainmentDomain) : domainView.Follows ⟨clk, .registerDomain domain⟩ i := by
  intro j hj
  obtain ⟨hc, hi, hf⟩ := charts_parts hj
  show domainView.see (applyAll (registerDomain clk domain i).staged j) = domainView.see (registerDomain clk domain i).impl
  unfold registerDomain
  split
  · exact hj
  split
  · exact hj
  · next hhas =>
    dsimp only
    split
    · exact hj
    · have hquiet : ∀ (m : Resources) (k : Impl),
          domainView.see (applyAll (memberEvents domain.members m) k) = domainView.see k := by
        intro m k
        refine domainView.deafAll (fun e he => ?_) k
        obtain ⟨a, -, ha⟩ := List.mem_filterMap.mp he
        obtain ⟨r, -, rfl⟩ := Option.map_eq_some_iff.mp ha
        simp [domainView, domainKinds]
      obtain ⟨hc, hi, hf⟩ :=
        charts_parts ((hquiet (claimMembers domain.id domain.members i.state.topology.resources).1 j).trans hj)
      have hfree := (OrderedMap.has_eq_false _ _).mp (Bool.eq_false_of_not_eq_true hhas)
      rw [domainView.commit (by decide)]
      refine charts_of_eq ?_ hi hf
      show _ = bare containmentDomains (i.state.topology.containmentDomains.emplace domain.id
        { domain with generation := nextGeneration i.state.topologyGeneration })
      rw [OrderedMap.emplace_new _ _ hfree]
      exact bare_stored containmentDomains hc domain.id _

theorem charted_updateDomain (domain : ContainmentDomain) (expected : TopologyGeneration) :
    domainView.Follows ⟨clk, .updateDomain domain expected⟩ i := by
  intro j hj
  obtain ⟨hc, hi, hf⟩ := charts_parts hj
  show domainView.see (applyAll (updateDomain clk domain expected i).staged j) =
    domainView.see (updateDomain clk domain expected i).impl
  unfold updateDomain
  split
  · exact hj
  · dsimp only
    rw [domainView.commit_one (by decide)]
    exact charts_of_eq (bare_stored containmentDomains hc domain.id _) hi hf

theorem charted_registerIsolationDomain (domain : IsolationDomain) :
    domainView.Follows ⟨clk, .registerIsolationDomain domain⟩ i := by
  intro j hj
  obtain ⟨hc, hi, hf⟩ := charts_parts hj
  show domainView.see (applyAll (registerIsolationDomain clk domain i).staged j) =
    domainView.see (registerIsolationDomain clk domain i).impl
  unfold registerIsolationDomain Grouping.register
  split
  · exact hj
  split
  · exact hj
  · next hhas =>
    have hfree : i.state.topology.isolationDomains.find domain.id = none :=
      (OrderedMap.has_eq_false _ _).mp (Bool.eq_false_of_not_eq_true hhas)
    dsimp only
    rw [domainView.commit_one (by decide)]
    refine charts_of_eq hc ?_ hf
    show _ = bare isolationDomains (i.state.topology.isolationDomains.emplace domain.id { domain with
      generation := nextGeneration i.state.topologyGeneration, classes := enumSetNormalize domain.classes })
    rw [OrderedMap.emplace_new _ _ hfree]
    exact bare_stored isolationDomains hi domain.id _

theorem charted_registerFailureDomain (domain : FailureDomain) :
    domainView.Follows ⟨clk, .registerFailureDomain domain⟩ i := by
  intro j hj
  obtain ⟨hc, hi, hf⟩ := charts_parts hj
  show domainView.see (applyAll (registerFailureDomain clk domain i).staged j) =
    domainView.see (registerFailureDomain clk domain i).impl
  unfold registerFailureDomain Grouping.register
  split
  · exact hj
  split
  · exact hj
  · next hhas =>
    have hfree : i.state.topology.failureDomains.find domain.id = none :=
      (OrderedMap.has_eq_false _ _).mp (Bool.eq_false_of_not_eq_true hhas)
    dsimp only
    rw [domainView.commit_one (by decide)]
    refine charts_of_eq hc hi ?_
    show _ = bare failureDomains (i.state.topology.failureDomains.emplace domain.id { domain with
      generation := nextGeneration i.state.topologyGeneration })
    rw [OrderedMap.emplace_new _ _ hfree]
    exact bare_stored failureDomains hf domain.id _

theorem charted_removeDomain (id : ContainmentDomainId) (expected : TopologyGeneration) :
    domainView.Follows ⟨clk, .removeDomain id expected⟩ i := by
  intro j hj
  obtain ⟨hc, hi, hf⟩ := charts_parts hj
  show domainView.see (applyAll (removeDomain clk id expected i).staged j) = domainView.see (removeDomain clk id expected i).impl
  unfold removeDomain Grouping.unregister
  split
  · exact hj
  split
  · exact hj
  · dsimp only
    rw [domainView.commit_one (by decide)]
    exact charts_of_eq (bare_erased containmentDomains hc id) hi hf

theorem charted_removeIsolationDomain (id : IsolationDomainId) (expected : TopologyGeneration) :
    domainView.Follows ⟨clk, .removeIsolationDomain id expected⟩ i := by
  intro j hj
  obtain ⟨hc, hi, hf⟩ := charts_parts hj
  show domainView.see (applyAll (removeIsolationDomain clk id expected i).staged j) =
    domainView.see (removeIsolationDomain clk id expected i).impl
  unfold removeIsolationDomain Grouping.unregister
  split
  · exact hj
  split
  · exact hj
  · dsimp only
    rw [domainView.commit_one (by decide)]
    exact charts_of_eq hc (bare_erased isolationDomains hi id) hf

theorem charted_removeFailureDomain (id : FailureDomainId) (expected : TopologyGeneration) :
    domainView.Follows ⟨clk, .removeFailureDomain id expected⟩ i := by
  intro j hj
  obtain ⟨hc, hi, hf⟩ := charts_parts hj
  show domainView.see (applyAll (removeFailureDomain clk id expected i).staged j) =
    domainView.see (removeFailureDomain clk id expected i).impl
  unfold removeFailureDomain Grouping.unregister
  split
  · exact hj
  split
  · exact hj
  · dsimp only
    rw [domainView.commit_one (by decide)]
    exact charts_of_eq hc hi (bare_erased failureDomains hf id)

end Charted

/-- a resource joins domains that exist -/
theorem charts_registerResource (clk : Clock) (record : ResourceRecord) (i : Impl) :
    charts (registerResource clk record i).impl.state.topology = charts i.state.topology := by
  cases hadmitted : admitRegisterResource record i with
  | error e => rw [registerResource_refused clk hadmitted]
  | ok =>
    obtain ⟨-, -, hc, hi, hf⟩ := admitRegisterResource_ok hadmitted
    obtain ⟨stored, -, htop⟩ := registerResource_topology clk hadmitted
    rw [htop]
    exact charts_of_eq (bare_join (fun _ _ => rfl) hc _) (bare_join (fun _ _ => rfl) hi _)
      (bare_join (fun _ _ => rfl) hf _)

theorem charts_updateResource (clk : Clock) (record : ResourceRecord) (expected : ResourceGeneration) (i : Impl) :
    charts (updateResource clk record expected i).impl.state.topology = charts i.state.topology := by
  rcases updateResource_cases clk record expected (i := i) with ⟨himpl, -⟩ | ⟨previous, stored, -, -, htop⟩
  · rw [himpl]
  · rw [htop]
    exact charts_of_eq (bare_moveMembership (fun _ _ => rfl) _ _ _ _) (bare_moveMembership (fun _ _ => rfl) _ _ _ _)
      (bare_moveMembership (fun _ _ => rfl) _ _ _ _)

theorem charts_removeResource (clk : Clock) (id : ResourceId) (expected : ResourceGeneration) (i : Impl) :
    charts (removeResource clk id expected i).impl.state.topology = charts i.state.topology := by
  rcases removeResource_cases clk id expected (i := i) with himpl | ⟨removed, -, htop⟩
  · rw [himpl]
  · rw [htop]
    exact charts_of_eq (bare_leave (fun _ _ => rfl) _ _ _) (bare_leave (fun _ _ => rfl) _ _ _)
      (bare_leave (fun _ _ => rfl) _ _ _)

/-- **Step.** Every operation is followed domain by domain, their members aside. -/
theorem follows_domains (c : Call) (i : Impl) : domainView.Follows c i := by
  have hquiet : editsGraph c.op = false → domainView.see (c.after i) = domainView.see i := by
    intro hedits
    have hq := quiet_after c i hedits
    exact charts_of_eq (congrArg _ hq.containment) (congrArg _ hq.isolation) (congrArg _ hq.failure)
  obtain ⟨clk, op⟩ := c
  cases op
  case registerDomain domain => exact charted_registerDomain domain
  case updateDomain domain expected => exact charted_updateDomain domain expected
  case removeDomain id expected => exact charted_removeDomain id expected
  case registerIsolationDomain domain => exact charted_registerIsolationDomain domain
  case removeIsolationDomain id expected => exact charted_removeIsolationDomain id expected
  case registerFailureDomain domain => exact charted_registerFailureDomain domain
  case removeFailureDomain id expected => exact charted_removeFailureDomain id expected
  case registerResource record =>
    exact domainView.follows_foreign (by simp [domainView, domainKinds, Op.kinds]) (charts_registerResource clk record i)
  case updateResource record expected =>
    exact domainView.follows_foreign (by simp [domainView, domainKinds, Op.kinds])
      (charts_updateResource clk record expected i)
  case removeResource id expected =>
    exact domainView.follows_foreign (by simp [domainView, domainKinds, Op.kinds])
      (charts_removeResource clk id expected i)
  case registerDependency edge =>
    refine domainView.follows_foreign (by simp [domainView, domainKinds, Op.kinds]) ?_
    show charts (registerDependency clk edge i).impl.state.topology = charts i.state.topology
    rcases registerDependency_cases clk edge i with himpl | ⟨-, htop⟩
    · rw [himpl]
    · rw [htop]
      rfl
  case removeDependency id expected =>
    refine domainView.follows_foreign (by simp [domainView, domainKinds, Op.kinds]) ?_
    show charts (removeDependency clk id expected i).impl.state.topology = charts i.state.topology
    rcases removeDependency_cases clk id expected i with himpl | htop
    · rw [himpl]
    · rw [htop]
      rfl
  all_goals
    exact domainView.follows_foreign (by simp [domainView, domainKinds, Op.kinds]) (hquiet rfl)

end FaultContainment.Replay
