/-
What the records of a running engine refer to.

Four maps refer to each other: dependencies name resources, containments name faults and actions, actions name their
containment, and a fault names the containment it is in. A removal takes the edges of its resource along; a commitment stores
its containment, its fault and its actions together; nothing else adds an action or drops a containment. Identifiers of
actions are allocated by a counter that wraps, but each planned action belongs to a resource that was fenced, and each fence
advances the topology generation, so the counter cannot wrap before that generation is saturated.

- `linked_after`: an operation that leaves the counters unsaturated keeps the references.
- `referential_run`: they hold in every state of a run from a fresh engine.
-/
import FaultContainment.Grants
import FaultContainment.Membership

namespace FaultContainment.References

open FaultContainment.Lib FaultContainment.Ids FaultContainment.Enums FaultContainment.Records
open FaultContainment.DurableEvent FaultContainment.Dependency FaultContainment.Engine FaultContainment.Dispatching
open FaultContainment.Containments FaultContainment.Membership
open FaultContainment.Engine.Grouping (Resources)

/-! ## Dependencies -/

/-- every edge joins two distinct registered resources -/
def Anchored (top : Topology) : Prop :=
  ∀ d e, top.dependencies.edges.find d = some e →
    e.source ≠ e.destination ∧ top.resources.has e.source = true ∧ top.resources.has e.destination = true

/-- the edges are the same, and no resource is gone -/
structure Grows (top top' : Topology) : Prop where
  dependencies : top'.dependencies = top.dependencies
  resources : ∀ k, top.resources.has k = true → top'.resources.has k = true

theorem Grows.anchored {top top' : Topology} (h : Grows top top') (ha : Anchored top) : Anchored top' := by
  intro d e he
  rw [h.dependencies] at he
  obtain ⟨hne, hsource, hdestination⟩ := ha d e he
  exact ⟨hne, h.resources _ hsource, h.resources _ hdestination⟩

theorem Grows.of_eq {top top' : Topology} (h : top' = top) : Grows top top' := by
  subst h
  exact ⟨rfl, fun _ hk => hk⟩

theorem Grows.of_quiet {top top' : Topology} (h : Quiet top top') : Grows top top' := by
  refine ⟨h.dependencies, fun k hk => ?_⟩
  obtain ⟨r, hr⟩ := (OrderedMap.has_iff _ _).mp hk
  obtain ⟨r', hr', -⟩ := h.resources.symm.find hr
  exact (OrderedMap.has_iff _ _).mpr ⟨r', hr'⟩

theorem has_insert {m : Resources} {a k : ResourceId} {r : ResourceRecord} (h : m.has k = true) :
    (m.insert a r).has k = true := by
  obtain ⟨v, hv⟩ := (OrderedMap.has_iff _ _).mp h
  rw [OrderedMap.has_iff, OrderedMap.find_insert]
  split_ifs
  · exact ⟨_, rfl⟩
  · exact ⟨v, hv⟩

theorem has_placeMembers {t : IdTag} {D : Type} (g : Grouping t D) (id : Id t) (ks : IdSet .resourceId) {m : Resources}
    {k : ResourceId} (h : m.has k = true) : (g.placeMembers id ks m).has k = true :=
  (OrderedMap.has_updateAll _ _ _ _).trans h

theorem grows_unregister {t : IdTag} {D : Type} (g : Grouping t D) {notFound advanced : String} (clk : Clock) (id : Id t)
    (expected : TopologyGeneration) (i : Impl)
    (hdependencies : ∀ top m, (g.setDomains top m).dependencies = top.dependencies) :
    Grows i.state.topology (g.unregister notFound advanced clk id expected i).impl.state.topology := by
  rcases unregister_cases g clk id expected i with ⟨himpl, -⟩ | ⟨d, -, -, htop⟩
  · rw [himpl]
    exact .of_eq rfl
  · rw [htop]
    refine ⟨hdependencies _ _, fun k hk => OrderedMap.has_subscriptAll _ _ _ ?_⟩
    rw [g.resources_setDomains]
    exact hk

theorem grows_registerDomain (clk : Clock) (domain : ContainmentDomain) (i : Impl) :
    Grows i.state.topology (registerDomain clk domain i).impl.state.topology := by
  rcases registerDomain_cases clk domain (i := i) with ⟨himpl, -⟩ | ⟨-, -, ⟨stored, -, -, htop⟩ | ⟨-, htop⟩⟩
  · rw [himpl]
    exact .of_eq rfl
  · rw [htop]
    exact ⟨rfl, fun k hk => has_placeMembers _ _ _ hk⟩
  · rw [htop]
    exact ⟨rfl, fun k hk => has_placeMembers _ _ _ hk⟩

theorem grows_updateDomain (clk : Clock) (domain : ContainmentDomain) (expected : TopologyGeneration) (i : Impl) :
    Grows i.state.topology (updateDomain clk domain expected i).impl.state.topology := by
  rcases updateDomain_cases clk domain expected (i := i) with ⟨himpl, -⟩ | ⟨previous, stored, -, -, htop⟩
  · rw [himpl]
    exact .of_eq rfl
  · rw [htop]
    exact ⟨rfl, fun k hk => OrderedMap.has_subscriptAll _ _ _ (has_placeMembers _ _ _ hk)⟩

theorem grows_registerIsolationDomain (clk : Clock) (domain : IsolationDomain) (i : Impl) :
    Grows i.state.topology (registerIsolationDomain clk domain i).impl.state.topology := by
  by_cases hopen : domain.id.valid = true ∧ i.state.topology.isolationDomains.has domain.id = false
  · obtain ⟨stored, -, htop⟩ := registerIsolationDomain_topology clk hopen.1 hopen.2
    rw [htop]
    exact ⟨rfl, fun k hk => has_placeMembers _ _ _ hk⟩
  · have hrefused : (registerIsolationDomain clk domain i).impl = i :=
      register_refused isolationDomains _ clk fun hv => Bool.eq_true_of_not_eq_false fun hn => hopen ⟨hv, hn⟩
    rw [hrefused]
    exact .of_eq rfl

theorem grows_registerFailureDomain (clk : Clock) (domain : FailureDomain) (i : Impl) :
    Grows i.state.topology (registerFailureDomain clk domain i).impl.state.topology := by
  by_cases hopen : domain.id.valid = true ∧ i.state.topology.failureDomains.has domain.id = false
  · obtain ⟨stored, -, htop⟩ := registerFailureDomain_topology clk hopen.1 hopen.2
    rw [htop]
    exact ⟨rfl, fun k hk => has_placeMembers _ _ _ hk⟩
  · have hrefused : (registerFailureDomain clk domain i).impl = i :=
      register_refused failureDomains _ clk fun hv => Bool.eq_true_of_not_eq_false fun hn => hopen ⟨hv, hn⟩
    rw [hrefused]
    exact .of_eq rfl

theorem grows_registerResource (clk : Clock) (record : ResourceRecord) (i : Impl) :
    Grows i.state.topology (registerResource clk record i).impl.state.topology := by
  cases hadmitted : admitRegisterResource record i with
  | error e =>
    rw [registerResource_refused clk hadmitted]
    exact .of_eq rfl
  | ok =>
    obtain ⟨stored, -, htop⟩ := registerResource_topology clk hadmitted
    rw [htop]
    exact ⟨rfl, fun k hk => has_insert hk⟩

theorem grows_updateResource (clk : Clock) (record : ResourceRecord) (expected : ResourceGeneration) (i : Impl) :
    Grows i.state.topology (updateResource clk record expected i).impl.state.topology := by
  rcases updateResource_cases clk record expected (i := i) with ⟨himpl, -⟩ | ⟨previous, stored, -, -, htop⟩
  · rw [himpl]
    exact .of_eq rfl
  · rw [htop]
    exact ⟨rfl, fun k hk => has_insert hk⟩

/-- what is left of the edges once some are erased -/
theorem find_foldl_eraseEdge (ds : List DependencyId) (g : DependencyGraph) (d : DependencyId) :
    (ds.foldl eraseEdge g).edges.find d = if d ∈ ds then none else g.edges.find d := by
  induction ds generalizing g with
  | nil => simp
  | cons a ds ih =>
    rw [List.foldl_cons, ih, find_eraseEdge]
    by_cases ha : a = d
    · simp [ha]
    · simp [ha, Ne.symm ha]

/-- a removal takes along every edge that touches the resource -/
theorem anchored_removeResource (clk : Clock) (id : ResourceId) (expected : ResourceGeneration) (i : Impl)
    (h : Anchored i.state.topology) : Anchored (removeResource clk id expected i).impl.state.topology := by
  rcases removeResource_cases clk id expected (i := i) with himpl | ⟨removed, -, htop⟩
  · rw [himpl]
    exact h
  · rw [htop]
    intro d e he
    have he : ((edgesOf i.state.topology.dependencies id).foldl eraseEdge
        (rebuildIndexes i.state.topology.dependencies)).edges.find d = some e := he
    rw [find_foldl_eraseEdge] at he
    split_ifs at he with hd
    have hfound : i.state.topology.dependencies.edges.find d = some e := he
    obtain ⟨hne, hsource, hdestination⟩ := h d e hfound
    have haway : ¬ (e.source = id ∨ e.destination = id) := by
      intro htouch
      refine hd (List.mem_map.mpr ⟨(d, e), List.mem_filter.mpr ⟨(OrderedMap.mem_toList _ _ _).mpr hfound, ?_⟩, rfl⟩)
      simpa using htouch
    have hstays : ∀ k, k ≠ id → i.state.topology.resources.has k = true →
        (i.state.topology.resources.erase id).has k = true := by
      intro k hk hhas
      obtain ⟨r, hr⟩ := (OrderedMap.has_iff _ _).mp hhas
      exact (OrderedMap.has_iff _ _).mpr ⟨r, by rw [OrderedMap.find_erase, if_neg (Ne.symm hk), hr]⟩
    exact ⟨hne, hstays _ (fun hs => haway (.inl hs)) hsource, hstays _ (fun hs => haway (.inr hs)) hdestination⟩

theorem anchored_registerDependency (clk : Clock) (edge : DependencyEdge) (i : Impl) (h : Anchored i.state.topology) :
    Anchored (registerDependency clk edge i).impl.state.topology := by
  rcases registerDependency_cases clk edge i with himpl | ⟨hadmitted, htop⟩
  · rw [himpl]
    exact h
  · rw [htop]
    intro d e he
    have he : (insertEdge i.state.topology.dependencies
        { edge with generation := nextGeneration edge.generation }).edges.find d = some e := he
    rw [find_insertEdge] at he
    split_ifs at he
    · unfold admitRegisterDependency at hadmitted
      dsimp only at hadmitted
      split_ifs at hadmitted with _ _ hself hends
      obtain rfl := Option.some.inj he
      obtain ⟨hsource, hdestination⟩ := not_or.mp hends
      exact ⟨hself, not_not.mp hsource, not_not.mp hdestination⟩
    · exact h d e he

theorem anchored_removeDependency (clk : Clock) (id : DependencyId) (expected : DependencyGeneration) (i : Impl)
    (h : Anchored i.state.topology) : Anchored (removeDependency clk id expected i).impl.state.topology := by
  rcases removeDependency_cases clk id expected i with himpl | htop
  · rw [himpl]
    exact h
  · rw [htop]
    intro d e he
    have he : (eraseEdge i.state.topology.dependencies id).edges.find d = some e := he
    rw [find_eraseEdge] at he
    split_ifs at he
    exact h d e he

/-- the operations that edit the edges -/
def editsEdges : Op → Bool
  | .removeResource _ _ | .registerDependency _ | .removeDependency _ _ => true
  | _ => false

/-- the others leave the edges alone and drop no resource -/
theorem grows_after (c : Call) (i : Impl) (h : editsEdges c.op = false) :
    Grows i.state.topology (c.after i).state.topology := by
  cases hedits : editsGraph c.op with
  | false => exact Grows.of_quiet (quiet_after c i hedits)
  | true =>
    obtain ⟨clk, op⟩ := c
    cases op with
    | registerDomain domain => exact grows_registerDomain clk domain i
    | updateDomain domain expected => exact grows_updateDomain clk domain expected i
    | removeDomain id expected => exact grows_unregister containmentDomains clk id expected i fun _ _ => rfl
    | registerIsolationDomain domain => exact grows_registerIsolationDomain clk domain i
    | removeIsolationDomain id expected => exact grows_unregister isolationDomains clk id expected i fun _ _ => rfl
    | registerFailureDomain domain => exact grows_registerFailureDomain clk domain i
    | removeFailureDomain id expected => exact grows_unregister failureDomains clk id expected i fun _ _ => rfl
    | registerResource record => exact grows_registerResource clk record i
    | updateResource record expected => exact grows_updateResource clk record expected i
    | removeResource _ _ | registerDependency _ | removeDependency _ _ => exact absurd h (by simp [editsEdges])
    | _ => exact absurd hedits (by simp [editsGraph])

/-- **Step.** Every operation keeps the edges anchored. -/
theorem anchored_after (c : Call) (i : Impl) (h : Anchored i.state.topology) : Anchored (c.after i).state.topology := by
  cases hedits : editsEdges c.op with
  | false => exact (grows_after c i hedits).anchored h
  | true =>
    obtain ⟨clk, op⟩ := c
    cases op with
    | removeResource id expected => exact anchored_removeResource clk id expected i h
    | registerDependency edge => exact anchored_registerDependency clk edge i h
    | removeDependency id expected => exact anchored_removeDependency clk id expected i h
    | _ => exact absurd hedits (by simp [editsEdges])

/-! ## Allocation of actions -/

/-- a counter that can still advance -/
def Unsaturated {t : IdTag} (g : Id t) : Prop := g.value.toNat ≠ 2 ^ 64 - 1

instance {t : IdTag} (g : Id t) : Decidable (Unsaturated g) := inferInstanceAs (Decidable (_ ≠ _))

theorem unsaturated_of_le {t : IdTag} {a b : Id t} (h : a ≤ b) (hb : Unsaturated b) : Unsaturated a := by
  have hlt : b.value.toNat < 2 ^ 64 := b.value.toNat_lt
  rw [Id.le_iff] at h
  unfold Unsaturated at *
  omega

/-- how many of the keys are stored -/
def stored (m : Resources) (ks : List ResourceId) : ℕ := ks.countP fun k => m.has k

/-- an edit of a stored record changes no key -/
theorem has_insert_stored {m : Resources} {k : ResourceId} {r r' : ResourceRecord} (h : m.find k = some r)
    (a : ResourceId) : (m.insert k r').has a = m.has a := by
  cases ha : m.has a with
  | true => exact has_insert ha
  | false =>
    rw [OrderedMap.has_eq_false] at ha ⊢
    rw [OrderedMap.find_insert_ne _ _ fun hk => ?_, ha]
    subst hk
    rw [h] at ha
    simp at ha

theorem stored_insert {m : Resources} {k : ResourceId} {r r' : ResourceRecord} (h : m.find k = some r)
    (ks : List ResourceId) : stored (m.insert k r') ks = stored m ks := by
  unfold stored
  congr 1
  exact funext (has_insert_stored h)

theorem stored_editMap (f : ResourceRecord → Option ResourceRecord) (ks ks' : List ResourceId) (m : Resources) :
    stored (editMap f ks m) ks' = stored m ks' := by
  unfold stored
  congr 1
  exact funext (has_editMap f ks m)

theorem le_editEach (f : ResourceRecord → Option ResourceRecord) (ks : List ResourceId) (i : Impl) :
    i.state.topologyGeneration ≤ (editEach f ks i).1.state.topologyGeneration :=
  (Frame.editEach (S := topologyParts) (by simp) (by simp) f ks (.refl _ i)).topologyGeneration_le

/-- each stored record that is fenced takes a topology generation of its own -/
theorem editEach_advances (f : ResourceRecord → ResourceRecord) (ks : List ResourceId) (i : Impl)
    (h : Unsaturated (editEach (fun r => some (f r)) ks i).1.state.topologyGeneration) :
    i.state.topologyGeneration.value.toNat + stored i.state.topology.resources ks ≤
      (editEach (fun r => some (f r)) ks i).1.state.topologyGeneration.value.toNat := by
  induction ks generalizing i with
  | nil => exact le_rfl
  | cons k ks ih =>
    unfold editEach at h ⊢
    cases hk : i.state.topology.resources.find k with
    | none =>
      have hcount : stored i.state.topology.resources (k :: ks) = stored i.state.topology.resources ks := by
        have hhas := (OrderedMap.has_eq_false i.state.topology.resources k).mpr hk
        simp [stored, hhas]
      rw [hk] at h
      rw [hcount]
      exact ih i h
    | some r =>
      have hcount : stored i.state.topology.resources (k :: ks) = stored i.state.topology.resources ks + 1 := by
        have hhas := (OrderedMap.has_iff i.state.topology.resources k).mpr ⟨r, hk⟩
        simp [stored, hhas]
      rw [hk] at h
      rw [hcount]
      have hrest := ih _ h
      have hkeys : stored (i.withResources (i.state.topology.resources.insert k (f r))).advanceTopology.state.topology.resources
          ks = stored i.state.topology.resources ks := stored_insert hk ks
      rw [hkeys] at hrest
      have hle := unsaturated_of_le (le_editEach _ ks _) h
      have hadvance : (i.withResources (i.state.topology.resources.insert k (f r))).advanceTopology.state.topologyGeneration =
          nextGeneration i.state.topologyGeneration := rfl
      rw [hadvance] at hrest hle
      rw [nextGeneration_toNat _ (unsaturated_of_le (nextGeneration_le _) hle)] at hrest
      show _ ≤ (editEach _ ks _).1.state.topologyGeneration.value.toNat
      omega

/-- every stored action was allocated -/
def Allocated (i : Impl) : Prop := ∀ id a, i.state.actions.find id = some a → id.value.toNat < i.nextAction.toNat

/-- a planned action is stored, for a target on the list, with the identity of its containment -/
def PlannedFor (record : ContainmentRecord) (epoch : CoordinatorEpoch) (ks : List ResourceId) (i : Impl) (id : ActionId) :
    Prop :=
  ∃ a, i.state.actions.find id = some a ∧ a.envelope.containmentGeneration = record.generation ∧
    a.envelope.fault = record.fault ∧ a.envelope.epoch = epoch ∧ a.target ∈ ks

/-- planning overwrites no action -/
theorem planActions_old (time : UInt64) (budget : ℕ) (record : ContainmentRecord) (ks : List ResourceId)
    (planned : List ActionId) {i : Impl} {id : ActionId} {a : ContainmentAction} (h : i.state.actions.find id = some a) :
    (planActions time budget record ks planned i).1.state.actions.find id = some a := by
  induction ks generalizing planned i with
  | nil => exact h
  | cons k ks ih =>
    unfold planActions
    split
    · exact h
    · split
      · exact ih planned h
      · refine ih _ ?_
        show (i.state.actions.emplace _ _).find id = some a
        rw [OrderedMap.find_emplace, if_neg, h]
        rintro ⟨rfl, hnone⟩
        rw [h] at hnone
        simp at hnone

/-- planning allocates an identifier for each stored resource, while there are any -/
theorem planActions_allocated (time : UInt64) (budget : ℕ) (record : ContainmentRecord) (ks : List ResourceId)
    (planned : List ActionId) {i : Impl} (h : Allocated i)
    (hroom : i.nextAction.toNat + stored i.state.topology.resources ks < 2 ^ 64) :
    Allocated (planActions time budget record ks planned i).1 ∧
      (planActions time budget record ks planned i).1.nextAction.toNat ≤
        i.nextAction.toNat + stored i.state.topology.resources ks ∧
      ∀ id ∈ (planActions time budget record ks planned i).2.1, id ∈ planned ∨
        PlannedFor record i.state.epoch ks (planActions time budget record ks planned i).1 id := by
  induction ks generalizing planned i with
  | nil => exact ⟨h, Nat.le_add_right _ _, fun id hid => .inl hid⟩
  | cons k ks ih =>
    unfold planActions
    by_cases hbudget : budget ≤ planned.length
    · rw [if_pos hbudget]
      exact ⟨h, Nat.le_add_right _ _, fun id hid => .inl hid⟩
    rw [if_neg hbudget]
    cases hk : i.state.topology.resources.find k with
    | none =>
      have hcount : stored i.state.topology.resources (k :: ks) = stored i.state.topology.resources ks := by
        have hhas := (OrderedMap.has_eq_false i.state.topology.resources k).mpr hk
        simp [stored, hhas]
      rw [hcount] at hroom ⊢
      obtain ⟨halloc, hnext, hplanned⟩ := ih planned h hroom
      refine ⟨halloc, hnext, fun id hid => (hplanned id hid).imp_right ?_⟩
      rintro ⟨a, ha, hgeneration, hfault, hepoch, htarget⟩
      exact ⟨a, ha, hgeneration, hfault, hepoch, List.mem_cons_of_mem _ htarget⟩
    | some r =>
      have hcount : stored i.state.topology.resources (k :: ks) = stored i.state.topology.resources ks + 1 := by
        have hhas := (OrderedMap.has_iff i.state.topology.resources k).mpr ⟨r, hk⟩
        simp [stored, hhas]
      rw [hcount] at hroom ⊢
      dsimp only
      generalize hj : Impl.withActions _ _ = j
      have hactions : j.state.actions =
          i.state.actions.emplace ⟨i.nextAction⟩ (planAction time record ⟨i.nextAction⟩ k r i.state) := by rw [← hj]; rfl
      have hresources : j.state.topology = i.state.topology := by rw [← hj]; rfl
      have hepoch : j.state.epoch = i.state.epoch := by rw [← hj]; rfl
      have hnext : j.nextAction.toNat = i.nextAction.toNat + 1 := by
        have hvalue : j.nextAction = i.nextAction + 1 := by rw [← hj]; rfl
        rw [hvalue, UInt64.toNat_add]
        exact Nat.mod_eq_of_lt (lt_of_le_of_lt (Nat.add_le_add_left (Nat.le_add_left _ _) _) hroom)
      have hfree : i.state.actions.find ⟨i.nextAction⟩ = none := by
        by_contra hne
        obtain ⟨a, ha⟩ := Option.ne_none_iff_exists'.mp hne
        exact lt_irrefl _ (h _ a ha)
      have halloc : Allocated j := by
        intro id a ha
        rw [hactions, OrderedMap.find_emplace] at ha
        rw [hnext]
        split_ifs at ha with hid
        · rw [← hid.1]
          exact Nat.lt_succ_self _
        · exact Nat.lt_succ_of_lt (h id a ha)
      obtain ⟨halloc', hnext', hplanned⟩ := ih (planned ++ [⟨i.nextAction⟩]) halloc (by rw [hnext, hresources]; omega)
      rw [hresources] at hnext'
      refine ⟨halloc', le_trans hnext' (by omega), fun id hid => ?_⟩
      have hnew : j.state.actions.find ⟨i.nextAction⟩ = some (planAction time record ⟨i.nextAction⟩ k r i.state) := by
        rw [hactions, OrderedMap.find_emplace, if_pos ⟨rfl, hfree⟩]
      rcases hplanned id hid with hid | ⟨a, ha, hgeneration, hfault, hep, htarget⟩
      · rcases List.mem_append.mp hid with hid | hid
        · exact .inl hid
        · obtain rfl := List.mem_singleton.mp hid
          exact .inr ⟨_, planActions_old _ _ _ _ _ hnew, rfl, rfl, rfl, List.mem_cons_self⟩
      · exact .inr ⟨a, ha, hgeneration, hfault, hep.trans hepoch, List.mem_cons_of_mem _ htarget⟩

/-! ## Containments, faults and actions -/

/-- what the records of a running engine refer to is there, and refers back -/
structure Linked (i : Impl) : Prop where
  anchored : Anchored i.state.topology
  numbered : Numbered i
  valid : ∀ g c, i.state.containments.find g = some c → g.valid = true
  current : ∀ g c, i.state.containments.find g = some c → containmentIsLive c.status = true →
    ∃ f, i.state.faults.find c.fault = some f ∧ f.containmentGeneration = g
  planned : ∀ g c, i.state.containments.find g = some c → ∀ id ∈ c.actions,
    ∃ a, i.state.actions.find id = some a ∧ a.envelope.containmentGeneration = g ∧ a.envelope.fault = c.fault ∧
      a.envelope.epoch = c.epoch
  owned : ∀ id a, i.state.actions.find id = some a → ∃ g c, i.state.containments.find g = some c ∧ id ∈ c.actions
  allocated : Allocated i
  paced : i.nextAction.toNat ≤ i.state.topologyGeneration.value.toNat + 1

/-- an operation that commits nothing stores no new containment, and keeps what a containment decided -/
theorem containment_after (c : Call) (i : Impl) (h : ∀ id expected, c.op ≠ .authorizeContainment id expected)
    {g : ContainmentGeneration} {b : ContainmentRecord} (hb : (c.after i).state.containments.find g = some b) :
    ∃ a, i.state.containments.find g = some a ∧ b.fault = a.fault ∧ b.epoch = a.epoch ∧ b.actions = a.actions ∧
      (containmentIsLive b.status = true → containmentIsLive a.status = true) := by
  have hself : ∀ g b, i.state.containments.find g = some b → ∃ a, i.state.containments.find g = some a ∧
      b.fault = a.fault ∧ b.epoch = a.epoch ∧ b.actions = a.actions ∧
        (containmentIsLive b.status = true → containmentIsLive a.status = true) :=
    fun g b hb => ⟨b, hb, rfl, rfl, rfl, id⟩
  cases writes c i with
  | none hc => exact hself g b (hc ▸ hb)
  | verify g' record _ hfind hlive hc => exact each_insert hc ⟨record, hfind, rfl, rfl, rfl, fun _ => hlive⟩ hself g b hb
  | release g' record request _ _ _ hfind hc =>
    refine each_insert hc ⟨record, hfind, rfl, rfl, rfl, fun hl => ?_⟩ hself g b hb
    unfold takeOff at hl
    dsimp only at hl
    split_ifs at hl
    · simp [containmentIsLive] at hl
    · exact hl
  | commit id expected _ _ hop => exact absurd hop (h id expected)

/-- an operation that commits nothing keeps the references -/
theorem linked_quiet (c : Call) {i : Impl} (h : ∀ id expected, c.op ≠ .authorizeContainment id expected)
    (hl : Linked i) : Linked (c.after i) := by
  have hretained := retained_after c i h
  have hold : ∀ id a', (c.after i).state.actions.find id = some a' → ∃ a, i.state.actions.find id = some a := by
    intro id a' ha'
    have htargets := hretained.targets id
    rw [ha', Option.map_some] at htargets
    obtain ⟨a, ha, -⟩ := Option.map_eq_some_iff.mp htargets.symm
    exact ⟨a, ha⟩
  refine ⟨anchored_after c i hl.anchored, numbered_after c hl.numbered, ?_, ?_, ?_, ?_, ?_, ?_⟩
  · intro g b hb
    obtain ⟨a, ha, -⟩ := containment_after c i h hb
    exact hl.valid g a ha
  · intro g b hb hlive
    obtain ⟨a, ha, hfault, -, -, hwas⟩ := containment_after c i h hb
    obtain ⟨f, hf, hg⟩ := hl.current g a ha (hwas hlive)
    obtain ⟨f', hf', -, hsame⟩ := revises_after c i h _ f hf
    exact ⟨f', hfault ▸ hf', hsame.trans hg⟩
  · intro g b hb id hid
    obtain ⟨a, ha, hfault, hepoch, hactions, -⟩ := containment_after c i h hb
    obtain ⟨x, hx, hgx, hfx, hex⟩ := hl.planned g a ha id (hactions ▸ hid)
    obtain ⟨x', hx', -, hplan⟩ := plan_after c hx
    refine ⟨x', hx', ?_, ?_, ?_⟩
    · exact (congrArg AuthorityEnvelope.containmentGeneration hplan).trans hgx
    · exact (congrArg AuthorityEnvelope.fault hplan).trans (hfx.trans hfault.symm)
    · exact (congrArg AuthorityEnvelope.epoch hplan).trans (hex.trans hepoch.symm)
  · intro id a' ha'
    obtain ⟨a, ha⟩ := hold id a' ha'
    obtain ⟨g, b, hb, hid⟩ := hl.owned id a ha
    obtain ⟨b', hb', -, -, hactions⟩ := (kept_after c i).old g b hb
    exact ⟨g, b', hb', hactions ▸ hid⟩
  · intro id a' ha'
    obtain ⟨a, ha⟩ := hold id a' ha'
    rw [hretained.next]
    exact hl.allocated id a ha
  · rw [hretained.next]
    have hle := (frame_run c i).topologyGeneration_le
    rw [Id.le_iff] at hle
    exact hl.paced.trans (Nat.succ_le_succ hle)

/-- fencing takes a topology generation for each stored mandatory resource -/
theorem fenced_advances (clk : Clock) (id : FaultId) (fault : FaultRecord) (radius : Records.BlastRadius) (i : Impl)
    (h : Unsaturated (fenced clk id fault radius i).state.topologyGeneration) :
    i.state.topologyGeneration.value.toNat + stored i.state.topology.resources radius.mandatory ≤
      (fenced clk id fault radius i).state.topologyGeneration.value.toNat := by
  unfold fenced at h ⊢
  dsimp only at h ⊢
  have hle := le_editEach (drain (clk 0)) radius.precautionary (editEach (fun r => some (fence (clk 0) i.state.workers
    radius.generation (outcomeQuarantines radius.recommended) r)) radius.mandatory (i.withFaults (i.state.faults.insert id
      { fault with state := .containmentInProgress, containmentGeneration := radius.generation, lastUpdatedMs := clk 0 }))).1
  have hadvances := editEach_advances (fence (clk 0) i.state.workers radius.generation
    (outcomeQuarantines radius.recommended)) radius.mandatory (i.withFaults (i.state.faults.insert id
      { fault with state := .containmentInProgress, containmentGeneration := radius.generation, lastUpdatedMs := clk 0 }))
    (unsaturated_of_le hle h)
  rw [Id.le_iff] at hle
  exact hadvances.trans hle

theorem stored_fenced (clk : Clock) (id : FaultId) (fault : FaultRecord) (radius : Records.BlastRadius) (i : Impl)
    (ks : List ResourceId) :
    stored (fenced clk id fault radius i).state.topology.resources ks = stored i.state.topology.resources ks := by
  unfold fenced
  dsimp only
  rw [editEach_resources, editEach_resources, stored_editMap, stored_editMap]
  rfl

/-- the actions a commitment plans, and the identifiers it takes -/
theorem plannedBy_allocated (clk : Clock) {id : FaultId} {fault : FaultRecord} {radius : Records.BlastRadius} {i : Impl}
    (hl : Linked i) (htop : Unsaturated (fenced clk id fault radius i).state.topologyGeneration) :
    Allocated (plannedBy clk id fault radius i).1 ∧
      (plannedBy clk id fault radius i).1.nextAction.toNat ≤
        (fenced clk id fault radius i).state.topologyGeneration.value.toNat + 1 ∧
      ∀ a ∈ (committed clk id fault radius i).actions,
        PlannedFor (committed clk id fault radius i) i.state.epoch radius.mandatory (plannedBy clk id fault radius i).1 a := by
  have hframe := frame_fenced clk id fault radius i
  have hadvances := fenced_advances clk id fault radius i htop
  have hnext := hframe.nextAction (by simp)
  have hpaced := hl.paced
  have hmax : (fenced clk id fault radius i).state.topologyGeneration.value.toNat < 2 ^ 64 :=
    (fenced clk id fault radius i).state.topologyGeneration.value.toNat_lt
  have halloc : Allocated (fenced clk id fault radius i) := by
    intro a x hx
    rw [hframe.actions (by simp)] at hx
    rw [hnext]
    exact hl.allocated a x hx
  have hroom : (fenced clk id fault radius i).nextAction.toNat +
      stored (fenced clk id fault radius i).state.topology.resources radius.mandatory < 2 ^ 64 := by
    rw [hnext, stored_fenced]
    unfold Unsaturated at htop
    omega
  obtain ⟨halloc', hnext', hplanned⟩ := planActions_allocated (clk 0) (actionBudget i.state.policy fault.evidence.kind)
    (newContainment (clk 0) id fault radius i) radius.mandatory [] halloc hroom
  rw [hnext, stored_fenced] at hnext'
  refine ⟨halloc', le_trans hnext' (by omega), fun a ha => ?_⟩
  rcases hplanned a ha with hnil | hfor
  · simp at hnil
  · rw [hframe.epoch (by simp)] at hfor
    exact hfor

/-- an admitted request is a commitment -/
theorem authorizeContainment_admitted (clk : Clock) {id : FaultId} {expected : FaultGeneration} {i : Impl}
    {fault : FaultRecord} {radius : Records.BlastRadius} (hfault : admitContainment id expected i = .ok fault)
    (hradius : admitRadius fault i = .ok radius) :
    authorizeContainment clk id expected i = commitContainment clk id fault radius i := by
  unfold authorizeContainment
  rw [hfault]
  dsimp only
  rw [hradius]

/-- a request is refused and changes nothing, or its fault and its radius are admitted -/
theorem authorizeContainment_cases (clk : Clock) (id : FaultId) (expected : FaultGeneration) (i : Impl) :
    (authorizeContainment clk id expected i).impl = i ∨ ∃ fault radius, admitContainment id expected i = .ok fault ∧
      admitRadius fault i = .ok radius := by
  cases hfault : admitContainment id expected i with
  | error e =>
    refine .inl ?_
    unfold authorizeContainment
    rw [hfault]
    rfl
  | ok fault =>
    cases hradius : admitRadius fault i with
    | error e =>
      refine .inl ?_
      unfold authorizeContainment
      rw [hfault]
      dsimp only
      rw [hradius]
      rfl
    | ok radius => exact .inr ⟨fault, radius, rfl, hradius⟩

/-- an admitted fault is in no live containment -/
theorem admitContainment_free {id : FaultId} {expected : FaultGeneration} {i : Impl} {fault : FaultRecord}
    (h : admitContainment id expected i = .ok fault) (hvalid : fault.containmentGeneration.valid = true) :
    ∀ c, i.state.containments.find fault.containmentGeneration = some c → containmentIsLive c.status = false := by
  intro c hc
  unfold admitContainment at h
  split at h
  · simp at h
  · split_ifs at h with _ _ _ hcommitted
    obtain rfl := Except.ok.inj h
    by_contra hlive
    exact hcommitted ⟨hvalid, by rw [hc, Option.any_some]; simpa using hlive⟩

/-- the generation of a new containment is not taken -/
theorem Linked.free {i : Impl} (hl : Linked i) (hroom : Unsaturated i.state.containmentGeneration) {fault : FaultRecord}
    {radius : Records.BlastRadius} (hradius : admitRadius fault i = .ok radius) :
    i.state.containments.find radius.generation = none := by
  by_contra hne
  obtain ⟨b, hb⟩ := Option.ne_none_iff_exists'.mp hne
  have hle := (hl.numbered _ b hb).2
  rw [admitRadius_generation hradius] at hle
  exact absurd (lt_nextGeneration hroom) (not_lt.mpr hle)

/-- a commitment that saturates no counter keeps the references -/
theorem linked_commit (clk : Clock) {id : FaultId} {expected : FaultGeneration} {i : Impl} {fault : FaultRecord}
    {radius : Records.BlastRadius} (hfault : admitContainment id expected i = .ok fault)
    (hradius : admitRadius fault i = .ok radius) (hl : Linked i)
    (htop : Unsaturated (authorizeContainment clk id expected i).impl.state.topologyGeneration)
    (hroom : Unsaturated i.state.containmentGeneration) : Linked (authorizeContainment clk id expected i).impl := by
  have hanchored := anchored_after ⟨clk, .authorizeContainment id expected⟩ i hl.anchored
  have hnumbered := numbered_after ⟨clk, .authorizeContainment id expected⟩ hl.numbered
  have hgeneration := admitRadius_generation hradius
  have hstored := (admitContainment_ok hfault).1
  have hfree := hl.free hroom hradius
  obtain ⟨time, entry, himpl⟩ := commitContainment_stored clk id fault radius i
  have hfaults := commitContainment_faults clk id fault radius i
  have hjumps : (authorizeContainment clk id expected i).impl = (commitContainment clk id fault radius i).impl :=
    congrArg Step.impl (authorizeContainment_admitted clk hfault hradius)
  rw [show (⟨clk, .authorizeContainment id expected⟩ : Call).after i = (authorizeContainment clk id expected i).impl
    from rfl] at hanchored hnumbered
  rw [hjumps] at hanchored hnumbered htop ⊢
  rw [himpl] at hanchored hnumbered htop hfaults ⊢
  have hframe := frame_plannedBy clk id fault radius i
  have htop : Unsaturated (fenced clk id fault radius i).state.topologyGeneration := by
    rw [← hframe.topologyGeneration (by simp)]
    exact htop
  obtain ⟨halloc, hnext, hplanned⟩ := plannedBy_allocated clk hl htop
  have hfind : ∀ g b, (i.state.containments.emplace radius.generation (committed clk id fault radius i)).find g = some b →
      g = radius.generation ∧ b = committed clk id fault radius i ∨ i.state.containments.find g = some b := by
    intro g b hb
    rw [OrderedMap.find_emplace] at hb
    split_ifs at hb with hg
    · exact .inl ⟨hg.1.symm, (Option.some.inj hb).symm⟩
    · exact .inr hb
  have hnew : (i.state.containments.emplace radius.generation (committed clk id fault radius i)).find radius.generation =
      some (committed clk id fault radius i) := (OrderedMap.find_emplace _ _ _ _).trans (if_pos ⟨rfl, hfree⟩)
  have hfenced : (fenced clk id fault radius i).state.actions = i.state.actions :=
    (frame_fenced clk id fault radius i).actions (by simp)
  have hkept : ∀ a x, i.state.actions.find a = some x → (plannedBy clk id fault radius i).1.state.actions.find a = some x :=
    fun a x hx => planActions_old _ _ _ _ _ (hfenced ▸ hx)
  refine ⟨hanchored, hnumbered, ?_, ?_, ?_, ?_, halloc, ?_⟩
  · intro g b hb
    rcases hfind g b hb with ⟨rfl, -⟩ | hb
    · rw [hgeneration]
      exact nextGeneration_valid _
    · exact hl.valid g b hb
  · intro g b hb hlive
    rw [hfaults]
    rcases hfind g b hb with ⟨rfl, rfl⟩ | hb
    · exact ⟨_, OrderedMap.find_insert_self _ _ _, rfl⟩
    · obtain ⟨f, hf, hg⟩ := hl.current g b hb hlive
      refine ⟨f, (OrderedMap.find_insert_ne _ _ fun hid => ?_).trans hf, hg⟩
      -- the fault of the commitment would be in the live containment `g`
      rw [← hid, hstored] at hf
      obtain rfl := Option.some.inj hf
      have hdead := admitContainment_free hfault (hg ▸ hl.valid g b hb) b (hg ▸ hb)
      rw [hlive] at hdead
      exact Bool.false_ne_true hdead.symm
  · intro g b hb a ha
    rcases hfind g b hb with ⟨rfl, rfl⟩ | hb
    · obtain ⟨x, hx, hgx, hfx, hex, -⟩ := hplanned a ha
      exact ⟨x, hx, hgx, hfx, hex⟩
    · obtain ⟨x, hx, hrest⟩ := hl.planned g b hb a ha
      exact ⟨x, hkept a x hx, hrest⟩
  · intro a x hx
    cases hold : i.state.actions.find a with
    | some x' =>
      obtain ⟨g, b, hb, hid⟩ := hl.owned a x' hold
      refine ⟨g, b, (OrderedMap.find_emplace _ _ _ _).trans ?_, hid⟩
      rw [if_neg, hb]
      rintro ⟨rfl, hnone⟩
      rw [hb] at hnone
      simp at hnone
    | none =>
      have hnone : (fenced clk id fault radius i).state.actions.find a = none := by rw [hfenced, hold]
      exact ⟨radius.generation, _, hnew, (planActions_new _ _ _ _ _ hnone hx).1⟩
  · refine hnext.trans (Nat.succ_le_succ (le_of_eq ?_))
    rw [← hframe.topologyGeneration (by simp)]
    rfl

/-- **Step.** An operation that leaves the two counters unsaturated keeps the references. -/
theorem linked_after (c : Call) {i : Impl} (hl : Linked i) (htop : Unsaturated (c.after i).state.topologyGeneration)
    (hroom : Unsaturated (c.after i).state.containmentGeneration) : Linked (c.after i) := by
  by_cases hcommits : ∃ id expected, c.op = .authorizeContainment id expected
  · obtain ⟨id, expected, hop⟩ := hcommits
    have hbefore := unsaturated_of_le (frame_run c i).containmentGeneration_le hroom
    obtain ⟨clk, op⟩ := c
    subst hop
    rcases authorizeContainment_cases clk id expected i with hrefused | ⟨fault, radius, hfault, hradius⟩
    · rw [show (⟨clk, .authorizeContainment id expected⟩ : Call).after i = i from hrefused]
      exact hl
    · exact linked_commit clk hfault hradius hl htop hbefore
  · exact linked_quiet c (fun id expected hop => hcommits ⟨id, expected, hop⟩) hl

/-! ## Runs -/

/-- the stored records refer to each other as they should -/
structure Referential (s : RuntimeSnapshot) : Prop where
  edges : Anchored s.topology
  numbered : ∀ g c, s.containments.find g = some c → c.generation = g ∧ g ≤ s.containmentGeneration
  current : ∀ g c, s.containments.find g = some c → containmentIsLive c.status = true →
    ∃ f, s.faults.find c.fault = some f ∧ f.containmentGeneration = g
  once : ∀ g c g' c', s.containments.find g = some c → s.containments.find g' = some c' →
    containmentIsLive c.status = true → containmentIsLive c'.status = true → c.fault = c'.fault → g = g'
  planned : ∀ g c, s.containments.find g = some c → ∀ id ∈ c.actions,
    ∃ a, s.actions.find id = some a ∧ a.envelope.containmentGeneration = g ∧ a.envelope.fault = c.fault ∧
      a.envelope.epoch = c.epoch
  owned : ∀ id a, s.actions.find id = some a → ∃! g, ∃ c, s.containments.find g = some c ∧ id ∈ c.actions

/-- an action that a step creates is listed by a containment that holds its target as mandatory -/
def CreatesForMembers (c : Call) (i : Impl) : Prop :=
  ∀ id a, i.state.actions.find id = none → (c.after i).state.actions.find id = some a →
    ∃ g b, (c.after i).state.containments.find g = some b ∧ id ∈ b.actions ∧ a.target ∈ b.mandatory

theorem Linked.referential {i : Impl} (h : Linked i) : Referential i.state where
  edges := h.anchored
  numbered := h.numbered
  current := h.current
  once := by
    intro g c g' c' hc hc' hlive hlive' hsame
    obtain ⟨f, hf, rfl⟩ := h.current g c hc hlive
    obtain ⟨f', hf', rfl⟩ := h.current g' c' hc' hlive'
    rw [hsame, hf'] at hf
    rw [Option.some.inj hf]
  planned := h.planned
  owned := by
    intro id a ha
    obtain ⟨g, c, hc, hid⟩ := h.owned id a ha
    refine ⟨g, ⟨c, hc, hid⟩, ?_⟩
    rintro g' ⟨c', hc', hid'⟩
    -- the envelope of the action names its containment
    obtain ⟨x, hx, hg, -⟩ := h.planned g c hc id hid
    obtain ⟨x', hx', hg', -⟩ := h.planned g' c' hc' id hid'
    rw [← hg, ← hg', Option.some.inj (hx.symm.trans hx')]

theorem linked_construct (clk : Clock) (config : Config) : Linked (construct clk config) := by
  have hcontainment : ∀ g, (construct clk config).state.containments.find g = none := fun g => OrderedMap.find_empty g
  have haction : ∀ id, (construct clk config).state.actions.find id = none := fun id => OrderedMap.find_empty id
  refine ⟨fun d e he => ?_, fun g c hc => ?_, fun g c hc => ?_, fun g c hc => ?_, fun g c hc => ?_, fun id a ha => ?_,
    fun id a ha => ?_, Nat.le_add_left _ _⟩
  · have hnone : (construct clk config).state.topology.dependencies.edges.find d = none := OrderedMap.find_empty d
    rw [hnone] at he
    simp at he
  · rw [hcontainment] at hc
    simp at hc
  · rw [hcontainment] at hc
    simp at hc
  · rw [hcontainment] at hc
    simp at hc
  · rw [hcontainment] at hc
    simp at hc
  · rw [haction] at ha
    simp at ha
  · rw [haction] at ha
    simp at ha

/-- the counters do not go back -/
theorem generations_le_run (calls : List Call) (i : Impl) :
    i.state.topologyGeneration ≤ (Runs.run Call.after calls i).state.topologyGeneration ∧
      i.state.containmentGeneration ≤ (Runs.run Call.after calls i).state.containmentGeneration :=
  @Runs.run_rel _ _ Call.after (fun i j => i.state.topologyGeneration ≤ j.state.topologyGeneration ∧
      i.state.containmentGeneration ≤ j.state.containmentGeneration) (fun _ => ⟨le_rfl, le_rfl⟩)
    (fun _ _ _ h h' => ⟨h.1.trans h'.1, h.2.trans h'.2⟩)
    (fun c i => ⟨(frame_run c i).topologyGeneration_le, (frame_run c i).containmentGeneration_le⟩) calls i

theorem linked_run (calls : List Call) {i : Impl} (hl : Linked i)
    (htop : Unsaturated (Runs.run Call.after calls i).state.topologyGeneration)
    (hroom : Unsaturated (Runs.run Call.after calls i).state.containmentGeneration) :
    Linked (Runs.run Call.after calls i) := by
  induction calls generalizing i with
  | nil => exact hl
  | cons c calls ih =>
    obtain ⟨htop', hroom'⟩ := generations_le_run calls (c.after i)
    exact ih (linked_after c hl (unsaturated_of_le htop' htop) (unsaturated_of_le hroom' hroom)) htop hroom

/-- only a commitment creates actions, and for its mandatory resources -/
theorem createsForMembers (c : Call) {i : Impl} (hl : Linked i) (htop : Unsaturated (c.after i).state.topologyGeneration)
    (hroom : Unsaturated (c.after i).state.containmentGeneration) : CreatesForMembers c i := by
  intro a x hnone hx
  by_cases hcommits : ∃ id expected, c.op = .authorizeContainment id expected
  swap
  · have htargets := (retained_after c i fun id expected hop => hcommits ⟨id, expected, hop⟩).targets a
    rw [hnone, hx] at htargets
    simp at htargets
  obtain ⟨id, expected, hop⟩ := hcommits
  have hbefore := unsaturated_of_le (frame_run c i).containmentGeneration_le hroom
  obtain ⟨clk, op⟩ := c
  subst hop
  rcases authorizeContainment_cases clk id expected i with hrefused | ⟨fault, radius, hfault, hradius⟩
  · rw [show (⟨clk, .authorizeContainment id expected⟩ : Call).after i = i from hrefused, hnone] at hx
    simp at hx
  obtain ⟨hcontainments, hactions⟩ := authorizeContainment_stored clk hfault hradius
  have hx : (plannedBy clk id fault radius i).1.state.actions.find a = some x := hactions ▸ hx
  have htop : Unsaturated (fenced clk id fault radius i).state.topologyGeneration := by
    obtain ⟨time, entry, himpl⟩ := commitContainment_stored clk id fault radius i
    have hafter : ((⟨clk, .authorizeContainment id expected⟩ : Call).after i).state.topologyGeneration =
        (plannedBy clk id fault radius i).1.state.topologyGeneration := by
      show (authorizeContainment clk id expected i).impl.state.topologyGeneration = _
      rw [authorizeContainment_admitted clk hfault hradius, himpl]
      rfl
    rw [← (frame_plannedBy clk id fault radius i).topologyGeneration (by simp), ← hafter]
    exact htop
  have hfenced : (fenced clk id fault radius i).state.actions.find a = none := by
    rw [(frame_fenced clk id fault radius i).actions (by simp), hnone]
  have hlisted := (planActions_new _ _ _ _ _ hfenced hx).1
  obtain ⟨-, -, hplanned⟩ := plannedBy_allocated clk hl htop
  obtain ⟨x', hx', -, -, -, htarget⟩ := hplanned a hlisted
  rw [Option.some.inj (hx'.symm.trans hx)] at htarget
  refine ⟨radius.generation, committed clk id fault radius i, ?_, hlisted, htarget⟩
  exact hcontainments ▸ (OrderedMap.find_emplace _ _ _ _).trans (if_pos ⟨rfl, hl.free hbefore hradius⟩)

/-- **Referential integrity.** In a run from a fresh engine that has saturated neither the topology nor the containment
generation, the records refer to each other as they should, and every action was created for a resource that was mandatory
in its containment. -/
theorem referential_run (clk : Clock) (config : Config) (calls : List Call)
    (htop : Unsaturated (Runs.run Call.after calls (construct clk config)).state.topologyGeneration)
    (hroom : Unsaturated (Runs.run Call.after calls (construct clk config)).state.containmentGeneration) :
    Referential (Runs.run Call.after calls (construct clk config)).state ∧
      ∀ pre c post, calls = pre ++ c :: post → CreatesForMembers c (Runs.run Call.after pre (construct clk config)) := by
  refine ⟨(linked_run calls (linked_construct clk config) htop hroom).referential, ?_⟩
  rintro pre c post rfl
  rw [Runs.run_append, Runs.run_cons] at htop hroom
  obtain ⟨htop', hroom'⟩ := generations_le_run post (c.after (Runs.run Call.after pre (construct clk config)))
  have htop'' := unsaturated_of_le htop' htop
  have hroom'' := unsaturated_of_le hroom' hroom
  have hpre := linked_run pre (linked_construct clk config)
    (unsaturated_of_le (frame_run c _).topologyGeneration_le htop'')
    (unsaturated_of_le (frame_run c _).containmentGeneration_le hroom'')
  exact createsForMembers c hpre htop'' hroom''

/-- the run in which one resource is contained and verified -/
theorem referential_run_fencedOnce : Referential (Runs.run Call.after Grants.fencedOnce (construct ticks {})).state :=
  (referential_run ticks {} Grants.fencedOnce (by decide +kernel) (by decide +kernel)).1

end FaultContainment.References
