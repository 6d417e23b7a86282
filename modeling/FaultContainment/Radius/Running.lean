/-
The topology of a running engine is fit for a blast radius.

The specification of the radius asks that each record sits under its own valid identity and that the adjacency indexes list
exactly the edges. The indexes stay exact under every operation, since what is erased is erased from a sorted list. The
identities hold as long as no domain operation takes an unregistered member out of a domain: the lookup would invent a record.

- `Tidy.eraseAll`, `tidy_rebuilt`: the indexes stay exact.
- `running_after`: each operation keeps the topology fit.
- `wellFormed_run`: the topology is well-formed in every state of a run that drops registered members only.
-/
import FaultContainment.Membership
import FaultContainment.Radius.Spec

namespace FaultContainment.Radius

open FaultContainment.Lib FaultContainment.Ids FaultContainment.Records
open FaultContainment.Dependency FaultContainment.Engine FaultContainment.Membership
open FaultContainment.Quarantine (DropsRegistered updateDropped)

/-! ## One index -/

abbrev Edges := OrderedMap DependencyId DependencyEdge

/-- the index lists exactly the edges by the end `f`, in order -/
structure Points (f : DependencyEdge → ResourceId) (edges : Edges) (index : OrderedMap ResourceId (IdSet .dependencyId)) :
    Prop where
  sorted : ∀ r, SortedSet ((index.find r).getD [])
  exact : ∀ r id, id ∈ (index.find r).getD [] ↔ ∃ e, edges.find id = some e ∧ f e = r

section Index

variable {f : DependencyEdge → ResourceId} {edges : Edges} {index : OrderedMap ResourceId (IdSet .dependencyId)}

theorem points_empty (f : DependencyEdge → ResourceId) : Points f ∅ ∅ := by
  constructor
  · intro r
    rw [OrderedMap.find_empty]
    exact List.Pairwise.nil
  · intro r id
    simp

/-- listing a new edge keeps the index exact -/
theorem Points.insert (h : Points f edges index) {e : DependencyEdge} (hnew : edges.find e.id = none) :
    Points f (edges.insert e.id e) (index.subscript (f e) fun s => idSetInsert s e.id) := by
  constructor
  · intro r
    rw [OrderedMap.find_subscript]
    split_ifs with hr
    · exact sorted_idSetInsert (h.sorted (f e)) e.id
    · exact h.sorted r
  · intro r id
    rw [mem_listed, h.exact, OrderedMap.find_insert]
    by_cases hid : e.id = id
    · subst hid
      simp [hnew]
    · simp [hid, Ne.symm hid]

/-- one index after an edge is dropped from it -/
theorem mem_unindex (hs : ∀ r, SortedSet ((index.find r).getD [])) (k r : ResourceId) (id a : DependencyId) :
    a ∈ ((unindex index k id).find r).getD [] ↔ a ∈ (index.find r).getD [] ∧ ¬ (k = r ∧ a = id) := by
  have hk := hs k
  unfold unindex
  cases hfind : index.find k with
  | none =>
    dsimp only
    constructor
    · intro ha
      refine ⟨ha, fun hboth => ?_⟩
      rw [← hboth.1, hfind] at ha
      simp at ha
    · exact And.left
  | some s =>
    rw [hfind, Option.getD_some] at hk
    have hin : a ∈ (if k = r then idSetErase s id else (index.find r).getD []) ↔
        a ∈ (index.find r).getD [] ∧ ¬ (k = r ∧ a = id) := by
      split_ifs with hr
      · rw [← hr, hfind, Option.getD_some, mem_idSetErase hk]
        simp
      · simp [hr]
    dsimp only
    rw [← hin]
    split_ifs with hempty hr hr
    · rw [OrderedMap.find_erase, if_pos hr, hempty]
      rfl
    · rw [OrderedMap.find_erase, if_neg hr]
    · rw [OrderedMap.find_insert, if_pos hr]
      rfl
    · rw [OrderedMap.find_insert, if_neg hr]

theorem sorted_unindex (hs : ∀ r, SortedSet ((index.find r).getD [])) (k r : ResourceId) (id : DependencyId) :
    SortedSet (((unindex index k id).find r).getD []) := by
  unfold unindex
  cases hfind : index.find k with
  | none => exact hs r
  | some s =>
    have hk := hs k
    rw [hfind] at hk
    dsimp only
    split_ifs
    · rw [OrderedMap.find_erase]
      split_ifs
      · exact List.Pairwise.nil
      · exact hs r
    · rw [OrderedMap.find_insert]
      split_ifs
      · exact sorted_idSetErase hk id
      · exact hs r

/-- dropping an edge keeps the index exact -/
theorem Points.erase (h : Points f edges index) {id : DependencyId} {e : DependencyEdge} (he : edges.find id = some e) :
    Points f (edges.erase id) (unindex index (f e) id) := by
  refine ⟨fun r => sorted_unindex h.sorted _ r id, fun r a => ?_⟩
  rw [mem_unindex h.sorted, h.exact, OrderedMap.find_erase]
  by_cases ha : id = a
  · subst ha
    simp [he]
  · simp [ha, Ne.symm ha]

/-- an index rebuilt from edges lists each of them -/
theorem points_rebuilt (es : List DependencyEdge) (edges : Edges) (hd : (es.map DependencyEdge.id).Nodup)
    (hnew : ∀ e ∈ es, edges.find e.id = none) (h : Points f edges index) :
    Points f (es.foldl (fun m e => m.insert e.id e) edges)
      (es.foldl (fun m e => m.subscript (f e) fun s => idSetInsert s e.id) index) := by
  induction es generalizing edges index with
  | nil => exact h
  | cons e es ih =>
    obtain ⟨hnot, hd⟩ := List.nodup_cons.mp hd
    refine ih (edges.insert e.id e) hd (fun e' he' => ?_) (h.insert (hnew e List.mem_cons_self))
    rw [OrderedMap.find_insert, if_neg]
    · exact hnew e' (List.mem_cons_of_mem e he')
    · intro heq
      exact hnot (heq ▸ List.mem_map_of_mem he')

end Index

/-! ## The graph -/

/-- edges under their own identity, and both indexes exact and in order -/
structure Tidy (g : DependencyGraph) : Prop where
  keyed : OrderedMap.Keyed DependencyEdge.id g.edges
  outgoing : Points DependencyEdge.source g.edges g.outgoing
  incoming : Points DependencyEdge.destination g.edges g.incoming

theorem Tidy.indexed {g : DependencyGraph} (h : Tidy g) : Indexed g := ⟨h.keyed, h.outgoing.exact, h.incoming.exact⟩

theorem tidy_empty : Tidy {} := ⟨indexed_empty.keyed, points_empty _, points_empty _⟩

theorem Tidy.insertEdge {g : DependencyGraph} (h : Tidy g) {e : DependencyEdge} (hnew : g.edges.find e.id = none) :
    Tidy (Dependency.insertEdge g e) :=
  ⟨h.keyed.insert rfl, h.outgoing.insert hnew, h.incoming.insert hnew⟩

theorem Tidy.eraseEdge {g : DependencyGraph} (h : Tidy g) (id : DependencyId) : Tidy (Dependency.eraseEdge g id) := by
  unfold Dependency.eraseEdge
  cases he : g.edges.find id with
  | none => exact h
  | some e => exact ⟨h.keyed.erase id, h.outgoing.erase he, h.incoming.erase he⟩

/-- a rebuild looks at the edges alone -/
theorem tidy_rebuilt {g : DependencyGraph} (h : OrderedMap.Keyed DependencyEdge.id g.edges) :
    Tidy (Dependency.rebuildIndexes g) := by
  have hall : ∀ f : DependencyEdge → ResourceId, Points f g.edges
      (g.edges.vals.foldl (fun m e => m.subscript (f e) fun s => idSetInsert s e.id) ∅) := by
    intro f
    have hrebuilt := points_rebuilt g.edges.vals ∅ (OrderedMap.nodup_keys_vals _ _ h) (by simp) (points_empty f)
    have hedges : g.edges.vals.foldl (fun m e => m.insert e.id e) ∅ = g.edges :=
      OrderedMap.ofRecords_vals DependencyEdge.id g.edges h
    rwa [hedges] at hrebuilt
  exact ⟨h, hall _, hall _⟩

theorem Tidy.rebuildIndexes {g : DependencyGraph} (h : Tidy g) : Tidy (Dependency.rebuildIndexes g) :=
  tidy_rebuilt h.keyed

theorem Tidy.eraseAll {g : DependencyGraph} (h : Tidy g) (ids : List DependencyId) : Tidy (ids.foldl Dependency.eraseEdge g) := by
  induction ids generalizing g with
  | nil => exact h
  | cons id ids ih => exact ih (h.eraseEdge id)

/-! ## Every operation -/

/-- records under their own valid identities, and exact indexes -/
structure Running (top : Topology) : Prop where
  keyed : Membership.Keyed top.resources
  tidy : Tidy top.dependencies

theorem Running.wellFormed {top : Topology} (h : Running top) : WellFormed top where
  keyed k r hr := (h.keyed k r hr).2
  valid k hk := by
    obtain ⟨r, hr⟩ := (OrderedMap.has_iff _ _).mp hk
    exact (h.keyed k r hr).1
  indexed := h.tidy.indexed

section Operations

variable {clk : Clock} {i : Impl}

/-- an operation on the resources and domains alone -/
theorem Running.of_keyed {top top' : Topology} (h : Running top) (hk : Membership.Keyed top'.resources)
    (hd : top'.dependencies = top.dependencies) : Running top' := ⟨hk, hd ▸ h.tidy⟩

theorem keyed_placeMembers {t : IdTag} {D : Type} (g : Grouping t D) (hid : ∀ r a, (g.place r a).id = r.id) (id : Id t)
    (ks : IdSet .resourceId) {m : Grouping.Resources} (h : Membership.Keyed m) :
    Membership.Keyed (g.placeMembers id ks m) :=
  h.follow (.updateAll m ks fun r => hid r id)

theorem running_register {t : IdTag} {D : Type} (g : Grouping t D) (normalize : D → D) (domain : D)
    (hid : ∀ r a, (g.place r a).id = r.id) (hdeps : ∀ top m, (g.setDomains top m).dependencies = top.dependencies)
    (h : Running i.state.topology) : Running (g.register normalize clk domain i).impl.state.topology := by
  by_cases hopen : (g.id domain).valid = true ∧ (g.domains i.state.topology).has (g.id domain) = false
  · rw [register_topology g normalize clk hopen.1 hopen.2]
    refine h.of_keyed ?_ (hdeps _ _)
    rw [g.resources_setDomains]
    exact keyed_placeMembers g hid _ _ h.keyed
  · rw [register_refused g normalize clk fun hv => Bool.eq_true_of_not_eq_false fun hn => hopen ⟨hv, hn⟩]
    exact h

theorem running_unregister {t : IdTag} {D : Type} (g : Grouping t D) {notFound advanced : String} (id : Id t)
    (expected : TopologyGeneration) (hdeps : ∀ top m, (g.setDomains top m).dependencies = top.dependencies)
    (h : Running i.state.topology)
    (hd : ∀ k ∈ Quarantine.unregistered g id expected i, i.state.topology.resources.has k = true) :
    Running (g.unregister notFound advanced clk id expected i).impl.state.topology := by
  rcases unregister_cases g clk id expected i with ⟨himpl, -⟩ | ⟨d, -, hmembers, htop⟩
  · rw [himpl]
    exact h
  · rw [htop]
    refine h.of_keyed ?_ (hdeps _ _)
    dsimp only
    rw [g.resources_setDomains]
    exact h.keyed.follow (follow_displaced g (displace_id g id) (hmembers ▸ hd))

theorem running_registerDomain (domain : ContainmentDomain) (h : Running i.state.topology) :
    Running (registerDomain clk domain i).impl.state.topology := by
  rcases registerDomain_cases clk domain (i := i) with ⟨himpl, -⟩ | ⟨-, -, ⟨stored, -, -, htop⟩ | ⟨-, htop⟩⟩
  · rw [himpl]
    exact h
  · rw [htop]
    exact h.of_keyed (keyed_placeMembers containmentDomains (fun _ _ => rfl) _ _ h.keyed) rfl
  · rw [htop]
    exact h.of_keyed (keyed_placeMembers containmentDomains (fun _ _ => rfl) _ _ h.keyed) rfl

theorem running_updateDomain (domain : ContainmentDomain) (expected : TopologyGeneration) (h : Running i.state.topology)
    (hd : ∀ k ∈ updateDropped domain expected i, i.state.topology.resources.has k = true) :
    Running (updateDomain clk domain expected i).impl.state.topology := by
  rcases updateDomain_cases clk domain expected (i := i) with ⟨himpl, -⟩ | ⟨previous, stored, hadmitted, -, htop⟩
  · rw [himpl]
    exact h
  · unfold updateDropped at hd
    rw [hadmitted] at hd
    rw [htop]
    refine h.of_keyed ?_ rfl
    have hplaced := keyed_placeMembers containmentDomains (fun _ _ => rfl) domain.id domain.members h.keyed
    refine hplaced.follow (follow_displaced containmentDomains (displace_id _ _) fun k hk => ?_)
    exact (OrderedMap.has_updateAll _ _ _ _).trans (hd k hk)

theorem running_registerResource (record : ResourceRecord) (h : Running i.state.topology) :
    Running (registerResource clk record i).impl.state.topology := by
  cases hadmitted : admitRegisterResource record i with
  | error e =>
    rw [registerResource_refused clk hadmitted]
    exact h
  | ok =>
    obtain ⟨stored, hstored, htop⟩ := registerResource_topology clk hadmitted
    rw [htop]
    exact h.of_keyed (h.keyed.insert (admitRegisterResource_ok hadmitted).1 (by rw [hstored])) rfl

theorem running_updateResource (record : ResourceRecord) (expected : ResourceGeneration) (h : Running i.state.topology) :
    Running (updateResource clk record expected i).impl.state.topology := by
  rcases updateResource_cases clk record expected (i := i) with ⟨himpl, -⟩ | ⟨previous, stored, hok, hstored, htop⟩
  · rw [himpl]
    exact h
  · rw [htop]
    have hvalid := (h.keyed record.id previous (Quarantine.admitResource_ok hok)).1
    exact h.of_keyed (h.keyed.insert hvalid (by rw [hstored])) rfl

theorem running_removeResource (id : ResourceId) (expected : ResourceGeneration) (h : Running i.state.topology) :
    Running (removeResource clk id expected i).impl.state.topology := by
  rcases removeResource_cases clk id expected (i := i) with himpl | ⟨removed, -, htop⟩
  · rw [himpl]
    exact h
  · rw [htop]
    exact ⟨h.keyed.erase, h.tidy.rebuildIndexes.eraseAll _⟩

theorem running_registerDependency (edge : DependencyEdge) (h : Running i.state.topology) :
    Running (registerDependency clk edge i).impl.state.topology := by
  rcases registerDependency_cases clk edge i with himpl | ⟨hadmitted, htop⟩
  · rw [himpl]
    exact h
  · rw [htop]
    refine ⟨h.keyed, h.tidy.insertEdge ?_⟩
    unfold admitRegisterDependency at hadmitted
    dsimp only at hadmitted
    split_ifs at hadmitted with _ _ _ _ hhas
    exact (OrderedMap.has_eq_false _ _).mp (Bool.eq_false_iff.mpr hhas)

theorem running_removeDependency (id : DependencyId) (expected : DependencyGeneration) (h : Running i.state.topology) :
    Running (removeDependency clk id expected i).impl.state.topology := by
  rcases removeDependency_cases clk id expected i with himpl | htop
  · rw [himpl]
    exact h
  · rw [htop]
    exact ⟨h.keyed, h.tidy.eraseEdge id⟩

end Operations

/-- **Step.** Every operation keeps the topology fit, unless it takes an unregistered member out of a domain. -/
theorem running_after (c : Call) (i : Impl) (hd : DropsRegistered c.op i) (h : Running i.state.topology) :
    Running (c.after i).state.topology := by
  cases hedits : editsGraph c.op with
  | false =>
    have hq := quiet_after c i hedits
    exact h.of_keyed (h.keyed.follow (hq.resources.follow fun _ _ e => congrArg Prod.fst e)) hq.dependencies
  | true =>
    obtain ⟨clk, op⟩ := c
    cases op with
    | registerDomain domain => exact running_registerDomain domain h
    | updateDomain domain expected => exact running_updateDomain domain expected h hd
    | removeDomain id expected => exact running_unregister containmentDomains id expected (fun _ _ => rfl) h hd
    | registerIsolationDomain domain =>
      exact running_register isolationDomains _ domain (fun _ _ => rfl) (fun _ _ => rfl) h
    | removeIsolationDomain id expected => exact running_unregister isolationDomains id expected (fun _ _ => rfl) h hd
    | registerFailureDomain domain =>
      exact running_register failureDomains _ domain (fun _ _ => rfl) (fun _ _ => rfl) h
    | removeFailureDomain id expected => exact running_unregister failureDomains id expected (fun _ _ => rfl) h hd
    | registerResource record => exact running_registerResource record h
    | updateResource record expected => exact running_updateResource record expected h
    | removeResource id expected => exact running_removeResource id expected h
    | registerDependency edge => exact running_registerDependency edge h
    | removeDependency id expected => exact running_removeDependency id expected h
    | _ => exact absurd hedits (by simp [editsGraph])

theorem running_construct (clk : Clock) (config : Config) : Running (construct clk config).state.topology :=
  ⟨fun _ _ hr => (by cases hr), tidy_empty⟩

/-- **Runs.** Along a run from a fresh engine that drops registered members only, the topology is well-formed in every state. -/
theorem wellFormed_run (clk : Clock) (config : Config) (calls : List Call)
    (h : Runs.Along Call.after (fun c i => DropsRegistered c.op i) calls (construct clk config)) :
    WellFormed (Runs.run Call.after calls (construct clk config)).state.topology :=
  (Runs.run_inv (fun c i hd => running_after c i hd) h (running_construct clk config)).wellFormed

/-! ## Checks -/

/-- an index is exact when what it lists is stored there and what is stored is listed -/
theorem exact_iff {key : DependencyEdge → ResourceId} {edges : OrderedMap DependencyId DependencyEdge}
    {index : OrderedMap ResourceId (IdSet .dependencyId)} :
    (∀ r id, id ∈ (index.find r).getD [] ↔ ∃ e, edges.find id = some e ∧ key e = r) ↔
      (∀ r ids, index.find r = some ids → ∀ id ∈ ids, (edges.find id).any (fun e => key e = r) = true) ∧
        ∀ id e, edges.find id = some e → id ∈ (index.find (key e)).getD [] := by
  constructor
  · intro h
    refine ⟨fun r ids hr id hid => ?_, fun id e he => (h (key e) id).mpr ⟨e, he, rfl⟩⟩
    obtain ⟨e, he, hkey⟩ := (h r id).mp (by rw [hr]; exact hid)
    exact (Option.any_eq_true _ _).mpr ⟨e, he, decide_eq_true hkey⟩
  · intro ⟨hlisted, hstored⟩ r id
    constructor
    · intro hid
      cases hr : index.find r with
      | none => rw [hr] at hid; cases hid
      | some ids =>
        rw [hr] at hid
        obtain ⟨e, he, hkey⟩ := (Option.any_eq_true _ _).mp (hlisted r ids hr id hid)
        exact ⟨e, he, of_decide_eq_true hkey⟩
    · rintro ⟨e, he, rfl⟩
      exact hstored id e he

/-- a topology is checked -/
instance decidableWellFormed (t : Topology) : Decidable (WellFormed t) :=
  decidable_of_iff ((∀ k r, t.resources.find k = some r → r.id = k ∧ k.valid = true) ∧
      (∀ id e, t.dependencies.edges.find id = some e → e.id = id ∧
        id ∈ (t.dependencies.outgoing.find e.source).getD [] ∧ id ∈ (t.dependencies.incoming.find e.destination).getD []) ∧
      (∀ r ids, t.dependencies.outgoing.find r = some ids → ∀ id ∈ ids,
        (t.dependencies.edges.find id).any (fun e => e.source = r) = true) ∧
      ∀ r ids, t.dependencies.incoming.find r = some ids → ∀ id ∈ ids,
        (t.dependencies.edges.find id).any (fun e => e.destination = r) = true) <| by
    constructor
    · intro ⟨hresources, hedges, houtgoing, hincoming⟩
      refine ⟨fun k r hr => (hresources k r hr).1, fun k hk => ?_, fun id e he => (hedges id e he).1,
        exact_iff.mpr ⟨houtgoing, fun id e he => (hedges id e he).2.1⟩,
        exact_iff.mpr ⟨hincoming, fun id e he => (hedges id e he).2.2⟩⟩
      obtain ⟨r, hr⟩ := (OrderedMap.has_iff _ _).mp hk
      exact (hresources k r hr).2
    · intro h
      obtain ⟨houtgoing, hout⟩ := exact_iff.mp h.indexed.outgoing
      obtain ⟨hincoming, hin⟩ := exact_iff.mp h.indexed.incoming
      exact ⟨fun k r hr => ⟨h.keyed k r hr, h.valid k ((OrderedMap.has_iff _ _).mpr ⟨r, hr⟩)⟩,
        fun id e he => ⟨h.indexed.keyed id e he, hout id e he, hin id e he⟩, houtgoing, hincoming⟩

end FaultContainment.Radius
