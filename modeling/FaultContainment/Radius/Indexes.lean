/-
The adjacency indexes over any calls of `insert`, `erase` and `rebuild_indexes` (`dependency.cpp`).

`insert` overwrites the edge and lists it under its ends; where it was listed before it stays listed. So the indexes are those
a rebuild would make of the edges exactly as long as no stored edge is inserted again with another end.

- `upsert_iff`: one index after an insertion.
- `exact_after_iff`: each call keeps the indexes exact, but for that insertion.
- `indexes_iff`: runs from an empty graph.
-/
import FaultContainment.Radius.Running
import FaultContainment.Lib.Runs

namespace FaultContainment.Indexes

open FaultContainment.Lib FaultContainment.Ids FaultContainment.Records FaultContainment.Dependency FaultContainment.Radius

/-! ## Calls -/

inductive GraphOp where
  | insert (edge : DependencyEdge)
  | erase (id : DependencyId)
  | rebuild

/-- the graph after a call -/
def GraphOp.apply : GraphOp → DependencyGraph → DependencyGraph
  | .insert edge, g => insertEdge g edge
  | .erase id, g => eraseEdge g id
  | .rebuild, g => rebuildIndexes g

/-- each entry of an index is strictly ascending and names stored edges with that end -/
structure Names (f : DependencyEdge → ResourceId) (edges : Edges) (index : OrderedMap ResourceId (IdSet .dependencyId)) :
    Prop where
  ascending : ∀ r ids, index.find r = some ids → SortedSet ids
  stored : ∀ r ids, index.find r = some ids → ∀ id ∈ ids, ∃ e, edges.find id = some e ∧ f e = r

/-- the indexes are those a rebuild makes of the edges, and name nothing else -/
structure Exact (g : DependencyGraph) : Prop where
  outgoing : g.outgoing = (rebuildIndexes g).outgoing
  incoming : g.incoming = (rebuildIndexes g).incoming
  sources : Names DependencyEdge.source g.edges g.outgoing
  destinations : Names DependencyEdge.destination g.edges g.incoming

/-- no stored edge is inserted with another source or destination -/
def Steady : GraphOp → DependencyGraph → Prop
  | .insert edge, g => ∀ old, g.edges.find edge.id = some old →
      old.source = edge.source ∧ old.destination = edge.destination
  | .erase _, _ => True
  | .rebuild, _ => True

/-! ## One index -/

section Index

variable {f : DependencyEdge → ResourceId} {edges : Edges} {index : OrderedMap ResourceId (IdSet .dependencyId)}

/-- no entry is empty -/
def Filled (index : OrderedMap ResourceId (IdSet .dependencyId)) : Prop := ∀ r, index.find r ≠ some []

/-- **Edges have one exact index.** -/
theorem points_unique {index' : OrderedMap ResourceId (IdSet .dependencyId)} (h : Points f edges index)
    (h' : Points f edges index') (hfilled : Filled index) (hfilled' : Filled index') : index = index' := by
  apply OrderedMap.ext
  intro r
  have hsame : (index.find r).getD [] = (index'.find r).getD [] :=
    sortedSet_ext (h.sorted r) (h'.sorted r) fun id => (h.exact r id).trans (h'.exact r id).symm
  cases hr : index.find r with
  | none =>
    rw [hr] at hsame
    cases hr' : index'.find r with
    | none => rfl
    | some ids =>
      rw [hr'] at hsame
      cases hsame
      exact absurd hr' (hfilled' r)
  | some ids =>
    rw [hr] at hsame
    cases hr' : index'.find r with
    | none =>
      rw [hr'] at hsame
      cases hsame
      exact absurd hr (hfilled r)
    | some ids' =>
      rw [hr'] at hsame
      exact congrArg some hsame

theorem points_names (h : Points f edges index) : Names f edges index := by
  constructor
  · intro r ids hr
    have hsorted := h.sorted r
    rwa [hr] at hsorted
  · intro r ids hr id hid
    exact (h.exact r id).mp (by rw [hr]; exact hid)

theorem Filled.subscript (h : Filled index) (r : ResourceId) (id : DependencyId) :
    Filled (index.subscript r fun s => idSetInsert s id) := by
  intro k hk
  rw [OrderedMap.find_subscript] at hk
  split_ifs at hk
  · exact idSetInsert_ne_nil _ _ (Option.some.inj hk)
  · exact h k hk

theorem Filled.unindex (h : Filled index) (r : ResourceId) (id : DependencyId) : Filled (unindex index r id) := by
  intro k hk
  unfold Dependency.unindex at hk
  cases hr : index.find r with
  | none =>
    rw [hr] at hk
    exact h k hk
  | some s =>
    rw [hr] at hk
    dsimp only at hk
    by_cases hempty : idSetErase s id = []
    · rw [if_pos hempty, OrderedMap.find_erase] at hk
      split_ifs at hk
      exact h k hk
    · rw [if_neg hempty, OrderedMap.find_insert] at hk
      split_ifs at hk
      · exact hempty (Option.some.inj hk)
      · exact h k hk

theorem filled_empty : Filled ∅ := by
  intro r hr
  rw [OrderedMap.find_empty] at hr
  cases hr

theorem filled_rebuilt (f : DependencyEdge → ResourceId) (es : List DependencyEdge) (h : Filled index) :
    Filled (es.foldl (fun m e => m.subscript (f e) fun s => idSetInsert s e.id) index) := by
  induction es generalizing index with
  | nil => exact h
  | cons e es ih => exact ih (h.subscript (f e) e.id)

/-- **One index after an insertion** is exact when the edge was not there or had the same end. -/
theorem upsert_iff (h : Points f edges index) (e : DependencyEdge) :
    Points f (edges.insert e.id e) (index.subscript (f e) fun s => idSetInsert s e.id) ↔
      ∀ old, edges.find e.id = some old → f old = f e := by
  constructor
  · intro hafter old hold
    by_contra hne
    -- the edge stays listed under its old end
    have hlisted : e.id ∈ ((index.subscript (f e) fun s => idSetInsert s e.id).find (f old)).getD [] := by
      rw [OrderedMap.find_subscript, if_neg (Ne.symm hne)]
      exact (h.exact (f old) e.id).mpr ⟨old, hold, rfl⟩
    obtain ⟨e', he', hend⟩ := (hafter.exact (f old) e.id).mp hlisted
    rw [OrderedMap.find_insert_self] at he'
    exact hne (hend.symm.trans (congrArg f (Option.some.inj he').symm))
  · intro hsame
    constructor
    · intro r
      rw [OrderedMap.find_subscript]
      split_ifs with hr
      · exact sorted_idSetInsert (h.sorted (f e)) e.id
      · exact h.sorted r
    · intro r id
      rw [mem_listed, h.exact, OrderedMap.find_insert]
      by_cases hid : e.id = id
      · subst hid
        rw [if_pos rfl]
        constructor
        · rintro (⟨-, hr⟩ | ⟨old, hold, hr⟩)
          · exact ⟨e, rfl, hr⟩
          · exact ⟨e, rfl, (hsame old hold).symm.trans hr⟩
        · rintro ⟨e', he', hr⟩
          cases he'
          exact .inl ⟨rfl, hr⟩
      · rw [if_neg hid]
        constructor
        · rintro (⟨h, -⟩ | h)
          · exact absurd h.symm hid
          · exact h
        · exact .inr

end Index

/-! ## The graph -/

/-- exact indexes without empty entries -/
structure Whole (g : DependencyGraph) : Prop where
  tidy : Tidy g
  outgoing : Filled g.outgoing
  incoming : Filled g.incoming

theorem whole_rebuilt {g : DependencyGraph} (h : OrderedMap.Keyed DependencyEdge.id g.edges) :
    Whole (rebuildIndexes g) :=
  ⟨tidy_rebuilt h, filled_rebuilt _ _ filled_empty, filled_rebuilt _ _ filled_empty⟩

/-- exact indexes are those of a rebuild -/
theorem exact_iff_whole {g : DependencyGraph} (h : OrderedMap.Keyed DependencyEdge.id g.edges) : Exact g ↔ Whole g := by
  have hrebuilt := whole_rebuilt h
  constructor
  · intro hexact
    have hsame : g = rebuildIndexes g := by
      obtain ⟨edges, outgoing, incoming⟩ := g
      rw [rebuildIndexes, DependencyGraph.mk.injEq]
      exact ⟨rfl, hexact.outgoing, hexact.incoming⟩
    rw [hsame]
    exact hrebuilt
  · intro hwhole
    exact ⟨points_unique hwhole.tidy.outgoing hrebuilt.tidy.outgoing hwhole.outgoing hrebuilt.outgoing,
      points_unique hwhole.tidy.incoming hrebuilt.tidy.incoming hwhole.incoming hrebuilt.incoming,
      points_names hwhole.tidy.outgoing, points_names hwhole.tidy.incoming⟩

/-- every call stores edges under their own identity -/
theorem keyed_apply (op : GraphOp) {g : DependencyGraph} (h : OrderedMap.Keyed DependencyEdge.id g.edges) :
    OrderedMap.Keyed DependencyEdge.id (op.apply g).edges := by
  cases op with
  | insert edge => exact h.insert rfl
  | erase id =>
    have hstored : OrderedMap.Keyed DependencyEdge.id (eraseEdge g id).edges := by
      intro id' e he
      rw [find_eraseEdge] at he
      split_ifs at he
      exact h id' e he
    exact hstored
  | rebuild => exact h

theorem Whole.eraseEdge {g : DependencyGraph} (h : Whole g) (id : DependencyId) : Whole (Dependency.eraseEdge g id) := by
  have htidy := h.tidy.eraseEdge id
  unfold Dependency.eraseEdge at htidy ⊢
  cases he : g.edges.find id with
  | none => exact h
  | some e =>
    rw [he] at htidy
    exact ⟨htidy, h.outgoing.unindex _ _, h.incoming.unindex _ _⟩

/-- an insertion keeps both indexes exact or spoils one of them -/
theorem whole_insertEdge_iff {g : DependencyGraph} (h : Whole g) (edge : DependencyEdge) :
    Whole (insertEdge g edge) ↔ Steady (.insert edge) g := by
  have hsource := upsert_iff h.tidy.outgoing edge
  have hdestination := upsert_iff h.tidy.incoming edge
  constructor
  · intro hafter old hold
    exact ⟨hsource.mp hafter.tidy.outgoing old hold, hdestination.mp hafter.tidy.incoming old hold⟩
  · intro hsteady
    exact ⟨⟨h.tidy.keyed.insert rfl, hsource.mpr fun old hold => (hsteady old hold).1,
        hdestination.mpr fun old hold => (hsteady old hold).2⟩, h.outgoing.subscript _ _, h.incoming.subscript _ _⟩

/-- **Step.** A call keeps the indexes exact unless it inserts a stored edge with another end. -/
theorem exact_after_iff (op : GraphOp) {g : DependencyGraph} (hkeyed : OrderedMap.Keyed DependencyEdge.id g.edges)
    (h : Exact g) : Exact (op.apply g) ↔ Steady op g := by
  have hwhole := (exact_iff_whole hkeyed).mp h
  rw [exact_iff_whole (keyed_apply op hkeyed)]
  cases op with
  | insert edge => exact whole_insertEdge_iff hwhole edge
  | erase id => exact iff_of_true (hwhole.eraseEdge id) trivial
  | rebuild => exact iff_of_true (whole_rebuilt hkeyed) trivial

/-- **The indexes are exact** throughout any calls on an empty graph exactly as long as no stored edge is inserted with
another source or destination. -/
theorem indexes_iff (ops : List GraphOp) :
    Runs.Always GraphOp.apply Exact ops {} ↔ Runs.Along GraphOp.apply Steady ops {} := by
  have hempty : Exact {} := (exact_iff_whole tidy_empty.keyed).mpr ⟨tidy_empty, filled_empty, filled_empty⟩
  have hkeep : ∀ (op : GraphOp) (g : DependencyGraph), OrderedMap.Keyed DependencyEdge.id g.edges → Exact g →
      OrderedMap.Keyed DependencyEdge.id (op.apply g).edges := fun op g hkeyed _ => keyed_apply op hkeyed
  exact @Runs.always_iff _ _ GraphOp.apply Steady _ Exact hkeep (fun op g hkeyed h => exact_after_iff op hkeyed h) _ _
    tidy_empty.keyed hempty

/-- an edge from 1 to 2, and then from 3 to 4 -/
def moved : List GraphOp :=
  [.insert { id := ⟨1⟩, source := ⟨1⟩, destination := ⟨2⟩ }, .insert { id := ⟨1⟩, source := ⟨3⟩, destination := ⟨4⟩ }]

/-- the edge is still listed under 1, where it no longer starts and where no rebuild lists it -/
theorem indexes_stale :
    (Runs.run GraphOp.apply moved {}).outgoing.find ⟨1⟩ = some [⟨1⟩] ∧
    ((Runs.run GraphOp.apply moved {}).edges.find ⟨1⟩).map DependencyEdge.source = some ⟨3⟩ ∧
    (rebuildIndexes (Runs.run GraphOp.apply moved {})).outgoing.find ⟨1⟩ = none ∧
    ¬ Exact (Runs.run GraphOp.apply moved {}) := by
  have hlisted : (Runs.run GraphOp.apply moved {}).outgoing.find ⟨1⟩ = some [⟨1⟩] := by decide +kernel
  have hrebuilt : (rebuildIndexes (Runs.run GraphOp.apply moved {})).outgoing.find ⟨1⟩ = none := by decide +kernel
  refine ⟨hlisted, by decide +kernel, hrebuilt, fun h => ?_⟩
  rw [← h.outgoing, hlisted] at hrebuilt
  cases hrebuilt

end FaultContainment.Indexes
