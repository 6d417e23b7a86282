/-
The dependency graph (`dependency.cpp`): edges under their identities and two adjacency indexes.

- `find_insertEdge`, `find_eraseEdge`: the edge map after each operation; the indexes never decide what an edge is.
-/
import FaultContainment.Types.Records

namespace FaultContainment.Dependency

open FaultContainment.Lib FaultContainment.Ids FaultContainment.Records

/-- `DependencyGraph::insert` -/
def insertEdge (g : DependencyGraph) (edge : DependencyEdge) : DependencyGraph where
  edges := g.edges.insert edge.id edge
  outgoing := g.outgoing.subscript edge.source fun s => idSetInsert s edge.id
  incoming := g.incoming.subscript edge.destination fun s => idSetInsert s edge.id

/-- drops an edge from one adjacency index, and the entry when nothing is left of it -/
def unindex (index : OrderedMap ResourceId (IdSet .dependencyId)) (r : ResourceId) (id : DependencyId) :
    OrderedMap ResourceId (IdSet .dependencyId) :=
  match index.find r with
  | none => index
  | some s => if idSetErase s id = [] then index.erase r else index.insert r (idSetErase s id)

/-- `DependencyGraph::erase` -/
def eraseEdge (g : DependencyGraph) (id : DependencyId) : DependencyGraph :=
  match g.edges.find id with
  | none => g
  | some edge => {
      edges := g.edges.erase id
      outgoing := unindex g.outgoing edge.source id
      incoming := unindex g.incoming edge.destination id }

/-- `DependencyGraph::rebuild_indexes` -/
def rebuildIndexes (g : DependencyGraph) : DependencyGraph where
  edges := g.edges
  outgoing := g.edges.vals.foldl (fun m edge => m.subscript edge.source fun s => idSetInsert s edge.id) ∅
  incoming := g.edges.vals.foldl (fun m edge => m.subscript edge.destination fun s => idSetInsert s edge.id) ∅

/-- the graph a reader builds from edges -/
def ofEdges (edges : List DependencyEdge) : DependencyGraph := edges.foldl insertEdge {}

theorem find_insertEdge (g : DependencyGraph) (edge : DependencyEdge) (id : DependencyId) :
    (insertEdge g edge).edges.find id = if edge.id = id then some edge else g.edges.find id :=
  OrderedMap.find_insert g.edges edge.id id edge

theorem find_eraseEdge (g : DependencyGraph) (id id' : DependencyId) :
    (eraseEdge g id).edges.find id' = if id = id' then none else g.edges.find id' := by
  unfold eraseEdge
  split
  · next h =>
    split_ifs with he
    · rw [← he, h]
    · rfl
  · exact OrderedMap.find_erase g.edges id id'

end FaultContainment.Dependency
