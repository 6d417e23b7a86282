/-
The three kinds of domain, seen as one.

Containment, isolation and failure domains share their bookkeeping: a domain lists member resources, and a resource names
the domain of each kind it is placed in. A `Grouping` is one kind: where its domains and placements live, and the texts its
operations use. Membership and placement are two copies of one relation, and the operations below edit them one at a time.
-/
import FaultContainment.Engine.Impl

namespace FaultContainment.Engine

open FaultContainment.Lib FaultContainment.Ids FaultContainment.Enums FaultContainment.Records
open FaultContainment.DurableEvent

/-- a resource record apart from where it is placed -/
def unplaced (r : ResourceRecord) : ResourceRecord :=
  { r with containmentDomain := {}, isolationDomain := {}, failureDomain := {} }

/-- one kind of domain -/
structure Grouping (t : IdTag) (D : Type) where
  domains : Topology → OrderedMap (Id t) D
  setDomains : Topology → OrderedMap (Id t) D → Topology
  id : D → Id t
  generation : D → TopologyGeneration
  setGeneration : D → TopologyGeneration → D
  name : D → Text
  members : D → IdSet .resourceId
  setMembers : D → IdSet .resourceId → D
  placement : ResourceRecord → Id t
  place : ResourceRecord → Id t → ResourceRecord
  upsert : D → Option HistoryEvent → Event
  remove : Id t → Option HistoryEvent → Event
  stage : String
  label : String
  resources_setDomains : ∀ t m, (setDomains t m).resources = t.resources
  domains_setDomains : ∀ t m, domains (setDomains t m) = m
  id_setMembers : ∀ d s, id (setMembers d s) = id d
  id_setGeneration : ∀ d s, id (setGeneration d s) = id d
  members_setMembers : ∀ d s, members (setMembers d s) = s
  members_setGeneration : ∀ d s, members (setGeneration d s) = members d
  placement_place : ∀ r i, placement (place r i) = i
  place_placement : ∀ r, place r (placement r) = r
  unplaced_place : ∀ r i, unplaced (place r i) = unplaced r

/-- containment domains -/
def containmentDomains : Grouping .containmentDomainId ContainmentDomain where
  domains t := t.containmentDomains
  setDomains t m := { t with containmentDomains := m }
  id := ContainmentDomain.id
  generation := ContainmentDomain.generation
  setGeneration d g := { d with generation := g }
  name := ContainmentDomain.name
  members := ContainmentDomain.members
  setMembers d s := { d with members := s }
  placement := ResourceRecord.containmentDomain
  place r i := { r with containmentDomain := i }
  upsert d h := ⟨.containmentDomainUpsert, d, h⟩
  remove i h := ⟨.containmentDomainRemove, i, h⟩
  stage := "domain"
  label := "containment domain "
  resources_setDomains _ _ := rfl
  domains_setDomains _ _ := rfl
  id_setMembers _ _ := rfl
  id_setGeneration _ _ := rfl
  members_setMembers _ _ := rfl
  members_setGeneration _ _ := rfl
  placement_place _ _ := rfl
  place_placement _ := rfl
  unplaced_place _ _ := rfl

/-- isolation domains -/
def isolationDomains : Grouping .isolationDomainId IsolationDomain where
  domains t := t.isolationDomains
  setDomains t m := { t with isolationDomains := m }
  id := IsolationDomain.id
  generation := IsolationDomain.generation
  setGeneration d g := { d with generation := g }
  name := IsolationDomain.name
  members := IsolationDomain.members
  setMembers d s := { d with members := s }
  placement := ResourceRecord.isolationDomain
  place r i := { r with isolationDomain := i }
  upsert d h := ⟨.isolationDomainUpsert, d, h⟩
  remove i h := ⟨.isolationDomainRemove, i, h⟩
  stage := "isolation_domain"
  label := "isolation domain "
  resources_setDomains _ _ := rfl
  domains_setDomains _ _ := rfl
  id_setMembers _ _ := rfl
  id_setGeneration _ _ := rfl
  members_setMembers _ _ := rfl
  members_setGeneration _ _ := rfl
  placement_place _ _ := rfl
  place_placement _ := rfl
  unplaced_place _ _ := rfl

/-- failure domains -/
def failureDomains : Grouping .failureDomainId FailureDomain where
  domains t := t.failureDomains
  setDomains t m := { t with failureDomains := m }
  id := FailureDomain.id
  generation := FailureDomain.generation
  setGeneration d g := { d with generation := g }
  name := FailureDomain.name
  members := FailureDomain.members
  setMembers d s := { d with members := s }
  placement := ResourceRecord.failureDomain
  place r i := { r with failureDomain := i }
  upsert d h := ⟨.failureDomainUpsert, d, h⟩
  remove i h := ⟨.failureDomainRemove, i, h⟩
  stage := "failure_domain"
  label := "failure domain "
  resources_setDomains _ _ := rfl
  domains_setDomains _ _ := rfl
  id_setMembers _ _ := rfl
  id_setGeneration _ _ := rfl
  members_setMembers _ _ := rfl
  members_setGeneration _ _ := rfl
  placement_place _ _ := rfl
  place_placement _ := rfl
  unplaced_place _ _ := rfl

namespace Grouping

variable {t : IdTag} {D : Type} (g : Grouping t D)

abbrev Resources := OrderedMap ResourceId ResourceRecord

/-! ## Edits of placements -/

/-- places every registered member in a domain -/
def placeMembers (id : Id t) (members : IdSet .resourceId) (m : Resources) : Resources :=
  m.updateAll members fun r => g.place r id

/-- takes a record out of a domain if it is placed there -/
def displace (id : Id t) (r : ResourceRecord) : ResourceRecord := if g.placement r = id then g.place r {} else r

/-- takes members out of a domain; the lookup creates a record for a member that is not registered -/
def displaceMembers (id : Id t) (members : IdSet .resourceId) (m : Resources) : Resources :=
  m.subscriptAll members (g.displace id)

/-! ## Edits of member lists -/

/-- adds a resource to a domain's members -/
def enlist (r : ResourceId) (d : D) : D := g.setMembers d (idSetInsert (g.members d) r)

/-- takes a resource off a domain's members -/
def delist (r : ResourceId) (d : D) : D := g.setMembers d (idSetErase (g.members d) r)

/-- `register_resource`: a resource joins the domain it references -/
def join [Inhabited D] (id : Id t) (r : ResourceId) (m : OrderedMap (Id t) D) : OrderedMap (Id t) D :=
  if id.valid then m.subscript id (g.enlist r) else m

/-- `move_membership` of `update_resource` -/
def moveMembership (old new : Id t) (r : ResourceId) (m : OrderedMap (Id t) D) : OrderedMap (Id t) D :=
  let m := if old.valid ∧ old ≠ new then m.update old (g.delist r) else m
  if new.valid then m.update new (g.enlist r) else m

/-- `remove_resource`: a resource leaves the domain it references -/
def leave (id : Id t) (r : ResourceId) (m : OrderedMap (Id t) D) : OrderedMap (Id t) D :=
  if id.valid then m.update id (g.delist r) else m

/-- edits the domains of one kind -/
def edit (i : Impl) (f : OrderedMap (Id t) D → OrderedMap (Id t) D) : Impl :=
  i.withTopology (g.setDomains i.state.topology (f (g.domains i.state.topology)))

/-! ## Registering and removing a domain -/

/-- `register_isolation_domain`, `register_failure_domain` -/
def register (normalize : D → D) (clk : Clock) (domain : D) (i : Impl) : Step D :=
  if ¬ (g.id domain).valid then .refuse i (makeError .invalidId (g.stage ++ ".register") "identity is invalid")
  else if (g.domains i.state.topology).has (g.id domain) then
    .refuse i (makeError .duplicateId (g.stage ++ ".register") "already exists" (g.id domain).text)
  else
    let i := i.advanceTopology
    let stored := normalize (g.setGeneration domain i.state.topologyGeneration)
    let i := i.withResources (g.placeMembers (g.id domain) (g.members domain) i.state.topology.resources)
    let i := g.edit i fun m => m.emplace (g.id domain) stored
    commit i (clk 0)
      { type := .domainRegistered, detail := lit g.label ++ (g.id domain).text ++ lit " " ++ g.name stored,
        authority := i.topologyAuthority }
      [] (g.upsert stored) [] stored

/-- `remove_domain`, `remove_isolation_domain`, `remove_failure_domain` -/
def unregister (notFound advanced : String) (clk : Clock) (id : Id t) (expected : TopologyGeneration) (i : Impl) :
    Step Unit :=
  match (g.domains i.state.topology).find id with
  | none => .refuse i (makeError .unknownDomain (g.stage ++ ".remove") notFound id.text)
  | some d =>
    if ¬ expected.valid ∨ g.generation d ≠ expected then
      .refuse i (makeError .staleTopologyGeneration (g.stage ++ ".remove") advanced (g.generation d).text)
    else
      let i := g.edit i fun m => m.erase id
      let i := i.advanceTopology
      let i := i.withResources (g.displaceMembers id (g.members d) i.state.topology.resources)
      commit i (clk 0)
        { type := .domainRemoved, detail := lit g.label ++ id.text ++ lit " removed", authority := i.topologyAuthority }
        [] (g.remove id) [] ()

end Grouping

end FaultContainment.Engine
