/-
Topology operations: domains, resources, dependencies, policy, and resource evidence.

Each operation checks its request against the state, edits the state, and commits. Several edits reach a second record (the
placement of a member, the member list of a domain, the authority of an incarnation) that the operation does not stage.
-/
import FaultContainment.Engine.Grouping

namespace FaultContainment.Engine

open FaultContainment.Lib FaultContainment.Ids FaultContainment.Enums FaultContainment.Records
open FaultContainment.DurableEvent FaultContainment.Dependency FaultContainment.Policy

/-! ## Containment domains -/

/-- places the registered members one by one; stops at a member that belongs to another domain -/
def claimMembers (id : ContainmentDomainId) :
    IdSet .resourceId → OrderedMap ResourceId ResourceRecord → OrderedMap ResourceId ResourceRecord × Option ResourceId
  | [], m => (m, none)
  | k :: members, m =>
    match m.find k with
    | none => claimMembers id members m
    | some r =>
      if r.containmentDomain.valid ∧ r.containmentDomain ≠ id then (m, some k)
      else claimMembers id members (m.insert k { r with containmentDomain := id })

/-- a registered resource that belongs to another domain -/
def foreign (id : ContainmentDomainId) (m : OrderedMap ResourceId ResourceRecord) (k : ResourceId) : Bool :=
  (m.find k).any fun r => r.containmentDomain.valid && r.containmentDomain ≠ id

/-- the members before the first foreign one are placed, and that one is reported -/
theorem claimMembers_eq (id : ContainmentDomainId) (ks : List ResourceId) (m : OrderedMap ResourceId ResourceRecord) :
    claimMembers id ks m = (m.updateAll (ks.takeWhile fun k => !foreign id m k) fun r =>
      { r with containmentDomain := id }, ks.find? (foreign id m)) := by
  induction ks generalizing m with
  | nil => rfl
  | cons k ks ih =>
    have hsame : ∀ r, m.find k = some r → foreign id m k = false →
        foreign id (m.insert k { r with containmentDomain := id }) = foreign id m := by
      intro r hr hk
      funext a
      by_cases ha : k = a
      · subst ha
        rw [hk]
        simp [foreign]
      · rw [foreign, foreign, OrderedMap.find_insert_ne _ _ ha]
    cases hf : m.find k with
    | none =>
      have hk : foreign id m k = false := by simp [foreign, hf]
      have hstay : m.update k (fun r => { r with containmentDomain := id }) = m := by
        simp [OrderedMap.update, hf]
      rw [claimMembers, hf, ih, List.takeWhile_cons_of_pos (by simp [hk]), List.find?_cons_of_neg (by simp [hk])]
      simp only [OrderedMap.updateAll, List.foldl_cons, hstay]
    | some r =>
      rw [claimMembers, hf]
      dsimp only
      by_cases hk : r.containmentDomain.valid ∧ r.containmentDomain ≠ id
      · have hforeign : foreign id m k = true := by simp [foreign, hf, hk]
        rw [if_pos hk, List.takeWhile_cons_of_neg (by simp [hforeign]), List.find?_cons_of_pos hforeign]
        rfl
      · have hforeign : foreign id m k = false := by
          simp only [foreign, hf, Option.any_some]
          simpa using hk
        have hplace : m.update k (fun r => { r with containmentDomain := id }) =
            m.insert k { r with containmentDomain := id } := by
          simp [OrderedMap.update, hf]
        rw [if_neg hk, ih, hsame r hf hforeign, List.takeWhile_cons_of_pos (by simp [hforeign]),
          List.find?_cons_of_neg (by simp [hforeign])]
        simp only [OrderedMap.updateAll, List.foldl_cons, hplace]

/-- placing members that are placed already changes nothing -/
theorem updateAll_placed_iff (id : ContainmentDomainId) (ks : List ResourceId)
    (m : OrderedMap ResourceId ResourceRecord) :
    m.updateAll ks (fun r => { r with containmentDomain := id }) = m ↔
      ∀ k ∈ ks, ∀ r ∈ m.find k, r.containmentDomain = id := by
  have hfind := OrderedMap.find_updateAll m ks (fun r => { r with containmentDomain := id }) fun _ => rfl
  constructor
  · intro h k hk r hr
    have hk' := hfind k
    rw [h, if_pos hk, Option.mem_def.mp hr] at hk'
    exact congrArg ResourceRecord.containmentDomain (Option.some.inj hk')
  · intro h
    refine OrderedMap.ext fun k => ?_
    rw [hfind]
    split_ifs with hk
    · cases hr : m.find k with
      | none => rfl
      | some r =>
        rw [← h k hk r hr]
        rfl
    · rfl

/-- the records of the registered members, as they are staged -/
def memberEvents (members : IdSet .resourceId) (m : OrderedMap ResourceId ResourceRecord) : List Event :=
  members.filterMap fun k => (m.find k).map fun r => ⟨.resourceUpsert, r, none⟩

/-- `register_domain`; a conflict is found after earlier members were placed -/
def registerDomain (clk : Clock) (domain : ContainmentDomain) (i : Impl) : Step ContainmentDomain :=
  if ¬ domain.id.valid then .refuse i (makeError .invalidId "domain.register" "domain identity is invalid")
  else if i.state.topology.containmentDomains.has domain.id then
    .refuse i (makeError .duplicateId "domain.register" "containment domain already exists" domain.id.text)
  else
    let i := i.advanceTopology
    let stored := { domain with generation := i.state.topologyGeneration }
    let (placed, conflict) := claimMembers domain.id domain.members i.state.topology.resources
    let i := i.withResources placed
    match conflict with
    | some member =>
      .refuse i (makeError .invalidDomainGraph "domain.register" "resource already belongs to another containment domain"
        member.text)
    | none =>
      let i := i.withContainmentDomains (i.state.topology.containmentDomains.emplace domain.id stored)
      commit i (clk 0)
        { type := .domainRegistered
          detail := lit "containment domain " ++ domain.id.text ++ lit " " ++ domain.name
          authority := i.topologyAuthority }
        (memberEvents domain.members placed) (⟨.containmentDomainUpsert, stored, ·⟩) [] stored

/-- the checks of `update_domain`; the domain as it was -/
def admitUpdateDomain (domain : ContainmentDomain) (expected : TopologyGeneration) (i : Impl) :
    Except Error ContainmentDomain :=
  match i.state.topology.containmentDomains.find domain.id with
  | none => .error (makeError .unknownDomain "domain.update" "containment domain not found" domain.id.text)
  | some previous =>
    if ¬ expected.valid ∨ previous.generation ≠ expected then
      .error (makeError .staleTopologyGeneration "domain.update" "domain generation has advanced"
        previous.generation.text)
    else
      match domain.members.find? fun k => !i.state.topology.resources.has k with
      | some member =>
        .error (makeError .invalidDomainGraph "domain.update" "domain references a resource that is not registered"
          member.text)
      | none => .ok previous

/-- members that an update drops -/
def droppedMembers (previous members : IdSet .resourceId) : IdSet .resourceId :=
  previous.filter fun k => !idSetContains members k

/-- `update_domain` -/
def updateDomain (clk : Clock) (domain : ContainmentDomain) (expected : TopologyGeneration) (i : Impl) : Step Unit :=
  match admitUpdateDomain domain expected i with
  | .error e => .refuse i e
  | .ok previous =>
    let i := i.advanceTopology
    let stored := { domain with generation := i.state.topologyGeneration }
    let i := i.withContainmentDomains (i.state.topology.containmentDomains.insert domain.id stored)
    let placed := i.state.topology.resources.subscriptAll domain.members fun r =>
      { r with containmentDomain := domain.id }
    let i := i.withResources
      (containmentDomains.displaceMembers domain.id (droppedMembers previous.members domain.members) placed)
    commit i (clk 0)
      { type := .domainUpdated, detail := lit "containment domain " ++ domain.id.text ++ lit " updated"
        authority := i.topologyAuthority }
      [] (⟨.containmentDomainUpsert, stored, ·⟩) [] ()

/-- `remove_domain` -/
def removeDomain (clk : Clock) (id : ContainmentDomainId) (expected : TopologyGeneration) (i : Impl) : Step Unit :=
  containmentDomains.unregister "containment domain not found" "domain generation has advanced" clk id expected i

/-! ## Isolation and failure domains -/

/-- `register_isolation_domain` -/
def registerIsolationDomain (clk : Clock) (domain : IsolationDomain) (i : Impl) : Step IsolationDomain :=
  isolationDomains.register (fun d => { d with classes := enumSetNormalize d.classes }) clk domain i

/-- `remove_isolation_domain` -/
def removeIsolationDomain (clk : Clock) (id : IsolationDomainId) (expected : TopologyGeneration) (i : Impl) :
    Step Unit :=
  isolationDomains.unregister "not found" "generation has advanced" clk id expected i

/-- `register_failure_domain` -/
def registerFailureDomain (clk : Clock) (domain : FailureDomain) (i : Impl) : Step FailureDomain :=
  failureDomains.register (fun d => d) clk domain i

/-- `remove_failure_domain` -/
def removeFailureDomain (clk : Clock) (id : FailureDomainId) (expected : TopologyGeneration) (i : Impl) : Step Unit :=
  failureDomains.unregister "not found" "generation has advanced" clk id expected i

/-! ## Resources -/

/-- the checks of `register_resource` -/
def admitRegisterResource (record : ResourceRecord) (i : Impl) : Except Error Unit :=
  let t := i.state.topology
  if ¬ record.id.valid then .error (makeError .invalidId "resource.register" "resource identity is invalid")
  else if i.config.maxResources ≤ t.resources.size then
    .error (makeError .resourceExhausted "resource.register" "resource ceiling reached")
  else if t.resources.has record.id then
    .error (makeError .duplicateId "resource.register" "resource already registered" record.id.text)
  else if record.containmentDomain.valid ∧ ¬ t.containmentDomains.has record.containmentDomain then
    .error (makeError .invalidDomainGraph "resource.register" "unknown containment domain" record.containmentDomain.text)
  else if record.isolationDomain.valid ∧ ¬ t.isolationDomains.has record.isolationDomain then
    .error (makeError .invalidDomainGraph "resource.register" "unknown isolation domain" record.isolationDomain.text)
  else if record.failureDomain.valid ∧ ¬ t.failureDomains.has record.failureDomain then
    .error (makeError .invalidDomainGraph "resource.register" "unknown failure domain" record.failureDomain.text)
  else .ok ()

/-- `register_resource` -/
def registerResource (clk : Clock) (record : ResourceRecord) (i : Impl) : Step ResourceRecord :=
  match admitRegisterResource record i with
  | .error e => .refuse i e
  | .ok () =>
    let i := i.advanceTopology
    let stored := { record with generation := nextGeneration record.generation, updatedAtMs := clk 0 }
    -- only a real incarnation may accumulate live authority
    let i := if record.ownerBoot.valid then
        i.withIncarnations (i.state.workers.incarnations.update ⟨record.ownerWorker, record.ownerBoot⟩
          fun w => { w with liveAuthority := idSetInsert w.liveAuthority record.id })
      else i
    let i := containmentDomains.edit i (containmentDomains.join record.containmentDomain record.id)
    let i := isolationDomains.edit i (isolationDomains.join record.isolationDomain record.id)
    let i := failureDomains.edit i (failureDomains.join record.failureDomain record.id)
    let i := i.withResources (i.state.topology.resources.emplace stored.id stored)
    commit i (clk 1)
      { type := .resourceRegistered, detail := lit "resource " ++ stored.id.text ++ lit " " ++ stored.name
        authority := i.topologyAuthority, resource := stored.id }
      [] (⟨.resourceUpsert, stored, ·⟩) [] stored

/-- the generation check shared by `update_resource` and `remove_resource`; the record as it was -/
def admitResource (stage : String) (id : ResourceId) (expected : ResourceGeneration) (i : Impl) :
    Except Error ResourceRecord :=
  match i.state.topology.resources.find id with
  | none => .error (makeError .unknownResource stage "resource not found" id.text)
  | some r =>
    if ¬ expected.valid ∨ r.generation ≠ expected then
      .error (makeError .staleResourceGeneration stage "resource generation has advanced" r.generation.text)
    else .ok r

/-- `update_resource`: the caller's record replaces the stored one -/
def updateResource (clk : Clock) (record : ResourceRecord) (expected : ResourceGeneration) (i : Impl) :
    Step ResourceRecord :=
  match admitResource "resource.update" record.id expected i with
  | .error e => .refuse i e
  | .ok previous =>
    let i := i.advanceTopology
    let stored := { record with generation := nextGeneration record.generation, updatedAtMs := clk 0 }
    let i := containmentDomains.edit i
      (containmentDomains.moveMembership previous.containmentDomain record.containmentDomain record.id)
    let i := isolationDomains.edit i
      (isolationDomains.moveMembership previous.isolationDomain record.isolationDomain record.id)
    let i := failureDomains.edit i
      (failureDomains.moveMembership previous.failureDomain record.failureDomain record.id)
    let i := i.withResources (i.state.topology.resources.insert stored.id stored)
    commit i (clk 1)
      { type := .topologyUpdated, detail := lit "resource " ++ stored.id.text ++ lit " updated"
        authority := i.topologyAuthority, resource := stored.id }
      [] (⟨.resourceUpsert, stored, ·⟩) [] stored

/-- a live containment whose mandatory set lists the resource -/
def heldBy (containments : OrderedMap ContainmentGeneration ContainmentRecord) (id : ResourceId) : Bool :=
  containments.vals.any fun c => containmentIsLive c.status && idSetContains c.mandatory id

/-- the edges that touch a resource -/
def edgesOf (g : DependencyGraph) (id : ResourceId) : List DependencyId :=
  (g.edges.toList.filter fun e => e.2.source = id || e.2.destination = id).map Prod.fst

/-- `remove_resource` -/
def removeResource (clk : Clock) (id : ResourceId) (expected : ResourceGeneration) (i : Impl) : Step Unit :=
  match admitResource "resource.remove" id expected i with
  | .error e => .refuse i e
  | .ok removed =>
    if heldBy i.state.containments id then
      .refuse i (makeError .revalidationRequired "resource.remove" "resource is a member of a live containment" id.text)
    else
      let dependencies := edgesOf i.state.topology.dependencies id
      let i := i.withDependencies (dependencies.foldl eraseEdge (rebuildIndexes i.state.topology.dependencies))
      let i := containmentDomains.edit i (containmentDomains.leave removed.containmentDomain id)
      let i := isolationDomains.edit i (isolationDomains.leave removed.isolationDomain id)
      let i := failureDomains.edit i (failureDomains.leave removed.failureDomain id)
      let i := i.withResources (i.state.topology.resources.erase id)
      let i := i.advanceTopology
      commit i (clk 0)
        { type := .topologyUpdated, detail := lit "resource " ++ id.text ++ lit " removed"
          authority := i.topologyAuthority, resource := id }
        [] (⟨.resourceRemove, id, ·⟩) (dependencies.map fun d => ⟨.dependencyRemove, d, none⟩) ()

/-! ## Dependencies -/

/-- the checks of `register_dependency` -/
def admitRegisterDependency (edge : DependencyEdge) (i : Impl) : Except Error Unit :=
  let t := i.state.topology
  if ¬ edge.id.valid then .error (makeError .invalidId "dependency.register" "identity is invalid")
  else if i.config.maxDependencies ≤ t.dependencies.edges.size then
    .error (makeError .resourceExhausted "dependency.register" "dependency ceiling reached")
  else if edge.source = edge.destination then
    .error (makeError .invalidDependency "dependency.register" "self dependency" edge.source.text)
  else if ¬ t.resources.has edge.source ∨ ¬ t.resources.has edge.destination then
    .error (makeError .invalidDependency "dependency.register"
      "dependency endpoints must both be registered resources")
  else if t.dependencies.edges.has edge.id then
    .error (makeError .duplicateId "dependency.register" "dependency already exists" edge.id.text)
  else if 1000 < edge.confidencePermille.toNat then
    .error (makeError .invalidArgument "dependency.register" "confidence must be at most 1000 permille")
  else .ok ()

/-- `register_dependency` -/
def registerDependency (clk : Clock) (edge : DependencyEdge) (i : Impl) : Step DependencyEdge :=
  match admitRegisterDependency edge i with
  | .error e => .refuse i e
  | .ok () =>
    let i := i.advanceTopology
    let stored := { edge with generation := nextGeneration edge.generation }
    let i := i.withDependencies (insertEdge i.state.topology.dependencies stored)
    commit i (clk 0)
      { type := .dependencyRegistered
        detail := lit "dependency " ++ stored.id.text ++ lit " " ++ Coded.name stored.kind ++ lit " " ++
          stored.source.text ++ lit " -> " ++ stored.destination.text
        authority := i.topologyAuthority }
      [] (⟨.dependencyUpsert, stored, ·⟩) [] stored

/-- `remove_dependency` -/
def removeDependency (clk : Clock) (id : DependencyId) (expected : DependencyGeneration) (i : Impl) : Step Unit :=
  match i.state.topology.dependencies.edges.find id with
  | none => .refuse i (makeError .invalidDependency "dependency.remove" "dependency not found" id.text)
  | some edge =>
    if ¬ expected.valid ∨ edge.generation ≠ expected then
      .refuse i (makeError .staleTopologyGeneration "dependency.remove" "dependency generation has advanced"
        edge.generation.text)
    else
      let i := i.withDependencies (eraseEdge i.state.topology.dependencies id)
      let i := i.advanceTopology
      commit i (clk 0)
        { type := .dependencyRemoved, detail := lit "dependency " ++ id.text ++ lit " removed"
          authority := i.topologyAuthority }
        [] (⟨.dependencyRemove, id, ·⟩) [] ()

/-! ## Policy -/

/-- `set_policy` -/
def setPolicy (clk : Clock) (policy : ContainmentPolicy) (i : Impl) : Step Unit :=
  match validatePolicy policy with
  | .error e => .refuse i e
  | .ok () =>
    let stored := { policy with generation := nextGeneration i.state.policyGeneration }
    let i := { i with state := { i.state with policyGeneration := stored.generation, policy := stored } }
    commit i (clk 0)
      { type := .topologyUpdated, detail := lit "policy updated to " ++ stored.name
        authority := lit "PolicyGeneration " ++ i.state.policyGeneration.text }
      [] (⟨.policySet, stored, ·⟩) [] ()

/-! ## Evidence -/

/-- the checks of `publish_resource_evidence`; the record as it was -/
def admitEvidence (id : ResourceId) (expected : ResourceGeneration) (sequence : EvidenceSequence) (i : Impl) :
    Except Error ResourceRecord :=
  match i.state.topology.resources.find id with
  | none => .error (makeError .unknownResource "evidence.publish" "resource not found" id.text)
  | some r =>
    if expected.valid ∧ r.generation ≠ expected then
      .error (makeError .staleResourceGeneration "evidence.publish" "resource generation has advanced"
        r.generation.text)
    else if sequence.valid ∧ r.evidenceSequence.valid ∧ sequence < r.evidenceSequence then
      .error (makeError .staleEvidence "evidence.publish" "evidence sequence is older than the current one"
        (sequence.text ++ lit " < " ++ r.evidenceSequence.text))
    else .ok r

/-- the record under new evidence: fresh evidence updates trust, never authority -/
def withEvidence (time : UInt64) (freshness : EvidenceFreshness) (sequence : EvidenceSequence)
    (mechanism : ContainmentMechanism) (r : ResourceRecord) : ResourceRecord :=
  { r with
    freshness := freshness
    evidenceSequence := if sequence.valid then sequence else nextGeneration r.evidenceSequence
    mechanism := if mechanism ≠ .none then mechanism else r.mechanism
    state := if !r.quarantined ∧ r.state = .unknown ∧ freshness = .fresh then .active else r.state
    generation := nextGeneration r.generation
    updatedAtMs := time }

/-- `publish_resource_evidence` -/
def publishResourceEvidence (clk : Clock) (id : ResourceId) (expected : ResourceGeneration)
    (freshness : EvidenceFreshness) (sequence : EvidenceSequence) (mechanism : ContainmentMechanism) (source : Text)
    (i : Impl) : Step ResourceRecord :=
  match admitEvidence id expected sequence i with
  | .error e => .refuse i e
  | .ok r =>
    let stored := withEvidence (clk 0) freshness sequence mechanism r
    let i := i.withResources (i.state.topology.resources.insert id stored)
    let i := i.advanceTopology
    commit i (clk 1)
      { type := .resourceEvidenceUpdated
        detail := lit "evidence for " ++ id.text ++ lit " is " ++ Coded.name freshness ++
          (if source = [] then [] else lit " from " ++ source)
        authority := lit "ResourceGeneration " ++ stored.generation.text, resource := id }
      [] (⟨.resourceUpsert, stored, ·⟩) [] stored

end FaultContainment.Engine
