/-
The implementation state of the engine (`Engine::Impl`) and the shape of a mutation.

A mutation runs under the exclusive lock, edits the state, stages durable events in order, and hands them to `flush` after
the lock is released. `Step` is what one locked section leaves behind: the state, the staged events, whether the section
went on to flush them, and the value or the error it returns. Each reading of the clock inside a section is one entry of a
`Clock`.

- `commit`: the common end of a mutation: one audit record, the journaled bodies around the audited one, the counters.
-/
import FaultContainment.DurableEvent
import FaultContainment.BlastRadius
import FaultContainment.Detail.Digest

namespace FaultContainment.Engine

open FaultContainment.Lib FaultContainment.Ids FaultContainment.Enums FaultContainment.Records
open FaultContainment.DurableEvent

/-- the readings of the clock in one locked section, in the order the code takes them -/
abbrev Clock := ℕ → UInt64

/-- a clock that ticks -/
def ticks : Clock := fun n => UInt64.ofNat (n + 1)

/-- `Engine::Config`, the limits the engine looks at -/
structure Config where
  initialEpoch : CoordinatorEpoch := {}
  maxHistoryInMemory : ℕ := 100000
  maxResources : ℕ := 200000
  maxDependencies : ℕ := 1000000
  maxFaults : ℕ := 1000000
  maxWorkers : ℕ := 100000

theorem digest_key_injective : Function.Injective fun d : Digest => d.bytes.map UInt8.toNat := by
  rintro ⟨b, hb⟩ ⟨b', hb'⟩ h
  have : b = b' := List.map_injective_iff.mpr (fun x y hxy => UInt8.toNat_inj.mp hxy) h
  subst this; rfl

/-- digests compare as byte arrays -/
instance : LinearOrder Digest := orderBy (fun d => d.bytes.map UInt8.toNat) digest_key_injective

/-- `Engine::Impl`; sequence numbers are natural numbers, written modulo 2^64 -/
structure Impl where
  config : Config := {}
  state : RuntimeSnapshot := {}
  durableSequence : ℕ := 0
  durabilityHealthy : Bool := true
  shuttingDown : Bool := false
  faultByDigest : OrderedMap Digest FaultId := ∅
  releases : OrderedMap ResourceId ReleaseAssessment := ∅
  authorityLossFaults : OrderedMap WorkerKey FaultId := ∅
  nextFault : UInt64 := 1
  nextAction : UInt64 := 1
  nextDegraded : UInt64 := 1
  deriving Inhabited

/-- what one locked section leaves behind -/
structure Step (α : Type) where
  impl : Impl
  staged : List Event := []
  flushed : Bool := true
  result : Except Error α

/-- a section that returns an error before it edits or stages anything -/
def Step.refuse {α : Type} (i : Impl) (e : Error) : Step α := { impl := i, flushed := false, result := .error e }

/-- a section that returns a value without editing or staging anything -/
def Step.answer {α : Type} (i : Impl) (a : α) : Step α := { impl := i, flushed := false, result := .ok a }

/-! ## State updates -/

namespace Impl

variable (i : Impl)

def withTopology (t : Topology) : Impl := { i with state := { i.state with topology := t } }

def withTopologyGeneration (g : TopologyGeneration) : Impl :=
  { i with state := { i.state with topologyGeneration := g } }

/-- `state.topology_generation = next_generation(state.topology_generation)` -/
def advanceTopology : Impl := i.withTopologyGeneration (nextGeneration i.state.topologyGeneration)

def withResources (m : OrderedMap ResourceId ResourceRecord) : Impl :=
  i.withTopology { i.state.topology with resources := m }

def withContainmentDomains (m : OrderedMap ContainmentDomainId ContainmentDomain) : Impl :=
  i.withTopology { i.state.topology with containmentDomains := m }

def withIsolationDomains (m : OrderedMap IsolationDomainId IsolationDomain) : Impl :=
  i.withTopology { i.state.topology with isolationDomains := m }

def withFailureDomains (m : OrderedMap FailureDomainId FailureDomain) : Impl :=
  i.withTopology { i.state.topology with failureDomains := m }

def withDependencies (g : DependencyGraph) : Impl := i.withTopology { i.state.topology with dependencies := g }

def withIncarnations (m : OrderedMap WorkerKey WorkerRecord) : Impl :=
  { i with state := { i.state with workers := { i.state.workers with incarnations := m } } }

def withFaults (m : OrderedMap FaultId FaultRecord) : Impl := { i with state := { i.state with faults := m } }

def withActions (m : OrderedMap ActionId ContainmentAction) : Impl := { i with state := { i.state with actions := m } }

def withContainments (m : OrderedMap ContainmentGeneration ContainmentRecord) : Impl :=
  { i with state := { i.state with containments := m } }

@[simp] theorem advanceTopology_topology : i.advanceTopology.state.topology = i.state.topology := rfl
@[simp] theorem advanceTopology_containments : i.advanceTopology.state.containments = i.state.containments := rfl
@[simp] theorem withResources_resources (m) : (i.withResources m).state.topology.resources = m := rfl
@[simp] theorem withResources_containments (m) : (i.withResources m).state.containments = i.state.containments := rfl
@[simp] theorem withIncarnations_topology (m) : (i.withIncarnations m).state.topology = i.state.topology := rfl
@[simp] theorem withDependencies_resources (g) :
    (i.withDependencies g).state.topology.resources = i.state.topology.resources := rfl
@[simp] theorem withDependencies_containments (g) : (i.withDependencies g).state.containments = i.state.containments := rfl

/-! ## Counters and history -/

/-- `counters`: the release generation is left out -/
def counters : Counters where
  epoch := i.state.epoch
  topologyGeneration := i.state.topologyGeneration
  policyGeneration := i.state.policyGeneration
  containmentGeneration := i.state.containmentGeneration
  verificationGeneration := i.state.verificationGeneration
  historySequence := i.state.historySequence
  nextFaultId := i.nextFault
  nextActionId := i.nextAction
  nextDegradedId := i.nextDegraded

/-- `apply_counters` -/
def applyCounters (c : Counters) : Impl :=
  { i with
    state := { i.state with
      epoch := c.epoch, topologyGeneration := c.topologyGeneration, policyGeneration := c.policyGeneration,
      containmentGeneration := c.containmentGeneration, verificationGeneration := c.verificationGeneration,
      historySequence := c.historySequence }
    nextFault := c.nextFaultId
    nextAction := c.nextActionId
    nextDegraded := c.nextDegradedId }

/-- the record `add_history` appends: the entry under the next sequence, at a time, in the current epoch -/
def stamped (time : UInt64) (entry : HistoryEvent) : HistoryEvent :=
  { entry with sequence := nextGeneration i.state.historySequence, timestampMs := time, epoch := i.state.epoch }

/-- history in memory is cut back to its cap once it exceeds the cap by a quarter -/
def trimHistory (cap : ℕ) (history : List HistoryEvent) : List HistoryEvent :=
  if 0 < cap ∧ cap + cap / 4 < history.length then history.drop (history.length - cap) else history

/-- the state after `add_history` appended a record -/
def pushHistory (event : HistoryEvent) : Impl :=
  { i with state := { i.state with
      historySequence := event.sequence
      history := trimHistory i.config.maxHistoryInMemory (i.state.history ++ [event])
      historyTotal := i.state.historyTotal + 1 } }

/-- `add_history`, the state it leaves -/
def addHistory (time : UInt64) (entry : HistoryEvent) : Impl := i.pushHistory (i.stamped time entry)

/-- what `stage_counters` stages -/
def countersEvent : Event := ⟨.counters, i.counters, none⟩

end Impl

/-- the end of a mutation: the audit record of `entry` travels with `event`; `before` and `after` are staged around it -/
def commit {α : Type} (i : Impl) (time : UInt64) (entry : HistoryEvent) (before : List Event)
    (event : Option HistoryEvent → Event) (after : List Event) (a : α) : Step α where
  impl := i.addHistory time entry
  staged := before ++ event (some (i.stamped time entry)) :: (after ++ [(i.addHistory time entry).countersEvent])
  result := .ok a

@[simp] theorem commit_topology {α : Type} (i : Impl) (time : UInt64) (entry : HistoryEvent) (before : List Event)
    (event : Option HistoryEvent → Event) (after : List Event) (a : α) :
    (commit i time entry before event after a).impl.state.topology = i.state.topology := rfl

@[simp] theorem commit_containments {α : Type} (i : Impl) (time : UInt64) (entry : HistoryEvent) (before : List Event)
    (event : Option HistoryEvent → Event) (after : List Event) (a : α) :
    (commit i time entry before event after a).impl.state.containments = i.state.containments := rfl

/-! ## Construction -/

/-- the epoch a fresh state starts in -/
def Config.startEpoch (c : Config) : CoordinatorEpoch := if c.initialEpoch.valid then c.initialEpoch else ⟨1⟩

/-- the state before any record: default policy, first topology generation, starting epoch -/
def Config.emptyState (c : Config) : RuntimeSnapshot :=
  { epoch := c.startEpoch
    policy := Policy.makeDefaultPolicy
    policyGeneration := Policy.makeDefaultPolicy.generation
    topologyGeneration := ⟨1⟩ }

/-- the constructor -/
def construct (clk : Clock) (config : Config) : Impl :=
  let i : Impl := { config := config, state := { config.emptyState with nowMs := clk 0 } }
  i.addHistory (clk 1)
    { type := .coordinatorStarted, detail := lit "runtime constructed at epoch " ++ i.state.epoch.text }

/-- `"TopologyGeneration " + to_string(state.topology_generation)` -/
def Impl.topologyAuthority (i : Impl) : Text := lit "TopologyGeneration " ++ i.state.topologyGeneration.text

end FaultContainment.Engine
