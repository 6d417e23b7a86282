/-
The operations of the engine as one transition system.

An `Op` is one locked section with its arguments; `Op.run` is what it does. A public call is one section, except
`dispatch_containment` (two sections around the executor) and `worker_authority_lost` (a section, then `publish_fault`,
then a section that remembers the fault, then `authorize_containment`). The section `flush` takes after a failed append is
an operation too, so a run of operations covers every order in which the lock can be taken.
-/
import FaultContainment.Engine.Release

namespace FaultContainment.Engine

open FaultContainment.Lib FaultContainment.Ids FaultContainment.Enums FaultContainment.Records
open FaultContainment.DurableEvent

/-- one locked section of the engine, with its arguments -/
inductive Op where
  | registerDomain (domain : ContainmentDomain)
  | updateDomain (domain : ContainmentDomain) (expected : TopologyGeneration)
  | removeDomain (id : ContainmentDomainId) (expected : TopologyGeneration)
  | registerIsolationDomain (domain : IsolationDomain)
  | removeIsolationDomain (id : IsolationDomainId) (expected : TopologyGeneration)
  | registerFailureDomain (domain : FailureDomain)
  | removeFailureDomain (id : FailureDomainId) (expected : TopologyGeneration)
  | registerResource (record : ResourceRecord)
  | updateResource (record : ResourceRecord) (expected : ResourceGeneration)
  | removeResource (id : ResourceId) (expected : ResourceGeneration)
  | registerDependency (edge : DependencyEdge)
  | removeDependency (id : DependencyId) (expected : DependencyGeneration)
  | setPolicy (policy : ContainmentPolicy)
  | publishResourceEvidence (id : ResourceId) (expected : ResourceGeneration) (freshness : EvidenceFreshness)
      (sequence : EvidenceSequence) (mechanism : ContainmentMechanism) (source : Text)
  | registerWorker (worker : WorkerId) (boot : WorkerBootId) (endpoint : Text) (sequence : EvidenceSequence)
  | retireWorker (worker : WorkerId) (boot : WorkerBootId) (reason : Text)
  | beginEpoch (nowMs : UInt64) (reason : Text)
  | publishFault (evidence : FaultEvidence)
  | supersedeFault (id : FaultId) (expected : FaultGeneration) (reason : Text)
  | authorizeContainment (id : FaultId) (expected : FaultGeneration)
  | dispatchBegin (generation : ContainmentGeneration) (executorAttached : Bool)
  | dispatchEnd (attempts : List Attempt) (summary : DispatchSummary)
  | recordActionAck (ack : ActionAcknowledgment)
  | recordActionResult (result : ActionResult)
  | verifyContainment (generation : ContainmentGeneration)
  | authorizeDegradedMode (contract : DegradedModeContract)
  | revalidateDegradedMode (id : DegradedModeId)
  | authorizeRelease (request : ReleaseRequest)
  | authorityLost (worker : WorkerId) (boot : WorkerBootId) (detail : Text) (observationTimeMs : UInt64)
  | noteAuthorityLoss (key : WorkerKey) (fault : FaultId)
  | requestShutdown
  | persistenceFault (error : Error)

/-- a step whose value nobody looks at -/
def Step.void {α : Type} (s : Step α) : Step Unit :=
  { impl := s.impl, staged := s.staged, flushed := s.flushed, result := s.result.map fun _ => () }

/-- the third section of `worker_authority_lost` -/
def noteAuthorityLoss (key : WorkerKey) (fault : FaultId) (i : Impl) : Step Unit :=
  .answer { i with authorityLossFaults := i.authorityLossFaults.insert key fault } ()

/-- the locked section of `shutdown`; the snapshot it then takes is a separate call -/
def requestShutdown (clk : Clock) (i : Impl) : Step Unit :=
  if i.shuttingDown then .answer i ()
  else
    .answer (Impl.addHistory { i with shuttingDown := true } (clk 0)
      { type := .recoveryApplied, detail := lit "shutdown requested" }) ()

/-- the section `flush` runs when an append failed -/
def persistenceFault (clk : Clock) (e : Error) (i : Impl) : Step Unit :=
  .answer (Impl.addHistory { i with durabilityHealthy := false } (clk 0)
    { type := .persistenceFault, detail := errorText e }) ()

/-- what a locked section does -/
def Op.run (clk : Clock) : Op → Impl → Step Unit
  | .registerDomain domain, i => (Engine.registerDomain clk domain i).void
  | .updateDomain domain expected, i => Engine.updateDomain clk domain expected i
  | .removeDomain id expected, i => Engine.removeDomain clk id expected i
  | .registerIsolationDomain domain, i => (Engine.registerIsolationDomain clk domain i).void
  | .removeIsolationDomain id expected, i => Engine.removeIsolationDomain clk id expected i
  | .registerFailureDomain domain, i => (Engine.registerFailureDomain clk domain i).void
  | .removeFailureDomain id expected, i => Engine.removeFailureDomain clk id expected i
  | .registerResource record, i => (Engine.registerResource clk record i).void
  | .updateResource record expected, i => (Engine.updateResource clk record expected i).void
  | .removeResource id expected, i => Engine.removeResource clk id expected i
  | .registerDependency edge, i => (Engine.registerDependency clk edge i).void
  | .removeDependency id expected, i => Engine.removeDependency clk id expected i
  | .setPolicy policy, i => Engine.setPolicy clk policy i
  | .publishResourceEvidence id expected freshness sequence mechanism source, i =>
    (Engine.publishResourceEvidence clk id expected freshness sequence mechanism source i).void
  | .registerWorker worker boot endpoint sequence, i => (Engine.registerWorker clk worker boot endpoint sequence i).void
  | .retireWorker worker boot reason, i => Engine.retireWorker clk worker boot reason i
  | .beginEpoch nowMs reason, i => (Engine.beginEpoch clk nowMs reason i).void
  | .publishFault evidence, i => (Engine.publishFault clk evidence i).void
  | .supersedeFault id expected reason, i => (Engine.supersedeFault clk id expected reason i).void
  | .authorizeContainment id expected, i => (Engine.authorizeContainment clk id expected i).void
  | .dispatchBegin generation executorAttached, i => (Engine.dispatchBegin clk generation executorAttached i).void
  | .dispatchEnd attempts summary, i => (Engine.dispatchEnd clk attempts summary i).void
  | .recordActionAck ack, i => Engine.recordActionAck clk ack i
  | .recordActionResult result, i => Engine.recordActionResult clk result i
  | .verifyContainment generation, i => (Engine.verifyContainment clk generation i).void
  | .authorizeDegradedMode contract, i => (Engine.authorizeDegradedMode clk contract i).void
  | .revalidateDegradedMode id, i => (Engine.revalidateDegradedMode clk id i).void
  | .authorizeRelease request, i => (Engine.authorizeRelease clk request i).void
  | .authorityLost worker boot detail observationTimeMs, i =>
    (Engine.authorityLost clk worker boot detail observationTimeMs i).void
  | .noteAuthorityLoss key fault, i => Engine.noteAuthorityLoss key fault i
  | .requestShutdown, i => Engine.requestShutdown clk i
  | .persistenceFault error, i => Engine.persistenceFault clk error i

/-- a section together with the clock readings it takes -/
structure Call where
  clk : Clock
  op : Op

/-- the engine after a call; a run of the engine is a run of this step -/
def Call.after (c : Call) (i : Impl) : Impl := (c.op.run c.clk i).impl

/-- the section returned no error -/
def Call.succeeds (c : Call) (i : Impl) : Prop := (c.op.run c.clk i).result = .ok ()

end FaultContainment.Engine
