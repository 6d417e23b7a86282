/-
Release from containment: the criteria and `authorize_release`.

A release is assessed criterion by criterion, and the first that fails denies it. A granted release returns the resource to
service and takes it off the containment that held it; the last one clears the fault.
-/
import FaultContainment.Engine.Verification

namespace FaultContainment.Engine

open FaultContainment.Lib FaultContainment.Ids FaultContainment.Enums FaultContainment.Records
open FaultContainment.DurableEvent

/-! ## The criteria -/

/-- the containment a request is about: the one it names, or the first live one that covers the resource -/
def containmentFor (s : RuntimeSnapshot) (request : ReleaseRequest) : Option ContainmentRecord :=
  if request.containmentGeneration.valid then s.containments.find request.containmentGeneration
  else s.containments.vals.find? fun c => containmentIsLive c.status &&
    (idSetContains c.mandatory request.resource || idSetContains c.precautionary request.resource)

/-- another live containment still requires the resource fenced -/
def heldElsewhere (s : RuntimeSnapshot) (generation : ContainmentGeneration) (resource : ResourceId) : Bool :=
  s.containments.toList.any fun e => e.1 ≠ generation && containmentIsLive e.2.status &&
    idSetContains e.2.mandatory resource && !idSetContains e.2.released resource

/-- the requesting incarnation holds live authority, or the coordinator itself asks -/
def requesterLive (s : RuntimeSnapshot) (request : ReleaseRequest) : Bool :=
  !request.requesterBoot.valid ||
    (s.workers.incarnations.find ⟨request.requesterWorker, request.requesterBoot⟩).any
      fun w => holdsLiveAuthority w.state

/-- the rule that decides whether release is permitted -/
def releaseRule (s : RuntimeSnapshot) (containment : ContainmentRecord) : FaultRule :=
  match s.faults.find containment.fault with
  | some f => s.policy.ruleFor f.evidence.kind
  | none => s.policy.fallback

/-- a criterion with the decision that follows when it fails -/
structure Criterion where
  finding : VerificationFinding
  decision : ReleaseDecision
  summary : Text

/-- the criteria for a known resource under a known containment, in order -/
def releaseCriteria (s : RuntimeSnapshot) (request : ReleaseRequest) (r : ResourceRecord) (c : ContainmentRecord) :
    List Criterion :=
  let current := !request.expectedGeneration.valid || r.generation = request.expectedGeneration
  let live := requesterLive s request
  let authority := request.authority ≠ []
  let fresh := r.freshness = .fresh &&
    (!request.evidenceSequence.valid || decide (request.evidenceSequence ≤ r.evidenceSequence))
  let allow := (releaseRule s c).allowRelease
  let other := heldElsewhere s c.generation request.resource
  let effective := c.verification.outcome = .contained
  [⟨finding "resource_generation_current" current
      (lit "request expected " ++ request.expectedGeneration.text ++ lit ", current " ++ r.generation.text),
    .releaseDeniedEvidence, lit "the request targets a superseded resource generation"⟩,
   ⟨finding "requester_authority_live" live (lit (if ¬ request.requesterBoot.valid then "coordinator-authorised release"
      else if live then "the requesting incarnation holds live authority"
      else "the requesting incarnation holds no live authority")),
    .releaseDeniedAuthority, lit "a stale worker incarnation requested release"⟩,
   ⟨finding "explicit_release_authority" authority
      (if authority then lit "release authority: " ++ request.authority else lit "no release authority supplied"),
    .releaseDeniedAuthority, lit "release requires an explicit authority"⟩,
   ⟨finding "containment_verified" c.verified
      (lit (if c.verified then "the containment has been verified" else "release before verification is refused")),
    .releaseDeniedUnverified, lit "containment has not been verified"⟩,
   ⟨finding "fresh_evidence" fresh
      (lit "evidence freshness " ++ Coded.name r.freshness ++ lit ", sequence " ++ r.evidenceSequence.text),
    .releaseDeniedEvidence, lit "release requires fresh current evidence"⟩,
   ⟨finding "policy_permits_release" allow
      (lit (if allow then "policy permits release for this fault kind" else "policy forbids release for this fault kind")),
    .releaseDeniedPolicy, lit "policy forbids release"⟩,
   ⟨finding "no_other_live_containment" (!other)
      (lit (if other then "another live containment still requires this resource fenced"
        else "no other live containment covers this resource")),
    .releaseDeniedPropagation, lit "another live containment still requires this resource"⟩,
   ⟨finding "containment_proven_effective" effective
      (lit "verification outcome is " ++ Coded.name c.verification.outcome),
    .releaseDeniedUnverified, lit "release requires a containment that was verified as CONTAINED"⟩,
   ⟨finding "no_unresolved_propagation" c.verification.propagationBlocked
      (lit (if c.verification.propagationBlocked then "every recorded propagation path is severed"
        else "a propagation path is still live or unproven")),
    .releaseDeniedPropagation, lit "unresolved propagation prevents release"⟩]

/-- criteria are recorded until one fails; all of them passing grants the release -/
def judgeCriteria : List Criterion → ReleaseAssessment → ReleaseAssessment
  | [], a => { a with decision := .releaseGranted, granted := true, summary := lit "release criteria satisfied" }
  | c :: cs, a =>
    let a := { a with criteria := a.criteria ++ [c.finding] }
    if c.finding.passed then judgeCriteria cs a else { a with decision := c.decision, summary := c.summary }

/-- `assess_release` -/
def assessRelease (s : RuntimeSnapshot) (request : ReleaseRequest) : ReleaseAssessment :=
  let resource := s.topology.resources.find request.resource
  let containment := containmentFor s request
  let a : ReleaseAssessment :=
    { resource := request.resource
      containmentGeneration := request.containmentGeneration
      criteria := [
        finding "resource_exists" resource.isSome
          (lit (if resource.isSome then "resource is present in the current topology" else "unknown resource")),
        finding "containment_exists" containment.isSome
          (lit (if containment.isSome then "a containment covers this resource"
            else "no containment covers this resource"))] }
  match resource, containment with
  | some r, some c => judgeCriteria (releaseCriteria s request r c) { a with containmentGeneration := c.generation }
  | _, _ => { a with decision := .releaseDeniedPolicy, summary := lit "release criteria cannot be evaluated" }

/-! ## The release -/

/-- a resource returned to service -/
def returnToService (time : UInt64) (release : ReleaseGeneration) (r : ResourceRecord) : ResourceRecord :=
  { r with
    state := .active, quarantined := false, mechanism := .none, releaseGeneration := release
    generation := nextGeneration r.generation, updatedAtMs := time }

/-- a containment with one resource taken off it; the last mandatory one ends it -/
def takeOff (time : UInt64) (id : ResourceId) (c : ContainmentRecord) : ContainmentRecord :=
  let mandatory := idSetErase c.mandatory id
  { c with
    released := idSetInsert c.released id
    mandatory := mandatory
    precautionary := idSetErase c.precautionary id
    updatedAtMs := time
    status := if mandatory = [] then .released else c.status
    releasedFlag := if mandatory = [] then true else c.releasedFlag }

/-- the fault of a containment that has ended, when it may be cleared -/
def clearFault (time : UInt64) (f : FaultRecord) : Option FaultRecord :=
  if isLegalFaultTransition f.state .cleared then some { f with state := .cleared, lastUpdatedMs := time } else none

/-- a granted release takes the resource off its containment -/
def takeOffContainment (clk : Clock) (generation : ContainmentGeneration) (id : ResourceId) (i : Impl) :
    Impl × List Event × List Event :=
  match i.state.containments.find generation with
  | none => (i, [], [])
  | some c =>
    let stored := takeOff (clk 2) id c
    let i := i.withContainments (i.state.containments.insert generation stored)
    let (i, cleared) := if stored.mandatory = [] then
        stageFault c.fault ((i.state.faults.find c.fault).bind (clearFault (clk 3))) i
      else (i, [])
    (i, cleared, [⟨.containmentUpsert, stored, none⟩])

/-- the effect of a granted release -/
def grantRelease (clk : Clock) (request : ReleaseRequest) (a : ReleaseAssessment) (r : ResourceRecord) (i : Impl) :
    Step ReleaseAssessment :=
  let stored := returnToService (clk 1) a.generation r
  let i := i.withResources (i.state.topology.resources.insert request.resource stored)
  let i := i.advanceTopology
  let i := { i with state := { i.state with releaseGeneration := a.generation } }
  let (i, cleared, takenOff) := takeOffContainment clk a.containmentGeneration request.resource i
  commit i (clk 4)
    { type := .releaseGranted, detail := lit "release granted for " ++ request.resource.text ++ lit ": " ++ a.summary
      authority := lit "ReleaseGeneration " ++ a.generation.text, resource := request.resource
      containment := a.containmentGeneration }
    cleared (⟨.resourceUpsert, stored, ·⟩) takenOff a

/-- `authorize_release` -/
def authorizeRelease (clk : Clock) (request : ReleaseRequest) (i : Impl) : Step ReleaseAssessment :=
  let a := { assessRelease i.state request with generation := nextGeneration i.state.releaseGeneration }
  let i := { i with releases := i.releases.insert request.resource a }
  if ¬ a.granted then
    commit i (clk 1)
      { type := .releaseRefused, detail := lit "release refused for " ++ request.resource.text ++ lit ": " ++ a.summary
        authority := lit "CoordinatorEpoch " ++ i.state.epoch.text, resource := request.resource
        containment := a.containmentGeneration }
      [] (⟨.history, (), ·⟩) [] a
  else
    match i.state.topology.resources.find request.resource with
    | none => .refuse i (makeError .unknownResource "release.authorize" "resource not found" request.resource.text)
    | some r => grantRelease clk request a r i

end FaultContainment.Engine
