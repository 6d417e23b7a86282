/-
Preview and commitment (`evaluate_containment`, `authorize_containment`).

Both compute the radius from the same state. The radius takes its stamps from copies in the topology and in the policy,
the commitment from the counters of the engine. The copy in the policy is set with the policy; nothing ever sets the copy
in the topology, and a recovery restores what was written of it.

- `agrees_iff`: a preview agrees with its commitment exactly when the copies agree with the counters.
- `unstamped_run`: over operations, snapshots and recoveries, the topology never carries a generation of its own.
- `preview_never`: so no preview agrees with its commitment.
-/
import FaultContainment.References
import FaultContainment.Engine.Staged
import FaultContainment.Engine.Lives

namespace FaultContainment.Preview

open FaultContainment.Lib FaultContainment.Ids FaultContainment.Enums FaultContainment.Records FaultContainment.Policy
open FaultContainment.BlastRadius FaultContainment.Explanation FaultContainment.DurableEvent FaultContainment.Persistence
open FaultContainment.Engine FaultContainment.Membership FaultContainment.References

/-! ## The preview -/

/-- `evaluate_containment` -/
def evaluateContainment (id : FaultId) (expected : FaultGeneration) (i : Impl) : Except Error Records.BlastRadius :=
  match i.state.faults.find id with
  | none => .error (makeError .unknownFault "containment.evaluate" "fault not found" id.text)
  | some fault =>
    if expected.valid ∧ fault.evidence.generation ≠ expected then
      .error (makeError .staleFaultGeneration "containment.evaluate" "fault generation has advanced"
        fault.evidence.generation.text)
    else
      computeBlastRadius
        { topology := i.state.topology, policy := i.state.policy, fault := fault, epoch := i.state.epoch
          generation := nextGeneration i.state.containmentGeneration }

/-- the lines that state under which stamps a decision was taken -/
def authorityLines (epoch : CoordinatorEpoch) (fault : FaultGeneration) (policy : PolicyGeneration)
    (topology : TopologyGeneration) (containment : ContainmentGeneration) : ContainmentExplanation :=
  [line "AUTHORITY" (lit "epoch") (lit "CoordinatorEpoch " ++ epoch.text),
   line "AUTHORITY" (lit "fault_generation") (lit "FaultGeneration " ++ fault.text),
   line "AUTHORITY" (lit "policy_generation") (lit "PolicyGeneration " ++ policy.text),
   line "AUTHORITY" (lit "topology_generation") (lit "TopologyGeneration " ++ topology.text),
   line "AUTHORITY" (lit "containment_generation") (lit "ContainmentGeneration " ++ containment.text)]

/-- a preview and a committed record agree, and the explanation that is stored states what is recorded -/
structure Agrees (radius : Records.BlastRadius) (record : ContainmentRecord) : Prop where
  generation : radius.generation = record.generation
  epoch : radius.epoch = record.epoch
  policyGeneration : radius.policyGeneration = record.policyGeneration
  topologyGeneration : radius.topologyGeneration = record.topologyGeneration
  faultGeneration : radius.faultGeneration = record.faultGeneration
  mandatory : radius.mandatory = record.mandatory
  precautionary : radius.precautionary = record.precautionary
  unaffected : radius.unaffected = record.unaffected
  unresolved : radius.unresolved = record.unresolved
  outcome : radius.recommended = record.outcome
  authority : ∀ l, l ∈ record.explanation ∧ l.category = lit "AUTHORITY" ↔ l ∈ authorityLines record.epoch
    record.faultGeneration record.policyGeneration record.topologyGeneration record.generation

/-! ## The explanation -/

/-- finalising loses no line -/
theorem mem_finalize (lines : ContainmentExplanation) (l : ExplanationLine) : l ∈ finalize lines ↔ l ∈ lines := by
  unfold finalize
  rw [← List.mem_insertionSort (fun a b => lineLt b a = false) (l := lines)]
  cases List.insertionSort (fun a b => lineLt b a = false) lines with
  | nil => exact Iff.rfl
  | cons a as => exact mem_destutter as a l

/-- the lines about the authority are the five that state the stamps of the radius -/
theorem authority_explainRadius (topology : Topology) (rule : FaultRule) (fault : FaultRecord) (acc : Classifications)
    (radius : Records.BlastRadius) (l : ExplanationLine) :
    l ∈ explainRadius topology rule fault acc radius ∧ l.category = lit "AUTHORITY" ↔
      l ∈ authorityLines radius.epoch radius.faultGeneration radius.policyGeneration radius.topologyGeneration
        radius.generation := by
  have hforeign : ∀ (c : String) (k t : Text), lit c ≠ lit "AUTHORITY" → l.category = lit "AUTHORITY" →
      l ≠ line c k t := by
    intro c k t hc hcat he
    rw [he] at hcat
    exact hc hcat
  have hmap : ∀ {β : Type} (c : String) (k t : β → Text) (bs : List β), lit c ≠ lit "AUTHORITY" →
      l.category = lit "AUTHORITY" → l ∉ bs.map fun b => line c (k b) (t b) := by
    intro β c k t bs hc hcat hmem
    obtain ⟨b, -, hb⟩ := List.mem_map.mp hmem
    exact hforeign c _ _ hc hcat hb.symm
  unfold explainRadius
  rw [mem_finalize]
  constructor
  · rintro ⟨hl, hcat⟩
    have hl := (List.mem_append.mp hl).resolve_right fun h =>
      hforeign _ _ _ (by decide) hcat (List.mem_singleton.mp h)
    have hl := (List.mem_append.mp hl).resolve_right (hmap "REJECTED" _ _ _ (by decide) hcat)
    have hl := (List.mem_append.mp hl).resolve_right (hmap "UNKNOWN" _ _ _ (by decide) hcat)
    have hl := (List.mem_append.mp hl).resolve_right (hmap "UNAFFECTED" _ _ _ (by decide) hcat)
    have hl := (List.mem_append.mp hl).resolve_right (hmap "PRECAUTIONARY" _ _ _ (by decide) hcat)
    have hl := (List.mem_append.mp hl).resolve_right (hmap "MANDATORY" _ _ _ (by decide) hcat)
    have hl : l ∈ authorityLines radius.epoch radius.faultGeneration radius.policyGeneration radius.topologyGeneration
      radius.generation ++ [line "FAULT" _ _, line "FAULT" _ _, line "FAULT" _ _, line "FAULT" _ _] := hl
    refine (List.mem_append.mp hl).resolve_right fun h => ?_
    have hfault : ∀ k t, l ≠ line "FAULT" k t := fun k t => hforeign _ k t (by decide) hcat
    simp only [List.mem_cons, List.not_mem_nil, or_false, hfault] at h
  · intro hl
    have hcat : ∀ l ∈ authorityLines radius.epoch radius.faultGeneration radius.policyGeneration
        radius.topologyGeneration radius.generation, l.category = lit "AUTHORITY" := by
      simp [authorityLines, line]
    refine ⟨?_, hcat l hl⟩
    iterate 6 apply List.mem_append_left
    exact List.mem_append_left [line "FAULT" _ _, line "FAULT" _ _, line "FAULT" _ _, line "FAULT" _ _] hl

/-- a radius explains itself -/
theorem explanation_radiusOf (input : BlastRadiusInput) (subject : ResourceRecord) :
    ∃ acc radius, (radiusOf input subject).explanation =
        explainRadius input.topology (input.policy.ruleFor input.fault.evidence.kind) input.fault acc radius ∧
      radius.epoch = input.epoch ∧ radius.faultGeneration = input.fault.evidence.generation ∧
      radius.policyGeneration = input.policy.generation ∧ radius.topologyGeneration = input.topology.generation ∧
      radius.generation = input.generation := by
  unfold radiusOf
  dsimp only
  exact ⟨_, _, rfl, rfl, rfl, rfl, rfl, rfl⟩

/-- the stamps of a computed radius -/
theorem stamps_computed {input : BlastRadiusInput} {radius : Records.BlastRadius}
    (h : computeBlastRadius input = .ok radius) :
    radius.generation = input.generation ∧ radius.epoch = input.epoch ∧
      radius.policyGeneration = input.policy.generation ∧ radius.topologyGeneration = input.topology.generation ∧
      radius.faultGeneration = input.fault.evidence.generation := by
  unfold computeBlastRadius at h
  split at h
  · simp at h
  · rw [← Except.ok.inj h]
    exact ⟨rfl, rfl, rfl, rfl, rfl⟩

/-- so the explanation of a computed radius states its stamps -/
theorem authority_computed {input : BlastRadiusInput} {radius : Records.BlastRadius}
    (h : computeBlastRadius input = .ok radius) (l : ExplanationLine) :
    l ∈ radius.explanation ∧ l.category = lit "AUTHORITY" ↔ l ∈ authorityLines input.epoch
      input.fault.evidence.generation input.policy.generation input.topology.generation input.generation := by
  unfold computeBlastRadius at h
  split at h
  · simp at h
  · next subject _ =>
    obtain ⟨acc, shown, hexplained, hepoch, hfault, hpolicy, htopology, hgeneration⟩ :=
      explanation_radiusOf input subject
    rw [← Except.ok.inj h, hexplained, authority_explainRadius, hepoch, hfault, hpolicy, htopology, hgeneration]

/-! ## Preview and commitment -/

/-- the record a commitment returns: its actions and its degraded status come on top -/
theorem commitContainment_record {clk : Clock} {id : FaultId} {fault : FaultRecord} {radius : Records.BlastRadius}
    {i : Impl} {record : ContainmentRecord} (h : (commitContainment clk id fault radius i).result = .ok record) :
    ∃ actions status, record =
      { newContainment (clk 0) id fault radius i with actions := actions, degradedStatus := status } :=
  ⟨_, _, (Except.ok.inj h).symm⟩

/-- a request that is granted was admitted -/
theorem authorizeContainment_granted {clk : Clock} {id : FaultId} {expected : FaultGeneration} {i : Impl}
    {record : ContainmentRecord} (h : (authorizeContainment clk id expected i).result = .ok record) :
    ∃ fault radius, admitContainment id expected i = .ok fault ∧ admitRadius fault i = .ok radius ∧
      (commitContainment clk id fault radius i).result = .ok record := by
  unfold authorizeContainment at h
  split at h
  · simp [Step.refuse] at h
  · next fault hfault =>
    split at h
    · simp [Step.refuse] at h
    · next radius hradius => exact ⟨fault, radius, hfault, hradius, h⟩

/-- what is admitted to a commitment can be previewed -/
theorem evaluateContainment_admitted {id : FaultId} {expected : FaultGeneration} {i : Impl} {fault : FaultRecord}
    {radius : Records.BlastRadius} (hfault : admitContainment id expected i = .ok fault)
    (hradius : admitRadius fault i = .ok radius) : evaluateContainment id expected i = .ok radius := by
  unfold admitContainment at hfault
  unfold evaluateContainment
  cases hf : i.state.faults.find id with
  | none =>
    simp only [hf] at hfault
    simp at hfault
  | some f =>
    simp only [hf] at hfault
    dsimp only
    split_ifs at hfault with hstale
    rw [if_neg hstale, Except.ok.inj hfault]
    exact admitRadius_ok hradius

/-- a preview of what the engine then commits -/
def Previews (clk : Clock) (id : FaultId) (expected : FaultGeneration) (i : Impl) (radius : Records.BlastRadius)
    (record : ContainmentRecord) : Prop :=
  evaluateContainment id expected i = .ok radius ∧ (authorizeContainment clk id expected i).result = .ok record

/-- every commitment can be previewed -/
theorem previewed {clk : Clock} {id : FaultId} {expected : FaultGeneration} {i : Impl} {record : ContainmentRecord}
    (h : (authorizeContainment clk id expected i).result = .ok record) :
    ∃ radius, Previews clk id expected i radius record := by
  obtain ⟨fault, radius, hfault, hradius, -⟩ := authorizeContainment_granted h
  exact ⟨radius, evaluateContainment_admitted hfault hradius, h⟩

/-- **Preview and commitment.** They agree exactly when the copies that the radius takes its stamps from agree with the
engine's own counters. -/
theorem agrees_iff {clk : Clock} {id : FaultId} {expected : FaultGeneration} {i : Impl} {radius : Records.BlastRadius}
    {record : ContainmentRecord} (h : Previews clk id expected i radius record) :
    Agrees radius record ↔ i.state.policy.generation = i.state.policyGeneration ∧
      i.state.topology.generation = i.state.topologyGeneration := by
  obtain ⟨hpreview, hcommitted⟩ := h
  obtain ⟨fault, radius', hfault, hradius, hrecord⟩ := authorizeContainment_granted hcommitted
  obtain rfl : radius' = radius := Except.ok.inj ((evaluateContainment_admitted hfault hradius).symm.trans hpreview)
  obtain ⟨actions, status, rfl⟩ := commitContainment_record hrecord
  have hcomputed := admitRadius_ok hradius
  obtain ⟨hgeneration, hepoch, hpolicy, htopology, hevidence⟩ := stamps_computed hcomputed
  constructor
  · intro hagrees
    exact ⟨hpolicy.symm.trans hagrees.policyGeneration, htopology.symm.trans hagrees.topologyGeneration⟩
  · rintro ⟨hsamePolicy, hsameTopology⟩
    exact
      { generation := rfl
        epoch := hepoch
        policyGeneration := hpolicy.trans hsamePolicy
        topologyGeneration := htopology.trans hsameTopology
        faultGeneration := hevidence
        mandatory := rfl
        precautionary := rfl
        unaffected := rfl
        unresolved := rfl
        outcome := rfl
        authority := by
          intro l
          have hauthority := authority_computed hcomputed l
          rw [hsamePolicy, hsameTopology, ← hgeneration] at hauthority
          exact hauthority }

/-! ## The copy in the topology -/

section Silent

variable (clk : Clock) (i : Impl)

theorem generation_register {t : IdTag} {D : Type} (g : Grouping t D) (normalize : D → D) (domain : D)
    (hset : ∀ top m, (g.setDomains top m).generation = top.generation) :
    (g.register normalize clk domain i).impl.state.topology.generation = i.state.topology.generation := by
  by_cases hopen : (g.id domain).valid = true ∧ (g.domains i.state.topology).has (g.id domain) = false
  · rw [register_topology g normalize clk hopen.1 hopen.2]
    exact hset _ _
  · rw [register_refused g normalize clk fun hv => Bool.eq_true_of_not_eq_false fun hn => hopen ⟨hv, hn⟩]

theorem generation_unregister {t : IdTag} {D : Type} (g : Grouping t D) (notFound advanced : String) (id : Id t)
    (expected : TopologyGeneration) (hset : ∀ top m, (g.setDomains top m).generation = top.generation) :
    (g.unregister notFound advanced clk id expected i).impl.state.topology.generation = i.state.topology.generation := by
  rcases unregister_cases g clk id expected i with ⟨himpl, -⟩ | ⟨d, -, -, htop⟩
  · rw [himpl]
  · rw [htop]
    exact hset _ _

theorem generation_revokePrevious (worker : WorkerId) (boot : WorkerBootId) :
    (revokePrevious clk worker boot i).1.state.topology.generation = i.state.topology.generation := by
  unfold revokePrevious
  split
  · rfl
  split_ifs
  · rfl
  split
  · rfl
  · rfl

theorem generation_registerWorker (worker : WorkerId) (boot : WorkerBootId) (endpoint : Text)
    (sequence : EvidenceSequence) :
    (registerWorker clk worker boot endpoint sequence i).impl.state.topology.generation =
      i.state.topology.generation := by
  have hfresh : ∀ j : Impl, (registerFresh clk worker boot endpoint sequence j).impl.state.topology.generation =
      j.state.topology.generation := fun j => generation_revokePrevious clk j worker boot
  unfold registerWorker
  split
  · rfl
  split
  · rfl
  split
  · exact hfresh i
  split
  · exact hfresh _
  split
  · rfl
  split
  · rfl
  · rfl

/-- **No operation sets the copy.** -/
theorem generation_after (c : Call) : (c.after i).state.topology.generation = i.state.topology.generation := by
  have hframe := frame_run c i
  obtain ⟨clk, op⟩ := c
  have hfixed : .topology ∉ op.parts →
      (Call.after ⟨clk, op⟩ i).state.topology.generation = i.state.topology.generation :=
    fun hp => congrArg Topology.generation (hframe.topology hp)
  cases op with
  | registerDomain domain =>
    change (registerDomain clk domain i).impl.state.topology.generation = _
    rcases registerDomain_cases clk domain (i := i) with
      ⟨himpl, -⟩ | ⟨-, -, ⟨stored, -, -, htop⟩ | ⟨-, htop⟩⟩
    · rw [himpl]
    · rw [htop]
    · rw [htop]
  | updateDomain domain expected =>
    change (updateDomain clk domain expected i).impl.state.topology.generation = _
    rcases updateDomain_cases clk domain expected (i := i) with ⟨himpl, -⟩ | ⟨previous, stored, -, -, htop⟩
    · rw [himpl]
    · rw [htop]
  | removeDomain id expected => exact generation_unregister clk i _ _ _ id expected fun _ _ => rfl
  | registerIsolationDomain domain => exact generation_register clk i _ _ domain fun _ _ => rfl
  | removeIsolationDomain id expected => exact generation_unregister clk i _ _ _ id expected fun _ _ => rfl
  | registerFailureDomain domain => exact generation_register clk i _ _ domain fun _ _ => rfl
  | removeFailureDomain id expected => exact generation_unregister clk i _ _ _ id expected fun _ _ => rfl
  | registerResource record =>
    change (registerResource clk record i).impl.state.topology.generation = _
    cases hadmitted : admitRegisterResource record i with
    | error e => rw [registerResource_refused clk hadmitted]
    | ok =>
      obtain ⟨stored, -, htop⟩ := registerResource_topology clk hadmitted
      rw [htop]
  | updateResource record expected =>
    change (updateResource clk record expected i).impl.state.topology.generation = _
    rcases updateResource_cases clk record expected (i := i) with ⟨himpl, -⟩ | ⟨previous, stored, -, -, htop⟩
    · rw [himpl]
    · rw [htop]
  | removeResource id expected =>
    change (removeResource clk id expected i).impl.state.topology.generation = _
    rcases removeResource_cases clk id expected (i := i) with himpl | ⟨removed, -, htop⟩
    · rw [himpl]
    · rw [htop]
  | registerDependency edge =>
    change (registerDependency clk edge i).impl.state.topology.generation = _
    rcases registerDependency_cases clk edge i with himpl | ⟨-, htop⟩
    · rw [himpl]
    · rw [htop]
  | removeDependency id expected =>
    change (removeDependency clk id expected i).impl.state.topology.generation = _
    rcases removeDependency_cases clk id expected i with himpl | htop
    · rw [himpl]
    · rw [htop]
  | publishResourceEvidence id expected freshness sequence mechanism source =>
    change (publishResourceEvidence clk id expected freshness sequence mechanism source
      i).impl.state.topology.generation = _
    unfold publishResourceEvidence
    split
    · rfl
    · rfl
  | registerWorker worker boot endpoint sequence => exact generation_registerWorker clk i worker boot endpoint sequence
  | beginEpoch nowMs reason => rfl
  | authorizeContainment id expected =>
    change (authorizeContainment clk id expected i).impl.state.topology.generation = _
    unfold authorizeContainment
    split
    · rfl
    split
    · rfl
    · rw [commitContainment_topology]
  | recordActionResult result =>
    change (recordActionResult clk result i).impl.state.topology.generation = _
    unfold recordActionResult
    split
    · rfl
    split
    · rfl
    split
    · rfl
    · dsimp only [commit_topology]
      split
      · rw [editEach_topology]
        rfl
      · rfl
  | authorizeRelease request =>
    change (authorizeRelease clk request i).impl.state.topology.generation = _
    unfold authorizeRelease
    dsimp only
    split
    · rfl
    split
    · rfl
    · unfold grantRelease
      dsimp only [commit_topology]
      rw [takeOffContainment_topology]
      rfl
  | authorityLost worker boot detail time =>
    change (authorityLost clk worker boot detail time i).impl.state.topology.generation = _
    rcases authorityLost_topology clk worker boot detail time i with h | h
    · rw [h]
    · rw [h]
  | setPolicy _ | retireWorker _ _ _ | publishFault _ | supersedeFault _ _ _ | dispatchBegin _ _ | dispatchEnd _ _
  | recordActionAck _ | verifyContainment _ | authorizeDegradedMode _ | revalidateDegradedMode _ | noteAuthorityLoss _ _
  | requestShutdown | persistenceFault _ =>
    exact hfixed (by simp [Op.parts])

end Silent

/-- the topology carries no generation of its own, and the engine counts one -/
structure Unstamped (i : Impl) : Prop where
  silent : i.state.topology.generation = {}
  counted : i.state.topologyGeneration.valid = true

/-- a record of the counters carries a generation that was counted -/
def Counted (e : Event) : Prop := ∀ c h, e = ⟨.counters, c, h⟩ → c.topologyGeneration.valid = true

theorem unstamped_after (c : Call) {i : Impl} (h : Unstamped i) : Unstamped (c.after i) where
  silent := (generation_after i c).trans h.silent
  counted := valid_of_le h.counted (frame_run c i).topologyGeneration_le

theorem counted_of_kind {e : Event} (h : e.kind ≠ .counters) : Counted e := by
  rintro c entry rfl
  exact absurd rfl h

theorem Unstamped.counters {i : Impl} (h : Unstamped i) : Counted i.countersEvent := by
  intro c entry he
  obtain ⟨-, hbody, -⟩ := Event.mk.inj he
  rw [← eq_of_heq hbody]
  exact h.counted

/-- what a section stages -/
theorem Unstamped.journals {α : Type} {K : List DurableEventKind} {step : Step α} (h : Unstamped step.impl)
    (hstep : Journals K step) (hK : .counters ∉ K) : ∀ e ∈ step.staged, Counted e := by
  intro e he
  rcases hstep e he with hkind | rfl
  · exact counted_of_kind fun hc => hK (hc ▸ hkind)
  · exact h.counters

/-- what an operation stages -/
theorem Unstamped.staged {i : Impl} (h : Unstamped i) (c : Call) : ∀ e ∈ (c.op.run c.clk i).staged, Counted e := by
  refine (unstamped_after c h).journals (journals_run c i) fun hmem => ?_
  exact absurd (List.mem_filter.mp hmem).2 (by decide)

/-- a record that is replayed -/
theorem Unstamped.applyEvent {i : Impl} (h : Unstamped i) {e : Event} (he : Counted e) : Unstamped (applyEvent e i) := by
  obtain ⟨kind, body, history⟩ := e
  cases kind
  case counters => exact ⟨h.silent, he body history rfl⟩
  case history => cases history <;> exact ⟨h.silent, h.counted⟩
  all_goals exact ⟨h.silent, h.counted⟩

theorem Unstamped.applyAll {i : Impl} (h : Unstamped i) {es : List Event} (hes : ∀ e ∈ es, Counted e) :
    Unstamped (applyAll es i) := by
  induction es generalizing i with
  | nil => exact h
  | cons e es ih =>
    exact ih (h.applyEvent (hes e List.mem_cons_self)) fun e' he' => hes e' (List.mem_cons_of_mem _ he')

theorem unstamped_construct (clk : Clock) (config : Config) : Unstamped (construct clk config) := ⟨rfl, rfl⟩

theorem unstamped_reset (i : Impl) : Unstamped (resetForRecovery i) := ⟨rfl, rfl⟩

/-! ## Lives -/

/-- an engine, with the states it wrote snapshots of and the records it staged -/
structure Life where
  impl : Impl
  snapshots : List RuntimeSnapshot := []
  journal : List Event := []

/-- a new engine, nothing written -/
def Life.start (clk : Clock) (config : Config) : Life := { impl := construct clk config }

/-- the records of a recovery: the recovery itself, and the epoch that begins -/
def resumeStaged (clk : ℕ → Clock) (io : ℕ → Io) (nowMs : UInt64) (r : Recovery) (s : Sys) : List Event :=
  (recoverySection (clk 0) r s.impl).staged ++
    (beginEpoch (clk 1) nowMs (lit "coordinator restart; live authority requires revalidation")
      (s.perform (io 0) (recoverySection (clk 0) r s.impl)).1.impl).staged

/-- the records a recovery adds -/
def recoveryStaged (clk : ℕ → Clock) (io : ℕ → Io) (nowMs : UInt64) (s : Sys) : List Event :=
  match recover s.store with
  | .error _ => []
  | .ok r =>
    match loadSnapshot r (resetForRecovery s.impl) with
    | none => []
    | some loaded =>
      match replay 0 r.snapshotSequence r.journalRecords loaded with
      | (_, .error _) => []
      | (i, .ok last) =>
        resumeStaged clk io nowMs r { s with impl := takeOver last nowMs (deriveCounters i), attached := true }

def Life.after : Move → Life → Life
  | .call c, l => { l with impl := c.after l.impl, journal := l.journal ++ (c.op.run c.clk l.impl).staged }
  | .snapshot, l => { l with snapshots := l.snapshots ++ [l.impl.state] }
  | .recover clk io nowMs s, l =>
    { l with impl := (recoverFromStore clk io nowMs s).1.impl, journal := l.journal ++ recoveryStaged clk io nowMs s }

/-- the files are of this life: the snapshot, if there is one, is one that was taken, and the journal holds records that
were staged, all of them or some -/
def Holds (l : Life) (s : Sys) : Prop :=
  Finds s fun r loaded es => (r.snapshotPresent = true → ∃ taken ∈ l.snapshots, loaded.state.topology = taken.topology ∧
    loaded.state.topologyGeneration = taken.topologyGeneration) ∧ ∀ e ∈ es, e ∈ l.journal

/-- recoveries are from files of this life -/
def Kept : Move → Life → Prop := Move.Promised fun _ _ _ s l => Holds l s

/-- the engine, its snapshots and its records -/
structure Plain (l : Life) : Prop where
  impl : Unstamped l.impl
  snapshots : ∀ taken ∈ l.snapshots, taken.topology.generation = {} ∧ taken.topologyGeneration.valid = true
  journal : ∀ e ∈ l.journal, Counted e

theorem plain_start (clk : Clock) (config : Config) : Plain (.start clk config) where
  impl := unstamped_construct clk config
  snapshots _ h := absurd h List.not_mem_nil
  journal _ h := absurd h List.not_mem_nil

theorem Unstamped.perform {α : Type} {s : Sys} {io : Io} {step : Step α} (h : Unstamped step.impl) :
    Unstamped (s.perform io step).1.impl :=
  perform_keeps (fun _ _ h => ⟨h.silent, h.counted⟩) (fun _ _ _ h => ⟨h.silent, h.counted⟩) h

section Resume

variable {clk : ℕ → Clock} {io : ℕ → Io} {nowMs : UInt64} {r : Recovery} {s : Sys}

theorem Unstamped.recoverySection (h : Unstamped s.impl) : Unstamped (recoverySection (clk 0) r s.impl).impl := by
  unfold Engine.recoverySection
  dsimp only
  split
  · exact ⟨h.silent, h.counted⟩
  · exact ⟨h.silent, h.counted⟩

/-- the end of a recovery sets no copy either -/
theorem Unstamped.resume (h : Unstamped s.impl) : Unstamped (resume clk io nowMs r s).1.impl :=
  resume_keeps (fun _ _ h => ⟨h.silent, h.counted⟩) (fun _ _ _ h => ⟨h.silent, h.counted⟩)
    (fun _ _ _ h => ⟨h.silent, h.counted⟩) (fun clk nowMs reason _ h => unstamped_after ⟨clk, .beginEpoch nowMs reason⟩ h)
    clk io nowMs r h

theorem Unstamped.resumeStaged (h : Unstamped s.impl) : ∀ e ∈ resumeStaged clk io nowMs r s, Counted e := by
  intro e he
  rcases List.mem_append.mp he with he | he
  · have hjournals : Journals [.recoveryMark] (Engine.recoverySection (clk 0) r s.impl) :=
      journals_commit_one fun _ => by simp
    exact h.recoverySection.journals hjournals (by decide) e he
  · have hfirst : Unstamped (s.perform (io 0) (Engine.recoverySection (clk 0) r s.impl)).1.impl :=
      h.recoverySection.perform
    exact hfirst.staged ⟨clk 1, .beginEpoch nowMs _⟩ e he

end Resume

theorem Plain.recover {l : Life} (h : Plain l) {clk : ℕ → Clock} {io : ℕ → Io} {nowMs : UInt64} {s : Sys}
    (hkept : Holds l s) : Plain (l.after (.recover clk io nowMs s)) := by
  obtain ⟨r, loaded, es, last, hr, hload, ⟨htaken, hjournal⟩, hreplay, hresumed⟩ := hkept.resumed clk io nowMs
  have hloaded : Unstamped loaded := by
    by_cases hpresent : r.snapshotPresent = true
    · obtain ⟨taken, hmem, htopology, hgeneration⟩ := htaken hpresent
      obtain ⟨hsilent, hcounted⟩ := h.snapshots taken hmem
      exact ⟨(congrArg Topology.generation htopology).trans hsilent, hgeneration ▸ hcounted⟩
    · unfold loadSnapshot at hload
      rw [if_neg hpresent] at hload
      exact Option.some.inj hload ▸ unstamped_reset s.impl
  have happlied := hloaded.applyAll fun e he => h.journal e (hjournal e he)
  have hrebuilt : Unstamped (takeOver last nowMs (deriveCounters (applyAll es loaded))) :=
    ⟨happlied.silent, happlied.counted⟩
  have hstaged : recoveryStaged clk io nowMs s = resumeStaged clk io nowMs r
      { s with impl := takeOver last nowMs (deriveCounters (applyAll es loaded)), attached := true } := by
    unfold recoveryStaged
    rw [hr]
    dsimp only
    rw [hload]
    dsimp only
    rw [hreplay]
  refine ⟨?_, h.snapshots, fun e he => ?_⟩
  · change Unstamped (recoverFromStore clk io nowMs s).1.impl
    rw [hresumed]
    exact Unstamped.resume hrebuilt
  · rcases List.mem_append.mp he with he | he
    · exact h.journal e he
    · rw [hstaged] at he
      exact Unstamped.resumeStaged hrebuilt e he

/-- **Step.** No move gives the topology a generation of its own. -/
theorem plain_after (m : Move) (l : Life) (hm : Kept m l) (h : Plain l) : Plain (l.after m) := by
  refine Move.promised_inv Life.after Plain (fun c l h => ?_) (fun l h => ?_)
    (fun _ _ _ _ _ hkept h => h.recover hkept) m l hm h
  · refine ⟨unstamped_after c h.impl, h.snapshots, fun e he => ?_⟩
    rcases List.mem_append.mp he with he | he
    · exact h.journal e he
    · exact h.impl.staged c e he
  · refine ⟨h.impl, fun taken hmem => ?_, h.journal⟩
    rcases List.mem_append.mp hmem with hmem | hmem
    · exact h.snapshots taken hmem
    · rw [List.mem_singleton.mp hmem]
      exact ⟨h.impl.silent, h.impl.counted⟩

/-- **Lives.** The topology never carries a generation of its own, and the engine always counts one. -/
theorem unstamped_run (clk : Clock) (config : Config) (ms : List Move)
    (h : Runs.Along Life.after Kept ms (.start clk config)) :
    Unstamped (Runs.run Life.after ms (.start clk config)).impl :=
  (Runs.run_inv plain_after h (plain_start clk config)).impl

/-- the stamps of a preview -/
theorem stamped_preview {id : FaultId} {expected : FaultGeneration} {i : Impl} {radius : Records.BlastRadius}
    (h : evaluateContainment id expected i = .ok radius) : radius.topologyGeneration = i.state.topology.generation := by
  unfold evaluateContainment at h
  split at h
  · simp at h
  · split_ifs at h
    exact (stamps_computed h).2.2.2.1

/-- **No preview agrees with its commitment.** In every life, the topology stamp of a radius is never the topology
generation of the engine; and a commitment that is granted has a preview, which does not agree with it. -/
theorem preview_never (clk : Clock) (config : Config) (ms : List Move)
    (h : Runs.Along Life.after Kept ms (.start clk config)) :
    (∀ id expected radius,
        evaluateContainment id expected (Runs.run Life.after ms (.start clk config)).impl = .ok radius →
        radius.topologyGeneration ≠ (Runs.run Life.after ms (.start clk config)).impl.state.topologyGeneration) ∧
      ∀ time id expected record,
        (authorizeContainment time id expected (Runs.run Life.after ms (.start clk config)).impl).result = .ok record →
          ∃ radius, evaluateContainment id expected (Runs.run Life.after ms (.start clk config)).impl = .ok radius ∧
            ¬ Agrees radius record := by
  have hunstamped := unstamped_run clk config ms h
  generalize (Runs.run Life.after ms (.start clk config)).impl = i at hunstamped
  have hdiffer : i.state.topology.generation ≠ i.state.topologyGeneration := by
    intro he
    have hcounted := hunstamped.counted
    rw [← he, hunstamped.silent] at hcounted
    exact absurd hcounted (by decide)
  constructor
  · intro id expected radius hradius
    rw [stamped_preview hradius]
    exact hdiffer
  · intro time id expected record hrecord
    obtain ⟨radius, hpreviews⟩ := previewed hrecord
    exact ⟨radius, hpreviews.1, fun hagrees => hdiffer ((agrees_iff hpreviews).mp hagrees).2⟩

/-! ## A fault on one resource -/

/-- a resource is registered, and its process dies -/
def faulted : List Move := [
  .call ⟨ticks, .registerResource { id := ⟨5⟩ }⟩,
  .call ⟨ticks, .publishFault { subject := ⟨5⟩, kind := .processDeath }⟩]

theorem preview_never_faulted :
    let i := (Runs.run Life.after faulted (.start ticks {})).impl
    ((evaluateContainment ⟨1⟩ {} i).isOk = true ∧ (authorizeContainment ticks ⟨1⟩ {} i).result.isOk = true) ∧
    (∀ id expected radius, evaluateContainment id expected i = .ok radius →
      radius.topologyGeneration ≠ i.state.topologyGeneration) ∧
    ∀ time id expected record, (authorizeContainment time id expected i).result = .ok record →
      ∃ radius, evaluateContainment id expected i = .ok radius ∧ ¬ Agrees radius record :=
  ⟨by decide +kernel, preview_never ticks {} faulted ⟨trivial, trivial, trivial⟩⟩

/-- The preview of the first containment carries no topology generation, its record the second one. -/
theorem preview_differs : ¬ ∀ clk config ms, Runs.Along Life.after Kept ms (.start clk config) →
    ∀ time id expected record,
      (authorizeContainment time id expected (Runs.run Life.after ms (.start clk config)).impl).result = .ok record →
        ∃ radius, evaluateContainment id expected (Runs.run Life.after ms (.start clk config)).impl = .ok radius ∧
          Agrees radius record := by
  intro hclaim
  have hagrees := hclaim ticks {} faulted ⟨trivial, trivial, trivial⟩ ticks ⟨1⟩ {}
  have hrecord : ((authorizeContainment ticks ⟨1⟩ {}
      (Runs.run Life.after faulted (.start ticks {})).impl).result.toOption.map
      ContainmentRecord.topologyGeneration) = some ⟨2⟩ := by decide +kernel
  have hradius : ((evaluateContainment ⟨1⟩ {} (Runs.run Life.after faulted (.start ticks {})).impl).toOption.map
      fun radius => radius.topologyGeneration) = some {} := by decide +kernel
  cases hresult : (authorizeContainment ticks ⟨1⟩ {} (Runs.run Life.after faulted (.start ticks {})).impl).result with
  | error e =>
    rw [hresult] at hrecord
    simp [Except.toOption] at hrecord
  | ok record =>
    obtain ⟨radius, hpreview, hall⟩ := hagrees record hresult
    rw [hresult] at hrecord
    rw [hpreview] at hradius
    have hgeneration : record.topologyGeneration = ⟨2⟩ := Option.some.inj hrecord
    have hstamp : radius.topologyGeneration = {} := Option.some.inj hradius
    have hsame := hall.topologyGeneration
    rw [hgeneration, hstamp] at hsame
    exact absurd hsame (by decide)

end FaultContainment.Preview
