/-
Stale plans.

A planned action is accepted for dispatch only if the stamps it was planned under are still those of the state. Stamps never
go back, so equal stamps at both ends of a run mean equal stamps all along, and an operation that leaves every stamp alone
leaves alone what they stand for. Registering, retiring and revoking incarnations is the exception: a run that does none of
it to the incarnation of the plan, or to the owner of resources, keeps the promise.

- `planned_based`: an action is planned under the stamps, the fault and the containment that its planning leaves behind.
- `superseded_dispatchLoop`: an action that is not accepted is superseded.
- `plan_current_run`: between planning and acceptance nothing changed, if incarnations were left alone.
- `stale_plan_dispatched`: a plan is dispatched after its worker was replaced.
-/
import FaultContainment.Dispatching.Reports
import FaultContainment.Dispatching.Stamps

namespace FaultContainment.Dispatching

open FaultContainment.Lib FaultContainment.Ids FaultContainment.Enums FaultContainment.Records
open FaultContainment.DurableEvent FaultContainment.Engine

/-! ## Containments -/

/-- what a containment keeps of its decision -/
def SameDecision (c c' : ContainmentRecord) : Prop :=
  c'.generation = c.generation ∧ c'.fault = c.fault ∧ c'.actions = c.actions

/-- every containment keeps its decision, and a new one takes the latest generation -/
structure ContainmentsKept (i j : Impl) : Prop where
  old : ∀ g c, i.state.containments.find g = some c → ∃ c', j.state.containments.find g = some c' ∧ SameDecision c c'
  new : ∀ g c', i.state.containments.find g = none → j.state.containments.find g = some c' → c'.generation = g ∧
    g = j.state.containmentGeneration

/-- every containment is stored under its own generation, and none is ahead of the counter -/
def Numbered (i : Impl) : Prop :=
  ∀ g c, i.state.containments.find g = some c → c.generation = g ∧ g ≤ i.state.containmentGeneration

theorem ContainmentsKept.of_eq {i j : Impl} (h : j.state.containments = i.state.containments) :
    ContainmentsKept i j := by
  refine ⟨fun g c hc => ⟨c, h ▸ hc, rfl, rfl, rfl⟩, fun g c' hnone hc' => ?_⟩
  rw [h, hnone] at hc'
  simp at hc'

/-- one containment edited -/
theorem ContainmentsKept.insert {i j : Impl} {g : ContainmentGeneration} {c b : ContainmentRecord}
    (hc : i.state.containments.find g = some c) (hsame : SameDecision c b)
    (hj : j.state.containments = i.state.containments.insert g b) : ContainmentsKept i j := by
  refine ⟨fun g' e he => ?_, fun g' b' hnone hb' => ?_⟩
  · rw [hj]
    by_cases hg : g = g'
    · subst hg
      obtain rfl := Option.some.inj (hc.symm.trans he)
      exact ⟨b, OrderedMap.find_insert_self _ _ _, hsame⟩
    · exact ⟨e, (OrderedMap.find_insert_ne _ _ hg).trans he, rfl, rfl, rfl⟩
  · rw [hj] at hb'
    have hg : g ≠ g' := by
      rintro rfl
      rw [hc] at hnone
      simp at hnone
    rw [OrderedMap.find_insert_ne _ _ hg, hnone] at hb'
    simp at hb'

theorem ContainmentsKept.refl (i : Impl) : ContainmentsKept i i := .of_eq rfl

theorem ContainmentsKept.commit {i j : Impl} (h : ContainmentsKept i j) {α : Type} (time : UInt64)
    (entry : HistoryEvent) (before : List DurableEvent.Event) (event : Option HistoryEvent → DurableEvent.Event)
    (after : List DurableEvent.Event) (a : α) :
    ContainmentsKept i (Engine.commit j time entry before event after a).impl := ⟨h.old, h.new⟩

/-- the containments and the faults a verification leaves -/
theorem stageFault_containments (id : FaultId) (f : Option FaultRecord) (i : Impl) :
    (stageFault id f i).1.state.containments = i.state.containments := by
  cases f <;> rfl

theorem kept_verifyContainment (clk : Clock) (generation : ContainmentGeneration) (i : Impl) :
    ContainmentsKept i (verifyContainment clk generation i).impl := by
  unfold verifyContainment
  split
  · exact .refl i
  · next record hrecord =>
    have hfound : i.state.containments.find generation = some record := by
      unfold admitVerify at hrecord
      split at hrecord
      · simp at hrecord
      · next c hc =>
        split_ifs at hrecord
        rw [hc, Except.ok.inj hrecord]
    exact .insert (b := withVerification (clk 0) (verificationOf i.state record generation (clk 0)) record) hfound
      ⟨rfl, rfl, rfl⟩ (stageFault_containments _ _ _)

theorem kept_takeOffContainment (clk : Clock) (generation : ContainmentGeneration) (id : ResourceId) {i j : Impl}
    (h : j.state.containments = i.state.containments) :
    ContainmentsKept i (takeOffContainment clk generation id j).1 := by
  unfold takeOffContainment
  split
  · exact .of_eq h
  · next c hc =>
    have hstored : (j.withContainments (j.state.containments.insert generation (takeOff (clk 2) id c))).state.containments =
        i.state.containments.insert generation (takeOff (clk 2) id c) :=
      congrArg (·.insert generation (takeOff (clk 2) id c)) h
    have hfound : i.state.containments.find generation = some c := h ▸ hc
    refine .insert (b := takeOff (clk 2) id c) hfound ⟨rfl, rfl, rfl⟩ ?_
    dsimp only
    split
    · exact (stageFault_containments _ _ _).trans hstored
    · exact hstored

theorem kept_authorizeRelease (clk : Clock) (request : ReleaseRequest) (i : Impl) :
    ContainmentsKept i (authorizeRelease clk request i).impl := by
  unfold authorizeRelease
  dsimp only
  split
  · exact .of_eq rfl
  · split
    · exact .of_eq rfl
    · unfold grantRelease
      refine ContainmentsKept.commit (kept_takeOffContainment clk _ request.resource ?_) _ _ _ _ _ _
      rfl

/-! ## A commitment -/

/-- the engine once a radius is fenced and drained, and its actions are not planned yet -/
def fenced (clk : Clock) (id : FaultId) (fault : FaultRecord) (radius : Records.BlastRadius) (i : Impl) : Impl :=
  let i' := i.withFaults (i.state.faults.insert id { fault with
    state := .containmentInProgress, containmentGeneration := radius.generation, lastUpdatedMs := clk 0 })
  let i' := (editEach (fun r => some (fence (clk 0) i.state.workers radius.generation
    (outcomeQuarantines radius.recommended) r)) radius.mandatory i').1
  (editEach (drain (clk 0)) radius.precautionary i').1

/-- the planning of a commitment -/
def plannedBy (clk : Clock) (id : FaultId) (fault : FaultRecord) (radius : Records.BlastRadius) (i : Impl) :
    Impl × List ActionId × List ContainmentAction :=
  planActions (clk 0) (actionBudget i.state.policy fault.evidence.kind) (newContainment (clk 0) id fault radius i)
    radius.mandatory [] (fenced clk id fault radius i)

theorem frame_fenced (clk : Clock) (id : FaultId) (fault : FaultRecord) (radius : Records.BlastRadius) (i : Impl) :
    Frame (.faults :: topologyParts) i (fenced clk id fault radius i) :=
  Frame.editEach (by simp) (by simp) _ _ (Frame.editEach (by simp) (by simp) _ _
    ((Frame.refl (.faults :: topologyParts) i).withFaults (by simp) _))

theorem fenced_policy (clk : Clock) (id : FaultId) (fault : FaultRecord) (radius : Records.BlastRadius) (i : Impl) :
    (fenced clk id fault radius i).state.policy = i.state.policy :=
  (frame_fenced clk id fault radius i).policy (by simp)

/-- the record a commitment stores -/
def committed (clk : Clock) (id : FaultId) (fault : FaultRecord) (radius : Records.BlastRadius) (i : Impl) :
    ContainmentRecord :=
  { newContainment (clk 0) id fault radius i with
    actions := (plannedBy clk id fault radius i).2.1
    degradedStatus := (assessDegradedMode (plannedBy clk id fault radius i).1.state none {} (clk 0)).status }

/-- a commitment stores one containment, with the actions it planned -/
theorem commitContainment_stored (clk : Clock) (id : FaultId) (fault : FaultRecord) (radius : Records.BlastRadius)
    (i : Impl) : ∃ time entry, (commitContainment clk id fault radius i).impl =
      ({ (plannedBy clk id fault radius i).1 with state := { (plannedBy clk id fault radius i).1.state with
          containmentGeneration := radius.generation
          containments := i.state.containments.emplace radius.generation (committed clk id fault radius i) } } :
        Impl).addHistory time entry := by
  have hkept : (plannedBy clk id fault radius i).1.state.containments = i.state.containments := by
    unfold plannedBy
    rw [planActions_containments]
    exact (frame_fenced clk id fault radius i).containments (by simp)
  rw [← hkept]
  unfold committed plannedBy
  rw [← fenced_policy clk id fault radius i]
  unfold commitContainment
  exact ⟨_, _, rfl⟩

theorem kept_authorizeContainment (clk : Clock) (id : FaultId) (expected : FaultGeneration) (i : Impl) :
    ContainmentsKept i (authorizeContainment clk id expected i).impl := by
  unfold authorizeContainment
  split
  · exact .refl i
  split
  · exact .refl i
  · next fault _ _ radius _ =>
    obtain ⟨time, entry, hstored⟩ := commitContainment_stored clk id fault radius i
    rw [hstored]
    refine ⟨fun g c hc => ⟨c, ?_, rfl, rfl, rfl⟩, fun g c' hnone hc' => ?_⟩
    · have hold : ¬ (radius.generation = g ∧ i.state.containments.find radius.generation = none) := by
        rintro ⟨rfl, hnone⟩
        rw [hc] at hnone
        simp at hnone
      exact (OrderedMap.find_emplace _ _ _ _).trans ((if_neg hold).trans hc)
    · replace hc' : (i.state.containments.emplace radius.generation (committed clk id fault radius i)).find g = some c' :=
        hc'
      rw [OrderedMap.find_emplace] at hc'
      split_ifs at hc' with hg
      · obtain rfl := Option.some.inj hc'
        exact ⟨hg.1, hg.1.symm⟩
      · rw [hnone] at hc'
        simp at hc'

/-- **Step.** Every operation keeps the containments. -/
theorem kept_after (c : Call) (i : Impl) : ContainmentsKept i (c.after i) := by
  have hframe := frame_run c i
  obtain ⟨clk, op⟩ := c
  cases op
  case authorizeContainment id expected => exact kept_authorizeContainment clk id expected i
  case verifyContainment generation => exact kept_verifyContainment clk generation i
  case authorizeRelease request => exact kept_authorizeRelease clk request i
  all_goals exact .of_eq (hframe.containments (by simp [Op.parts]))

theorem numbered_after (c : Call) {i : Impl} (h : Numbered i) : Numbered (c.after i) := by
  have hkept := kept_after c i
  have hle := (frame_run c i).containmentGeneration_le
  intro g b hb
  cases hold : i.state.containments.find g with
  | none =>
    obtain ⟨hkey, hlatest⟩ := hkept.new g b hold hb
    exact ⟨hkey, hlatest.le⟩
  | some a =>
    obtain ⟨b', hb', hsame⟩ := hkept.old g a hold
    obtain rfl := Option.some.inj (hb'.symm.trans hb)
    obtain ⟨hkey, hg⟩ := h g a hold
    exact ⟨hsame.1.trans hkey, hg.trans hle⟩

/-- a containment is never dropped, and keeps its decision -/
theorem kept_run (cs : List Call) {i : Impl} {g : ContainmentGeneration} {c : ContainmentRecord}
    (h : i.state.containments.find g = some c) :
    ∃ c', (Runs.run Call.after cs i).state.containments.find g = some c' ∧ SameDecision c c' := by
  induction cs generalizing i c with
  | nil => exact ⟨c, h, rfl, rfl, rfl⟩
  | cons call cs ih =>
    obtain ⟨b, hb, hgen, hfault, hactions⟩ := (kept_after call i).old g c h
    obtain ⟨c', hc', hgen', hfault', hactions'⟩ := ih hb
    exact ⟨c', hc', hgen'.trans hgen, hfault'.trans hfault, hactions'.trans hactions⟩

/-! ## Where runs start -/

theorem keyed_applyEvent (e : DurableEvent.Event) {i : Impl}
    (h : OrderedMap.Keyed ContainmentRecord.generation i.state.containments) :
    OrderedMap.Keyed ContainmentRecord.generation (applyEvent e i).state.containments := by
  obtain ⟨kind, body, history⟩ := e
  cases kind
  case containmentUpsert => exact OrderedMap.Keyed.insert h rfl
  case history => cases history <;> exact h
  all_goals exact h

/-- the derived counter is ahead of every recovered containment -/
theorem numbered_deriveCounters {i : Impl}
    (h : OrderedMap.Keyed ContainmentRecord.generation i.state.containments) : Numbered (deriveCounters i) := by
  intro g c hc
  have hc : i.state.containments.find g = some c := hc
  exact ⟨h g c hc, (le_foldl_largest Prod.fst i.state.containments.toList i.state.containmentGeneration).2 (g, c)
    ((OrderedMap.mem_toList _ _ _).mpr hc)⟩

theorem numbered_start (start : Start) (h : start.succeeds) : Numbered start.impl := by
  cases start with
  | fresh clk config =>
    intro g c hc
    have hnone : (construct clk config).state.containments.find g = none := OrderedMap.find_empty g
    have hc : (construct clk config).state.containments.find g = some c := hc
    rw [hnone] at hc
    simp at hc
  | recovered clk io nowMs s =>
    obtain ⟨r, loaded, j, last, -, hload, hreplay, hkeeps⟩ := recoverFromStore_keeps (P := Numbered)
      (fun _ _ h => h) (fun _ _ _ h => h) (fun _ _ _ h => h)
      (fun clk nowMs reason i h => numbered_after ⟨clk, .beginEpoch nowMs reason⟩ h) h
    have hloaded : OrderedMap.Keyed ContainmentRecord.generation loaded.state.containments := by
      unfold loadSnapshot at hload
      split_ifs at hload
      · split at hload
        · next snapshot hread =>
          rw [← Option.some.inj hload]
          exact (StateDocument.readStateDocument_sound hread).1.containments.1
        · simp at hload
      · rw [← Option.some.inj hload]
        intro g c hc
        have hnone : (resetForRecovery s.impl).state.containments.find g = none := OrderedMap.find_empty g
        rw [hnone] at hc
        simp at hc
    have hreplayed := replay_keeps (P := fun i => OrderedMap.Keyed ContainmentRecord.generation i.state.containments)
      (fun e _ h => keyed_applyEvent e h) r.journalRecords 0 r.snapshotSequence hloaded
    rw [hreplay] at hreplayed
    exact hkeeps (numbered_deriveCounters hreplayed)

/-! ## Planning -/

/-- the operation planned the action: it was not stored before, and is now -/
structure Plans (c : Call) (i : Impl) (a : ContainmentAction) : Prop where
  commits : ∃ id expected, c.op = .authorizeContainment id expected
  absent : i.state.actions.find a.id = none
  stored : (c.after i).state.actions.find a.id = some a

/-- the action carries the stamps of a state, and its fault and containment are the ones stored there -/
structure Based (a : ContainmentAction) (i : Impl) : Prop where
  epoch : a.envelope.epoch = i.state.epoch
  policy : a.envelope.policyGeneration = i.state.policyGeneration
  topology : a.envelope.topologyGeneration = i.state.topologyGeneration
  stamped : a.envelope.topologyGeneration.valid = true
  containment : ∃ c, i.state.containments.find a.envelope.containmentGeneration = some c ∧ c.fault = a.envelope.fault ∧
    a.id ∈ c.actions
  fault : ∃ f, i.state.faults.find a.envelope.fault = some f ∧ f.evidence.generation = a.envelope.faultGeneration ∧
    isFaultCurrent f.state = true

theorem mem_planActions (time : UInt64) (budget : ℕ) (record : ContainmentRecord) (ks : List ResourceId)
    (planned : List ActionId) (i : Impl) {id : ActionId} (h : id ∈ planned) :
    id ∈ (planActions time budget record ks planned i).2.1 := by
  induction ks generalizing planned i with
  | nil => exact h
  | cons k ks ih =>
    unfold planActions
    split
    · exact h
    · split
      · exact ih planned i h
      · exact ih _ _ (List.mem_append_left _ h)

/-- an action that the planning loop adds is listed, and planned for a resource that is stored -/
theorem planActions_new (time : UInt64) (budget : ℕ) (record : ContainmentRecord) (ks : List ResourceId)
    (planned : List ActionId) {i : Impl} {id : ActionId} {a : ContainmentAction}
    (hnone : i.state.actions.find id = none)
    (ha : (planActions time budget record ks planned i).1.state.actions.find id = some a) :
    id ∈ (planActions time budget record ks planned i).2.1 ∧
      ∃ k ∈ ks, ∃ r, i.state.topology.resources.find k = some r ∧ plan a = plan (planAction time record id k r i.state) := by
  induction ks generalizing planned i with
  | nil =>
    have ha : i.state.actions.find id = some a := ha
    rw [hnone] at ha
    simp at ha
  | cons k ks ih =>
    unfold planActions at ha ⊢
    split at ha
    · rw [hnone] at ha
      simp at ha
    · next hbudget =>
      rw [if_neg hbudget]
      split at ha
      · next hk =>
        obtain ⟨hlisted, k', hk', hplan⟩ := ih planned hnone ha
        exact ⟨hlisted, k', List.mem_cons_of_mem _ hk', hplan⟩
      · next r hr =>
        by_cases hid : (⟨i.nextAction⟩ : ActionId) = id
        · subst hid
          refine ⟨mem_planActions _ _ _ _ _ _ (List.mem_append_right _ List.mem_cons_self), k, List.mem_cons_self, r, hr, ?_⟩
          have hstored : (i.state.actions.emplace ⟨i.nextAction⟩
              (planAction time record ⟨i.nextAction⟩ k r i.state)).find ⟨i.nextAction⟩ =
                some (planAction time record ⟨i.nextAction⟩ k r i.state) :=
            (OrderedMap.find_emplace _ _ _ _).trans (if_pos ⟨rfl, hnone⟩)
          obtain ⟨a', ha', -, -, hplan, -⟩ := (moves_planActions time budget record ks (planned ++ [⟨i.nextAction⟩])
            (.refl ({ i with nextAction := i.nextAction + 1 }.withActions (i.state.actions.emplace ⟨i.nextAction⟩
              (planAction time record ⟨i.nextAction⟩ k r i.state))))).old _ _ hstored
          obtain rfl := Option.some.inj (ha'.symm.trans ha)
          exact hplan
        · have hnone' : (i.state.actions.emplace ⟨i.nextAction⟩
              (planAction time record ⟨i.nextAction⟩ k r i.state)).find id = none :=
            (OrderedMap.find_emplace _ _ _ _).trans ((if_neg fun h => hid h.1).trans hnone)
          obtain ⟨hlisted, k', hk', r', hr', hplan⟩ := ih _ (i := { i with nextAction := i.nextAction + 1 }.withActions
            (i.state.actions.emplace ⟨i.nextAction⟩ (planAction time record ⟨i.nextAction⟩ k r i.state))) hnone' ha
          exact ⟨hlisted, k', List.mem_cons_of_mem _ hk', r', hr', hplan⟩

/-- a radius with a stored mandatory resource is fenced under a new topology generation -/
theorem bumped_fenced (clk : Clock) (id : FaultId) (fault : FaultRecord) (radius : Records.BlastRadius) (i : Impl)
    {k : ResourceId} (hk : k ∈ radius.mandatory) {r : ResourceRecord}
    (hr : (fenced clk id fault radius i).state.topology.resources.find k = some r) :
    Bumped i (fenced clk id fault radius i) := by
  unfold fenced at hr ⊢
  dsimp only at hr ⊢
  rw [editEach_resources, editEach_resources] at hr
  cases hold : i.state.topology.resources.find k with
  | none =>
    have hhas := (OrderedMap.has_iff _ _).mpr ⟨r, hr⟩
    rw [has_editMap, has_editMap] at hhas
    exact absurd (((OrderedMap.has_eq_false _ _).mpr hold).symm.trans hhas) (by decide)
  | some r' =>
    have hbumped : ∀ m, Bumped i (editEach (fun r => some (fence (clk 0) i.state.workers radius.generation
        (outcomeQuarantines radius.recommended) r)) radius.mandatory (i.withFaults m)).1 := fun m =>
      bumped_editEach _ _ hk (i := i.withFaults m) hold fun _ => rfl
    exact (hbumped _).trans (Frame.editEach (S := topologyParts) (by simp) (by simp) _ _ (.refl _ _)).topologyGeneration_le

/-- planning writes actions only -/
theorem frame_plannedBy (clk : Clock) (id : FaultId) (fault : FaultRecord) (radius : Records.BlastRadius) (i : Impl) :
    Frame [.actions] (fenced clk id fault radius i) (plannedBy clk id fault radius i).1 :=
  Frame.planActions (by simp) _ _ _ _ _ (.refl _ _)

/-- **Planning.** An action is planned under the stamps, the fault and the containment its planning leaves behind. -/
theorem planned_based {c : Call} {i : Impl} {a : ContainmentAction} (h : Plans c i a) (hn : Numbered i)
    (hroom : i.state.containmentGeneration.value.toNat ≠ 2 ^ 64 - 1) : Based a (c.after i) := by
  obtain ⟨⟨id, expected, hop⟩, habsent, hstored⟩ := h
  obtain ⟨clk, op⟩ := c
  subst hop
  have hafter : (⟨clk, .authorizeContainment id expected⟩ : Call).after i =
      (authorizeContainment clk id expected i).impl := rfl
  rw [hafter] at hstored ⊢
  unfold authorizeContainment at hstored ⊢
  split at hstored
  · exact absurd (habsent.symm.trans hstored) (by simp)
  next fault _ =>
  split at hstored
  · exact absurd (habsent.symm.trans hstored) (by simp)
  next radius hradius =>
  have hgeneration := admitRadius_generation hradius
  have hfaults := commitContainment_faults clk id fault radius i
  obtain ⟨time, entry, himpl⟩ := commitContainment_stored clk id fault radius i
  rw [himpl] at hstored hfaults ⊢
  have hframe := frame_plannedBy clk id fault radius i
  have habsent' : (fenced clk id fault radius i).state.actions.find a.id = none := by
    rw [(frame_fenced clk id fault radius i).actions (by simp)]
    exact habsent
  obtain ⟨hlisted, k, hk, r, hr, hplan⟩ := planActions_new _ _ _ _ _ habsent' hstored
  have hbumped := bumped_fenced clk id fault radius i hk hr
  have hfault : a.envelope.fault = id := congrArg AuthorityEnvelope.fault hplan
  have hcontainment : a.envelope.containmentGeneration = radius.generation :=
    congrArg AuthorityEnvelope.containmentGeneration hplan
  have htopology : a.envelope.topologyGeneration = (fenced clk id fault radius i).state.topologyGeneration :=
    congrArg AuthorityEnvelope.topologyGeneration hplan
  refine ⟨?_, ?_, ?_, ?_, ?_, ?_⟩
  · exact (congrArg AuthorityEnvelope.epoch hplan).trans (hframe.epoch (by simp)).symm
  · exact (congrArg AuthorityEnvelope.policyGeneration hplan).trans (hframe.policyGeneration (by simp)).symm
  · exact htopology.trans (hframe.topologyGeneration (by simp)).symm
  · rw [htopology]
    exact valid_of_le (nextGeneration_valid _) hbumped
  · rw [hcontainment]
    have hfree : i.state.containments.find radius.generation = none := by
      by_contra hne
      obtain ⟨b, hb⟩ := Option.ne_none_iff_exists'.mp hne
      have hle := (hn _ b hb).2
      rw [hgeneration] at hle
      exact absurd (lt_nextGeneration hroom) (not_lt.mpr hle)
    exact ⟨committed clk id fault radius i, (OrderedMap.find_emplace _ _ _ _).trans (if_pos ⟨rfl, hfree⟩), hfault.symm,
      hlisted⟩
  · rw [hfault, hfaults]
    exact ⟨_, OrderedMap.find_insert_self _ _ _, (congrArg AuthorityEnvelope.faultGeneration hplan).symm, rfl⟩

/-! ## Between planning and dispatch -/

/-- an action keeps its identity and its plan -/
theorem plan_after (c : Call) {i : Impl} {id : ActionId} {a : ContainmentAction}
    (h : i.state.actions.find id = some a) :
    ∃ a', (c.after i).state.actions.find id = some a' ∧ a'.id = a.id ∧ plan a' = plan a := by
  by_cases hop : ∃ nowMs reason, c.op = .beginEpoch nowMs reason
  · obtain ⟨nowMs, reason, hop⟩ := hop
    obtain ⟨clk, op⟩ := c
    subst hop
    have hfind : ((⟨clk, .beginEpoch nowMs reason⟩ : Call).after i).state.actions.find id =
        (i.state.actions.find id).map makeAmbiguous := OrderedMap.find_mapVals _ _ _
    refine ⟨makeAmbiguous a, by rw [hfind, h]; rfl, ?_⟩
    unfold makeAmbiguous
    split_ifs <;> exact ⟨rfl, rfl⟩
  · obtain ⟨a', ha', -, hid, hplan, -⟩ := (moves_after c i fun nowMs reason h => hop ⟨nowMs, reason, h⟩).old id a h
    exact ⟨a', ha', hid, hplan⟩

theorem plan_run (cs : List Call) {i : Impl} {id : ActionId} {a : ContainmentAction}
    (h : i.state.actions.find id = some a) :
    ∃ a', (Runs.run Call.after cs i).state.actions.find id = some a' ∧ a'.id = a.id ∧ plan a' = plan a := by
  induction cs generalizing i a with
  | nil => exact ⟨a, h, rfl, rfl⟩
  | cons c cs ih =>
    obtain ⟨b, hb, hid, hplan⟩ := plan_after c h
    obtain ⟨a', ha', hid', hplan'⟩ := ih hb
    exact ⟨a', ha', hid'.trans hid, hplan'.trans hplan⟩

/-- no stamp went back -/
structure StampsLe (i j : Impl) : Prop where
  topology : i.state.topologyGeneration ≤ j.state.topologyGeneration
  policy : i.state.policyGeneration ≤ j.state.policyGeneration
  epoch : i.state.epoch ≤ j.state.epoch

theorem stampsLe_after (c : Call) (i : Impl) : StampsLe i (c.after i) :=
  ⟨(frame_run c i).topologyGeneration_le, (frame_run c i).policyGeneration_le, (frame_run c i).epoch_le⟩

theorem stampsLe_run (cs : List Call) (i : Impl) : StampsLe i (Runs.run Call.after cs i) :=
  Runs.run_rel (fun _ => ⟨le_rfl, le_rfl, le_rfl⟩)
    (fun _ _ _ h h' => ⟨h.topology.trans h'.topology, h.policy.trans h'.policy, h.epoch.trans h'.epoch⟩)
    stampsLe_after cs i

/-- equal stamps at both ends are equal stamps on the way -/
theorem SameStamps.between {i j k : Impl} (h : SameStamps i k) (hij : StampsLe i j) (hjk : StampsLe j k) :
    SameStamps i j where
  topology := le_antisymm (hjk.topology.trans_eq h.topology) hij.topology
  policy := le_antisymm (hjk.policy.trans_eq h.policy) hij.policy
  epoch := le_antisymm (hjk.epoch.trans_eq h.epoch) hij.epoch

/-- the incarnation named in the envelope -/
def ownerKey (a : ContainmentAction) : WorkerKey := ⟨a.envelope.worker, a.envelope.workerBoot⟩

/-- the operation starts below the last value of every stamp, and leaves the incarnation of the plan and the owners of
resources alone -/
def LeavesOwner (a : ContainmentAction) (c : Call) (i : Impl) : Prop :=
  Unsaturated i ∧ ¬ ChangesIncarnations (ownerKey a) c.op i

/-- what is watched of a fault: its generation, and whether it is current -/
def faultStamp (id : FaultId) (i : Impl) : Option (FaultGeneration × Bool) :=
  (i.state.faults.find id).map fun f => (f.evidence.generation, isFaultCurrent f.state)

/-- nothing that the action was planned against changed -/
structure Unchanged (a : ContainmentAction) (i j : Impl) : Prop where
  topology : j.state.topology = i.state.topology
  policy : j.state.policy = i.state.policy
  epoch : j.state.epoch = i.state.epoch
  fault : faultStamp a.envelope.fault j = faultStamp a.envelope.fault i
  incarnation : watch (ownerKey a) j = watch (ownerKey a) i

/-- nothing that the action was planned against changed at any point of a run -/
def Steady (a : ContainmentAction) (cs : List Call) (i : Impl) : Prop :=
  ∀ as bs, cs = as ++ bs → Unchanged a i (Runs.run Call.after as i)

/-- a run that ends under the stamps it started with changed nothing but faults -/
theorem still_run {a : ContainmentAction} (cs : List Call) {i : Impl}
    (hcond : Runs.Along Call.after (LeavesOwner a) cs i) (hend : SameStamps i (Runs.run Call.after cs i))
    {as bs : List Call} (hsplit : cs = as ++ bs) :
    Still (ownerKey a) i (Runs.run Call.after as i) ∧ (Runs.run Call.after as i).state.policy = i.state.policy := by
  induction as generalizing cs i with
  | nil => exact ⟨.refl _ i, rfl⟩
  | cons c as ih =>
    subst hsplit
    obtain ⟨⟨hroom, hc⟩, hrest⟩ := hcond
    have hfirst : SameStamps i (c.after i) := hend.between (stampsLe_after c i) (stampsLe_run (as ++ bs) (c.after i))
    obtain ⟨⟨htopology, hwatch⟩, hpolicy⟩ := still_after c hroom hc hfirst
    have hend' : SameStamps (c.after i) (Runs.run Call.after (as ++ bs) (c.after i)) :=
      ⟨hend.topology.trans hfirst.topology.symm, hend.policy.trans hfirst.policy.symm, hend.epoch.trans hfirst.epoch.symm⟩
    obtain ⟨⟨htopology', hwatch'⟩, hpolicy'⟩ := ih (as ++ bs) hrest hend' rfl
    exact ⟨⟨htopology'.trans htopology, hwatch'.trans hwatch⟩, hpolicy'.trans hpolicy⟩

theorem ages_run (cs : List Call) (i : Impl) : Ages i (Runs.run Call.after cs i) :=
  Runs.run_rel (R := Ages) (fun _ => .of_eq rfl) (fun _ _ _ => Ages.trans) ages_after cs i

/-- a fault that is still what it was has been that all along -/
theorem faultStamp_run {id : FaultId} {g : FaultGeneration} {f f' : FaultRecord} {cs as bs : List Call} {i : Impl}
    (hf : i.state.faults.find id = some f) (hg : f.evidence.generation = g)
    (hf' : (Runs.run Call.after cs i).state.faults.find id = some f') (hg' : f'.evidence.generation = g)
    (hcurrent : isFaultCurrent f'.state = true) (hsplit : cs = as ++ bs) :
    faultStamp id (Runs.run Call.after as i) = some (g, true) := by
  subst hsplit
  obtain ⟨m, hm, hle, -⟩ := ages_run as i id f hf
  rw [Runs.run_append] at hf'
  obtain ⟨e, he, hle', hc⟩ := ages_run bs _ id m hm
  obtain rfl := Option.some.inj (he.symm.trans hf')
  have hgen : m.evidence.generation = g := le_antisymm (hle'.trans_eq hg') (hg.symm.trans_le hle)
  unfold faultStamp
  rw [hm, Option.map_some, hgen, hc hcurrent]

/-! ## Acceptance -/

/-- a check that was passed -/
theorem passed_check {p : Prop} [Decidable p] {refusal rest : ErrorCode} (h : (if p then refusal else rest) = .ok)
    (hr : refusal ≠ .ok) : ¬ p ∧ rest = .ok := by
  by_cases hp : p
  · rw [if_pos hp] at h
    exact absurd h hr
  · rw [if_neg hp] at h
    exact ⟨hp, h⟩

/-- what an action that passes revalidation agrees with -/
theorem revalidated {s : RuntimeSnapshot} {record : ContainmentRecord} {a : ContainmentAction}
    (h : revalidateAction s record a = .ok) (hstamped : a.envelope.topologyGeneration.valid = true) :
    a.envelope.epoch = s.epoch ∧ a.envelope.containmentGeneration = record.generation ∧
      a.envelope.policyGeneration = s.policyGeneration ∧ a.envelope.topologyGeneration = s.topologyGeneration ∧
      ∃ f, s.faults.find record.fault = some f ∧ f.evidence.generation = a.envelope.faultGeneration ∧
        isFaultCurrent f.state = true := by
  obtain ⟨hepoch, h⟩ := passed_check h (by decide)
  obtain ⟨-, h⟩ := passed_check h (by decide)
  obtain ⟨hcontainment, h⟩ := passed_check h (by decide)
  obtain ⟨hpolicy, h⟩ := passed_check h (by decide)
  obtain ⟨htopology, h⟩ := passed_check h (by decide)
  refine ⟨not_not.mp hepoch, not_not.mp hcontainment, not_not.mp hpolicy,
    not_not.mp fun hne => htopology ⟨hstamped, hne⟩, ?_⟩
  cases hr : s.topology.resources.find a.target with
  | none =>
    rw [hr] at h
    cases h
  | some r =>
    rw [hr] at h
    obtain ⟨-, h⟩ := passed_check h (by decide)
    obtain ⟨-, h⟩ := passed_check h (by decide)
    cases hf : s.faults.find record.fault with
    | none =>
      rw [hf] at h
      cases h
    | some f =>
      rw [hf] at h
      obtain ⟨hfault, h⟩ := passed_check h (by decide)
      obtain ⟨hcurrent, -⟩ := passed_check h (by decide)
      exact ⟨f, rfl, not_not.mp hfault, not_not.mp hcurrent⟩

/-- the action is planned, or authorised and not dispatched yet -/
def Pending (id : ActionId) (i : Impl) : Prop :=
  ∃ a, i.state.actions.find id = some a ∧ a.id = id ∧ (a.status = .planned ∨ a.status = .authorized)

/-- the action is superseded -/
def Superseded (id : ActionId) (i : Impl) : Prop := ∃ a, i.state.actions.find id = some a ∧ a.status = .superseded

theorem dispatchOne_mono (clk : Clock) (record : ContainmentRecord) (d : Dispatch) (id : ActionId) :
    d.toDispatch ⊆ (dispatchOne clk record d id).toDispatch := by
  unfold dispatchOne
  split
  · exact List.Subset.refl _
  · split_ifs
    · exact List.Subset.refl _
    · exact List.Subset.refl _
    · exact List.subset_append_left _ _

theorem dispatchLoop_mono (clk : Clock) (record : ContainmentRecord) (ids : List ActionId) (d : Dispatch) :
    d.toDispatch ⊆ (ids.foldl (dispatchOne clk record) d).toDispatch := by
  induction ids generalizing d with
  | nil => exact List.Subset.refl _
  | cons id ids ih => exact List.Subset.trans (dispatchOne_mono clk record d id) (ih _)

theorem dispatchOne_other (clk : Clock) (record : ContainmentRecord) (d : Dispatch) {id k : ActionId} (h : id ≠ k) :
    (dispatchOne clk record d id).impl.state.actions.find k = d.impl.state.actions.find k := by
  unfold dispatchOne
  split
  · rfl
  · split_ifs
    · rfl
    · exact OrderedMap.find_insert_ne _ _ h
    · exact OrderedMap.find_insert_ne _ _ h

/-- a pending action is superseded or accepted -/
theorem dispatchOne_settles (clk : Clock) (record : ContainmentRecord) {d : Dispatch} {id : ActionId}
    (h : Pending id d.impl) : Superseded id (dispatchOne clk record d id).impl ∨
      ∃ b ∈ (dispatchOne clk record d id).toDispatch, b.id = id := by
  obtain ⟨a, ha, hid, hs⟩ := h
  unfold dispatchOne
  rw [ha]
  dsimp only
  rw [if_neg (by rcases hs with hs | hs <;> simp [hs])]
  split_ifs
  · exact .inl ⟨_, OrderedMap.find_insert_self _ _ _, rfl⟩
  · exact .inr ⟨authorizedAt (clk 0) a, List.mem_append_right _ (List.mem_singleton.mpr rfl), hid⟩

/-- **Refusal.** An action of the containment that is not accepted is superseded. -/
theorem superseded_dispatchLoop (clk : Clock) (record : ContainmentRecord) {ids : List ActionId} {id : ActionId}
    (hid : id ∈ ids) {d : Dispatch} (h : Pending id d.impl)
    (hn : ¬ ∃ b ∈ (ids.foldl (dispatchOne clk record) d).toDispatch, b.id = id) :
    Superseded id (ids.foldl (dispatchOne clk record) d).impl := by
  induction ids generalizing d with
  | nil => simp at hid
  | cons k ids ih =>
    rw [List.foldl_cons] at hn ⊢
    by_cases hk : k = id
    · subst hk
      rcases dispatchOne_settles clk record h with ⟨b, hb, hs⟩ | ⟨b, hb, hid'⟩
      · obtain ⟨b', hb', hreach, -⟩ := (moves_dispatchLoop clk record ids (.refl (dispatchOne clk record d k).impl)).old k b hb
        exact ⟨b', hb', (reaches_final hreach (by rw [hs]; rfl)).trans hs⟩
      · exact absurd ⟨b, dispatchLoop_mono clk record ids _ hb, hid'⟩ hn
    · refine ih ((List.mem_cons.mp hid).resolve_left fun h => hk h.symm) ?_ hn
      obtain ⟨a, ha, hrest⟩ := h
      exact ⟨a, (dispatchOne_other clk record d hk).trans ha, hrest⟩

/-- the containment that is dispatched is the one stored -/
theorem admitDispatch_find {generation : ContainmentGeneration} {i : Impl} {record : ContainmentRecord}
    (h : admitDispatch generation true i = .ok record) : i.state.containments.find generation = some record := by
  unfold admitDispatch at h
  split at h
  · simp at h
  · split at h
    · simp at h
    · next c hc =>
      split at h
      · simp at h
      · rw [hc]
        exact congrArg some (Except.ok.inj h)

/-- two actions of one plan carry the same stamps -/
theorem stamps_of_plan {a b : ContainmentAction} (h : plan b = plan a) :
    b.envelope.epoch = a.envelope.epoch ∧ b.envelope.containmentGeneration = a.envelope.containmentGeneration ∧
      b.envelope.policyGeneration = a.envelope.policyGeneration ∧
      b.envelope.topologyGeneration = a.envelope.topologyGeneration ∧
      b.envelope.faultGeneration = a.envelope.faultGeneration := by
  have hepoch := congrArg AuthorityEnvelope.epoch h
  have hcontainment := congrArg AuthorityEnvelope.containmentGeneration h
  have hpolicy := congrArg AuthorityEnvelope.policyGeneration h
  have htopology := congrArg AuthorityEnvelope.topologyGeneration h
  have hfault := congrArg AuthorityEnvelope.faultGeneration h
  exact ⟨hepoch, hcontainment, hpolicy, htopology, hfault⟩

/-- an accepted action passes revalidation against its own containment, under the plan that is stored -/
theorem accepted_revalidated {clk : Clock} {generation : ContainmentGeneration} {i : Impl} (hk : ActionsKeyed i)
    {todo : List ContainmentAction} {summary : DispatchSummary}
    (hok : (dispatchBegin clk generation true i).result = .ok (todo, summary)) {a : ContainmentAction}
    (ha : i.state.actions.find a.id = some a) {b : ContainmentAction} (hb : b ∈ todo) (hid : b.id = a.id) :
    ∃ record, i.state.containments.find generation = some record ∧ revalidateAction i.state record b = .ok ∧
      plan b = plan a := by
  obtain ⟨record, d, hadmitted, hlisted, rfl, -, hloop⟩ := listed_dispatchBegin hk hok
  have hrecord := admitDispatch_find hadmitted
  have hmoves : Moves i d.impl := hloop ▸ moves_dispatchLoop clk record record.actions (.refl i)
  obtain ⟨b', hb', -, -, hplan, -⟩ := hmoves.old a.id a ha
  have hstored : d.impl.state.actions.find b.id = some b := hlisted.stored b hb
  rw [hid] at hstored
  obtain rfl := Option.some.inj (hb'.symm.trans hstored)
  exact ⟨record, hrecord, hlisted.valid b' hb, hplan⟩

/-- **A dispatched plan is current.** In every run from planning to a dispatch in which no operation replaces, retires or
readmits the incarnation of the plan, or revokes the owner of resources, an action that is accepted was planned against the
topology, policy, epoch, fault and incarnation that were there all along; otherwise the dispatch supersedes it. -/
theorem plan_current_run (start : Start) (hstart : start.succeeds) (pre mid : List Call) (c : Call)
    (a : ContainmentAction) (hplan : Plans c (Runs.run Call.after pre start.impl) a)
    (hcond : Runs.Along Call.after (LeavesOwner a) (c :: mid) (Runs.run Call.after pre start.impl)) (clk : Clock)
    (generation : ContainmentGeneration) (todo : List ContainmentAction) (summary : DispatchSummary)
    (hok : (dispatchBegin clk generation true (Runs.run Call.after (pre ++ c :: mid) start.impl)).result =
      .ok (todo, summary)) :
    ((∃ b ∈ todo, b.id = a.id) → Steady a mid (Runs.run Call.after (pre ++ [c]) start.impl)) ∧
      (¬ Steady a mid (Runs.run Call.after (pre ++ [c]) start.impl) →
        generation = a.envelope.containmentGeneration →
        Pending a.id (Runs.run Call.after (pre ++ c :: mid) start.impl) →
        Superseded a.id (dispatchBegin clk generation true (Runs.run Call.after (pre ++ c :: mid) start.impl)).impl) := by
  have hk : ActionsKeyed (Runs.run Call.after (pre ++ c :: mid) start.impl) :=
    Runs.run_keeps (fun c _ h => actionsKeyed_after c h) _ (actionsKeyed_start start hstart)
  have hn : Numbered (Runs.run Call.after pre start.impl) :=
    Runs.run_keeps (fun c _ h => numbered_after c h) _ (numbered_start start hstart)
  rw [Runs.run_append, Runs.run_cons] at hk hok ⊢
  rw [Runs.run_append, Runs.run_cons, Runs.run_nil]
  generalize Runs.run Call.after pre start.impl = i at hplan hcond hk hn hok ⊢
  obtain ⟨⟨hroom, -⟩, hmid⟩ := hcond
  have hbased := planned_based hplan hn hroom.containment
  have hn' : Numbered (Runs.run Call.after mid (c.after i)) :=
    Runs.run_keeps (fun c _ h => numbered_after c h) _ (numbered_after c hn)
  obtain ⟨a', ha', hid, hsame⟩ := plan_run mid hplan.stored
  obtain ⟨record, hrecord, hfault, hactions⟩ := hbased.containment
  obtain ⟨record', hrecord', -, hfault', hactions'⟩ := kept_run mid hrecord
  have haccepted : (∃ b ∈ todo, b.id = a.id) → Steady a mid (c.after i) := by
    rintro ⟨b, hb, hb'⟩
    obtain ⟨record'', hrecord'', hvalid, hplanned⟩ := accepted_revalidated hk hok (hid ▸ ha') hb (hb'.trans hid.symm)
    obtain ⟨hepoch, hcontainment, hpolicy, htopology, hfaultGeneration⟩ := stamps_of_plan (hplanned.trans hsame)
    obtain ⟨hepoch', hcontainment', hpolicy', htopology', f', hf', hg', hcurrent⟩ :=
      revalidated hvalid (htopology ▸ hbased.stamped)
    have hend : SameStamps (c.after i) (Runs.run Call.after mid (c.after i)) := by
      refine ⟨?_, ?_, ?_⟩
      · exact htopology'.symm.trans (htopology.trans hbased.topology)
      · exact hpolicy'.symm.trans (hpolicy.trans hbased.policy)
      · exact hepoch'.symm.trans (hepoch.trans hbased.epoch)
    -- the containment that was dispatched is the one the action was planned for
    have hgeneration : generation = a.envelope.containmentGeneration := by
      rw [← (hn' generation record'' hrecord'').1, ← hcontainment', hcontainment]
    subst hgeneration
    obtain rfl := Option.some.inj (hrecord'.symm.trans hrecord'')
    obtain ⟨f, hf, hg, -⟩ := hbased.fault
    rw [hfault', hfault] at hf'
    have hstamp := fun as bs (hsplit : mid = as ++ bs) =>
      faultStamp_run hf hg hf' (hg'.trans hfaultGeneration) hcurrent hsplit
    intro as bs hsplit
    obtain ⟨hstill, hkept⟩ := still_run mid hmid hend hsplit
    refine ⟨hstill.1, hkept, ?_, (hstamp as bs hsplit).trans (hstamp [] mid rfl).symm, hstill.2⟩
    have hsplit' : Runs.run Call.after mid (c.after i) = Runs.run Call.after bs (Runs.run Call.after as (c.after i)) := by
      rw [hsplit, Runs.run_append]
    exact (hend.between (stampsLe_run as (c.after i)) (hsplit' ▸ stampsLe_run bs _)).epoch
  refine ⟨haccepted, fun hchanged hgeneration hpending => ?_⟩
  obtain ⟨record'', d, hadmitted, -, rfl, himpl, hloop⟩ := listed_dispatchBegin hk hok
  have hrecord'' := admitDispatch_find hadmitted
  subst hgeneration
  obtain rfl := Option.some.inj (hrecord'.symm.trans hrecord'')
  rw [himpl, hloop]
  rw [hloop] at haccepted
  exact superseded_dispatchLoop clk record' (hactions' ▸ hactions) hpending fun h => hchanged (haccepted h)

/-- worker 1 owns resource 5, and a fault of it is published -/
def ownedResource : List Call := [
  ⟨ticks, .registerResource { id := ⟨5⟩, ownerWorker := ⟨1⟩, ownerBoot := ⟨11⟩ }⟩,
  ⟨ticks, .registerWorker ⟨1⟩ ⟨11⟩ [] {}⟩,
  ⟨ticks, .publishFault { subject := ⟨5⟩, kind := .processDeath }⟩]

/-- the commitment that plans the action -/
def committing : Call := ⟨ticks, .authorizeContainment ⟨1⟩ {}⟩

/-- a fresh boot of worker 1 -/
def replacing : Call := ⟨ticks, .registerWorker ⟨1⟩ ⟨12⟩ [] {}⟩

/-- a section that touches no incarnation -/
def contracting : Call := ⟨ticks, .authorizeDegradedMode {}⟩

/-- the commitment plans an action in the name of worker 1 -/
theorem committing_plans : ∃ a, Plans committing (Runs.run Call.after ownedResource (Start.fresh ticks {}).impl) a ∧
    a.id = ⟨1⟩ ∧ ownerKey a = ⟨⟨1⟩, ⟨11⟩⟩ := by
  have hplanned : ((committing.after (Runs.run Call.after ownedResource (Start.fresh ticks {}).impl)).state.actions.find
      ⟨1⟩).map (fun a => (a.id, ownerKey a)) = some (⟨1⟩, ⟨⟨1⟩, ⟨11⟩⟩) := by decide +kernel
  have habsent : ((Runs.run Call.after ownedResource (Start.fresh ticks {}).impl).state.actions.find ⟨1⟩).isNone = true := by
    decide +kernel
  obtain ⟨a, ha, hkey⟩ := Option.map_eq_some_iff.mp hplanned
  obtain ⟨hid, hkey⟩ := Prod.mk.inj hkey
  exact ⟨a, ⟨⟨⟨1⟩, {}, rfl⟩, hid ▸ Option.isNone_iff_eq_none.mp habsent, hid ▸ ha⟩, hid, hkey⟩

/-- a dispatch of the containment takes the action -/
theorem committing_dispatches (mid : Call) (hmid : ((dispatchBegin ticks ⟨1⟩ true (Runs.run Call.after (ownedResource ++
    [committing, mid]) (Start.fresh ticks {}).impl)).result.toOption.map fun p => p.1.map (·.id)) = some [⟨1⟩]) :
    ∃ todo summary, (dispatchBegin ticks ⟨1⟩ true (Runs.run Call.after (ownedResource ++ [committing, mid])
      (Start.fresh ticks {}).impl)).result = .ok (todo, summary) ∧ ∃ b ∈ todo, b.id = ⟨1⟩ := by
  cases hr : (dispatchBegin ticks ⟨1⟩ true (Runs.run Call.after (ownedResource ++ [committing, mid])
      (Start.fresh ticks {}).impl)).result with
  | error e => simp [hr, Except.toOption] at hmid
  | ok p =>
    obtain ⟨todo, summary⟩ := p
    rw [hr] at hmid
    obtain ⟨b, rfl, hid⟩ : ∃ b, todo = [b] ∧ b.id = ⟨1⟩ := by
      simpa [Except.toOption, List.map_eq_singleton_iff] using hmid
    exact ⟨[b], summary, rfl, b, List.mem_cons_self, hid⟩

/-- an action dispatched after a section that leaves its worker alone -/
theorem plan_current_contracting : ∃ a, Plans committing (Runs.run Call.after ownedResource (Start.fresh ticks {}).impl) a ∧
    Steady a [contracting] (Runs.run Call.after (ownedResource ++ [committing]) (Start.fresh ticks {}).impl) := by
  obtain ⟨a, hplans, hid, -⟩ := committing_plans
  obtain ⟨todo, summary, hok, hb⟩ := committing_dispatches contracting (by decide +kernel)
  have hroom : Unsaturated (Runs.run Call.after ownedResource (Start.fresh ticks {}).impl) :=
    ⟨by decide +kernel, by decide +kernel, by decide +kernel, by decide +kernel⟩
  have hroom' : Unsaturated (committing.after (Runs.run Call.after ownedResource (Start.fresh ticks {}).impl)) :=
    ⟨by decide +kernel, by decide +kernel, by decide +kernel, by decide +kernel⟩
  exact ⟨a, hplans, (plan_current_run (.fresh ticks {}) trivial ownedResource [contracting] committing a hplans
    ⟨⟨hroom, id⟩, ⟨hroom', id⟩, trivial⟩ ticks ⟨1⟩ todo summary hok).1 (hid ▸ hb)⟩

/-- a plan is dispatched after its worker was replaced -/
theorem stale_plan_dispatched :
    ¬ ∀ (start : Start) (pre mid : List Call) (c : Call) (a : ContainmentAction) (clk : Clock)
      (generation : ContainmentGeneration) (todo : List ContainmentAction) (summary : DispatchSummary), start.succeeds →
      Plans c (Runs.run Call.after pre start.impl) a →
      (dispatchBegin clk generation true (Runs.run Call.after (pre ++ c :: mid) start.impl)).result = .ok (todo, summary) →
      (∃ b ∈ todo, b.id = a.id) → Steady a mid (Runs.run Call.after (pre ++ [c]) start.impl) := by
  intro h
  obtain ⟨a, hplans, hid, hkey⟩ := committing_plans
  obtain ⟨todo, summary, hok, hb⟩ := committing_dispatches replacing (by decide +kernel)
  have hsteady := h (.fresh ticks {}) ownedResource [replacing] committing a ticks ⟨1⟩ todo summary trivial hplans hok
    (hid ▸ hb)
  have hwatch := (hsteady [replacing] [] rfl).incarnation
  rw [hkey] at hwatch
  revert hwatch
  decide +kernel

end FaultContainment.Dispatching
