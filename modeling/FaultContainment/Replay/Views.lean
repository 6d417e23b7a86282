/-
Views of the state, and what a replay of the journal does to them.

A replica starts from the state a recovery starts from, and applies what an engine stages. A `View` is a part of the state as
the replica is to see it: what `apply_event` writes of it comes from the kinds of its records, so an operation that stages
none of them and leaves the part alone is followed for nothing.

- `View.follows_foreign`, `View.follows_counted`: the operations a view has nothing to do with.
- `follows_policy`, `follows_stamps`, `follows_degraded`: policy, stamps and degraded modes are followed by every operation.
-/
import FaultContainment.Engine.Recovery
import FaultContainment.Engine.Staged

namespace FaultContainment.Replay

open FaultContainment.Lib FaultContainment.Ids FaultContainment.Enums FaultContainment.Records
open FaultContainment.DurableEvent FaultContainment.Engine

/-! ## Views -/

/-- the events a section stages -/
def events (c : Call) (i : Impl) : List Event := (c.op.run c.clk i).staged

/-- a part of the state, and the kinds of the records it is replayed from -/
structure View (V : Type) where
  see : Impl → V
  kinds : List DurableEventKind
  deaf : ∀ e i, e.kind ∉ kinds → see (applyEvent e i) = see i

theorem applyAll_nil (i : Impl) : applyAll [] i = i := rfl

theorem applyAll_cons (e : Event) (es : List Event) (i : Impl) : applyAll (e :: es) i = applyAll es (applyEvent e i) := rfl

theorem applyAll_append (es es' : List Event) (i : Impl) : applyAll (es ++ es') i = applyAll es' (applyAll es i) :=
  List.foldl_append

namespace View

variable {V : Type} (v : View V)

/-- records of other kinds leave a view alone -/
theorem deafAll {es : List Event} (h : ∀ e ∈ es, e.kind ∉ v.kinds) (i : Impl) : v.see (applyAll es i) = v.see i := by
  induction es generalizing i with
  | nil => rfl
  | cons e es ih =>
    rw [applyAll_cons, ih fun e' he' => h e' (List.mem_cons_of_mem _ he')]
    exact v.deaf e i (h e List.mem_cons_self)

/-- what the end of a mutation means to a replica that does not look at the counters -/
theorem commit {α : Type} (hcounters : .counters ∉ v.kinds) (i : Impl) (time : UInt64) (entry : HistoryEvent)
    (before : List Event) (event : Option HistoryEvent → Event) (after : List Event) (a : α) (j : Impl) :
    v.see (applyAll (Engine.commit i time entry before event after a).staged j) =
      v.see (applyAll after (applyEvent (event (some (i.stamped time entry))) (applyAll before j))) := by
  have hlast : ∀ k, v.see (applyAll [(i.addHistory time entry).countersEvent] k) = v.see k :=
    v.deafAll fun e he => by rwa [List.mem_singleton.mp he]
  unfold Engine.commit
  dsimp only
  rw [applyAll_append, applyAll_cons, applyAll_append, hlast]

/-- a mutation with nothing around its audited event -/
theorem commit_one {α : Type} (hcounters : .counters ∉ v.kinds) (i : Impl) (time : UInt64) (entry : HistoryEvent)
    (event : Option HistoryEvent → Event) (a : α) (j : Impl) :
    v.see (applyAll (Engine.commit i time entry [] event [] a).staged j) =
      v.see (applyEvent (event (some (i.stamped time entry))) j) :=
  v.commit hcounters i time entry [] event [] a j

/-- the replica follows the operation -/
def Follows (c : Call) (i : Impl) : Prop :=
  ∀ j, v.see j = v.see i → v.see (applyAll (events c i) j) = v.see (c.after i)

/-- an operation that neither writes a view nor stages its records is followed -/
theorem follows_foreign {c : Call} {i : Impl} (hkinds : ∀ kind ∈ v.kinds, kind ∉ c.op.kinds)
    (hstill : v.see (c.after i) = v.see i) : v.Follows c i := by
  intro j hj
  have hdeaf : v.see (applyAll (events c i) j) = v.see j :=
    v.deafAll (fun e he hkind => hkinds _ hkind (stages_run c i e he)) j
  rw [hdeaf, hj, hstill]

/-- the counters an operation stages are those it ends with, so they may repeat what the replica has -/
theorem follows_counted {c : Call} {i : Impl} (hkinds : ∀ kind ∈ v.kinds, kind ≠ .counters → kind ∉ c.op.kinds)
    (hcounted : ∀ j, v.see j = v.see i → v.see (applyEvent (c.after i).countersEvent j) = v.see i)
    (hstill : v.see (c.after i) = v.see i) : v.Follows c i := by
  intro j hj
  rw [hstill]
  have hall : ∀ es : List Event, (∀ e ∈ es, e ∈ events c i) → ∀ j, v.see j = v.see i →
      v.see (applyAll es j) = v.see i := by
    intro es
    induction es with
    | nil => exact fun _ _ hj => hj
    | cons e es ih =>
      intro hes j hj
      refine ih (fun e' he' => hes e' (List.mem_cons_of_mem _ he')) _ ?_
      have he := hes e List.mem_cons_self
      rcases journals_run c i e he with hkind | heq
      · obtain ⟨hkind, hne⟩ := List.mem_filter.mp hkind
        rw [v.deaf e j fun hv => hkinds _ hv (of_decide_eq_true hne) hkind, hj]
      · rw [heq]
        exact hcounted j hj
  exact hall _ (fun _ he => he) j hj

end View

/-! ## The views of the state -/

/-- what an event of another kind leaves alone, kind by kind -/
theorem faults_applyEvent (e : Event) (i : Impl) (h : e.kind ∉ [DurableEventKind.faultUpsert]) :
    (applyEvent e i).state.faults = i.state.faults := by
  obtain ⟨kind, body, history⟩ := e
  cases kind
  case faultUpsert => simp at h
  case history => cases history <;> rfl
  all_goals rfl

def faultView : View (OrderedMap FaultId FaultRecord) where
  see i := i.state.faults
  kinds := [.faultUpsert]
  deaf := faults_applyEvent

theorem containments_applyEvent (e : Event) (i : Impl) (h : e.kind ∉ [DurableEventKind.containmentUpsert]) :
    (applyEvent e i).state.containments = i.state.containments := by
  obtain ⟨kind, body, history⟩ := e
  cases kind
  case containmentUpsert => simp at h
  case history => cases history <;> rfl
  all_goals rfl

def containmentView : View (OrderedMap ContainmentGeneration ContainmentRecord) where
  see i := i.state.containments
  kinds := [.containmentUpsert]
  deaf := containments_applyEvent

theorem actions_applyEvent (e : Event) (i : Impl) (h : e.kind ∉ [DurableEventKind.actionUpsert]) :
    (applyEvent e i).state.actions = i.state.actions := by
  obtain ⟨kind, body, history⟩ := e
  cases kind
  case actionUpsert => simp at h
  case history => cases history <;> rfl
  all_goals rfl

/-- the actions, those in flight ambiguous -/
def settled (m : OrderedMap ActionId ContainmentAction) : OrderedMap ActionId ContainmentAction :=
  m.mapVals fun _ a => makeAmbiguous a

/-- an epoch advance leaves no record of the actions it makes ambiguous; a recovery makes them so again -/
def actionView : View (OrderedMap ActionId ContainmentAction) where
  see i := settled i.state.actions
  kinds := [.actionUpsert]
  deaf e i h := by rw [actions_applyEvent e i h]

theorem policy_applyEvent (e : Event) (i : Impl) (h : e.kind ∉ [DurableEventKind.policySet, .counters]) :
    ((applyEvent e i).state.policy, (applyEvent e i).state.policyGeneration) =
      (i.state.policy, i.state.policyGeneration) := by
  obtain ⟨kind, body, history⟩ := e
  cases kind
  case policySet => simp at h
  case counters => simp at h
  case history => cases history <;> rfl
  all_goals rfl

def policyView : View (ContainmentPolicy × PolicyGeneration) where
  see i := (i.state.policy, i.state.policyGeneration)
  kinds := [.policySet, .counters]
  deaf := policy_applyEvent

theorem degraded_applyEvent (e : Event) (i : Impl) (h : e.kind ∉ [DurableEventKind.degradedUpsert]) :
    ((applyEvent e i).state.degradedContracts, (applyEvent e i).state.degradedModes) =
      (i.state.degradedContracts, i.state.degradedModes) := by
  obtain ⟨kind, body, history⟩ := e
  cases kind
  case degradedUpsert => simp at h
  case history => cases history <;> rfl
  all_goals rfl

def degradedView : View (OrderedMap DegradedModeId DegradedModeContract × OrderedMap DegradedModeId DegradedModeAssessment)
    where
  see i := (i.state.degradedContracts, i.state.degradedModes)
  kinds := [.degradedUpsert]
  deaf := degraded_applyEvent

/-- the stamps that only operations that flush advance -/
def stampView : View (CoordinatorEpoch × ContainmentGeneration × VerificationGeneration) where
  see i := (i.state.epoch, i.state.containmentGeneration, i.state.verificationGeneration)
  kinds := [.counters]
  deaf e i h := by
    obtain ⟨kind, body, history⟩ := e
    cases kind
    case counters => simp at h
    case history => cases history <;> rfl
    all_goals rfl

/-! ## Policy, degraded modes, stamps -/

theorem follows_policy (c : Call) (i : Impl) : policyView.Follows c i := by
  have hframe := frame_run c i
  have hsame : .policy ∉ c.op.parts → policyView.see (c.after i) = policyView.see i :=
    fun h => Prod.ext (hframe.policy h) (hframe.policyGeneration h)
  have hcounted : ∀ i' j, policyView.see i' = policyView.see i → policyView.see j = policyView.see i →
      policyView.see (applyEvent i'.countersEvent j) = policyView.see i := by
    intro i' j hi' hj
    have hpolicy : j.state.policy = i.state.policy := congrArg Prod.fst hj
    have hgeneration : i'.state.policyGeneration = i.state.policyGeneration := congrArg Prod.snd hi'
    exact Prod.ext hpolicy hgeneration
  obtain ⟨clk, op⟩ := c
  cases op
  case setPolicy policy =>
    intro j hj
    show policyView.see (applyAll (setPolicy clk policy i).staged j) = policyView.see (setPolicy clk policy i).impl
    unfold setPolicy
    split
    · exact hj
    · rfl
  all_goals
    have hsame := hsame (by simp [Op.parts])
    exact policyView.follows_counted (by simp [policyView, Op.kinds]) (fun j hj => hcounted _ j hsame hj) hsame

theorem follows_stamps (c : Call) (i : Impl) : stampView.Follows c i := by
  have hframe := frame_run c i
  have hsame : .epoch ∉ c.op.parts → .containments ∉ c.op.parts → .verification ∉ c.op.parts →
      stampView.see (c.after i) = stampView.see i := fun he hc hv =>
    Prod.ext (hframe.epoch he) (Prod.ext (hframe.containmentGeneration hc) (hframe.verification hv))
  -- counters at the end of what is staged settle all three
  have hlast : ∀ {α : Type} (step : Step α) (es : List Event) (j : Impl), step.staged = es ++ [step.impl.countersEvent] →
      stampView.see (applyAll step.staged j) = stampView.see step.impl := by
    intro α step es j h
    rw [h, applyAll_append]
    rfl
  have hcommit : ∀ {α : Type} (i : Impl) time entry before event after (a : α) (j : Impl),
      stampView.see (applyAll (commit i time entry before event after a).staged j) =
        stampView.see (commit i time entry before event after a).impl := by
    intro α i time entry before event after a j
    refine hlast _ (before ++ event (some (i.stamped time entry)) :: after) j ?_
    simp [commit]
  obtain ⟨clk, op⟩ := c
  cases op
  case beginEpoch nowMs reason => exact fun j _ => hcommit _ _ _ _ _ _ _ j
  case authorizeContainment id expected =>
    intro j hj
    show stampView.see (applyAll (authorizeContainment clk id expected i).staged j) =
      stampView.see (authorizeContainment clk id expected i).impl
    unfold authorizeContainment
    split
    · exact hj
    · split
      · exact hj
      · exact hcommit _ _ _ _ _ _ _ j
  case verifyContainment generation =>
    intro j hj
    show stampView.see (applyAll (verifyContainment clk generation i).staged j) =
      stampView.see (verifyContainment clk generation i).impl
    unfold verifyContainment
    split
    · exact hj
    · exact hcommit _ _ _ _ _ _ _ j
  case authorizeRelease request =>
    intro j hj
    show stampView.see (applyAll (authorizeRelease clk request i).staged j) =
      stampView.see (authorizeRelease clk request i).impl
    unfold authorizeRelease
    dsimp only
    split
    · exact hcommit _ _ _ _ _ _ _ j
    · split
      · exact hj
      · exact hcommit _ _ _ _ _ _ _ j
  all_goals
    have hsame := hsame (by simp [Op.parts]) (by simp [Op.parts]) (by simp [Op.parts])
    exact stampView.follows_counted (by simp [stampView]) (fun _ _ => hsame) hsame

/-- every degraded contract sits under its own identity -/
abbrev ContractsKeyed (i : Impl) : Prop := OrderedMap.Keyed DegradedModeContract.id i.state.degradedContracts

theorem contract_assessDegradedMode (s : RuntimeSnapshot) (contract : Option DegradedModeContract) (id : DegradedModeId)
    (nowMs : UInt64) : (assessDegradedMode s contract id nowMs).contract = id := by
  have hone : ∀ a r, (assessResource a r).contract = a.contract := by
    intro a r
    unfold assessResource
    dsimp only
    split_ifs <;> rfl
  have hall : ∀ (rs : List ResourceRecord) (a : DegradedModeAssessment), (rs.foldl assessResource a).contract = a.contract := by
    intro rs
    induction rs with
    | nil => exact fun _ => rfl
    | cons r rs ih => exact fun a => (ih _).trans (hone a r)
  have hjudge : ∀ live a, (judge live a).contract = a.contract := by
    intro live a
    unfold judge
    split_ifs <;> rfl
  exact (hjudge _ _).trans (hall _ _)

/-- the prohibited list keeps the identity of an assessment -/
theorem contract_prohibitAgain (contract : DegradedModeContract) (a : DegradedModeAssessment) :
    (prohibitAgain contract a).contract = a.contract := by
  unfold prohibitAgain
  induction contract.prohibitedResources generalizing a with
  | nil => rfl
  | cons r rs ih => exact ih _

/-- a contract and its assessment are replayed as they are stored -/
theorem see_degradedUpsert (contract : DegradedModeContract) (a : DegradedModeAssessment) (h : Option HistoryEvent)
    {i j : Impl} (hj : degradedView.see j = degradedView.see i) :
    degradedView.see (applyEvent ⟨.degradedUpsert, (contract, a), h⟩ j) =
      degradedView.see (storeDegraded contract.id contract a a.contract i) := by
  have hcontracts : j.state.degradedContracts = i.state.degradedContracts := congrArg Prod.fst hj
  have hmodes : j.state.degradedModes = i.state.degradedModes := congrArg Prod.snd hj
  unfold degradedView applyEvent storeDegraded
  dsimp only
  rw [hcontracts, hmodes]

theorem follows_degraded (c : Call) (i : Impl) (hkeyed : ContractsKeyed i) : degradedView.Follows c i := by
  have hframe := frame_run c i
  have hsame : .degraded ∉ c.op.parts → degradedView.see (c.after i) = degradedView.see i :=
    fun h => Prod.ext (hframe.degraded h).1 (hframe.degraded h).2
  obtain ⟨clk, op⟩ := c
  cases op
  case authorizeDegradedMode contract =>
    intro j hj
    show degradedView.see (applyAll (authorizeDegradedMode clk contract i).staged j) =
      degradedView.see (authorizeDegradedMode clk contract i).impl
    unfold authorizeDegradedMode
    split
    · exact hj
    · dsimp only
      rw [degradedView.commit_one (by simp [degradedView])]
      refine see_degradedUpsert _ _ _ (hj.trans ?_)
      split_ifs <;> rfl
  case revalidateDegradedMode id =>
    intro j hj
    show degradedView.see (applyAll (revalidateDegradedMode clk id i).staged j) =
      degradedView.see (revalidateDegradedMode clk id i).impl
    unfold revalidateDegradedMode
    split
    · exact hj
    · next contract hfind =>
      dsimp only
      rw [degradedView.commit_one (by simp [degradedView])]
      have hid : contract.id = id := hkeyed id contract hfind
      have hassessed := contract_assessDegradedMode i.state (some contract) id (clk 0)
      have hcut := (contract_prohibitAgain contract (restrict contract i.state.topology
        (assessDegradedMode i.state (some contract) id (clk 0)))).trans hassessed
      have hstore : ∀ a : DegradedModeAssessment, a.contract = id → ∀ h, degradedView.see
          (applyEvent ⟨.degradedUpsert, (contract, a), h⟩ j) = degradedView.see (storeDegraded id contract a id i) := by
        intro a ha h
        have hsee := see_degradedUpsert contract a h hj
        rwa [hid, ha] at hsee
      refine hstore _ ?_ _
      split_ifs <;> exact hcut
  all_goals
    exact degradedView.follows_foreign (by simp [degradedView, Op.kinds]) (hsame (by simp [Op.parts]))

end FaultContainment.Replay
