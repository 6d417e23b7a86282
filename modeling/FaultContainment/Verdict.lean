/-
The verdict CONTAINED, against everything the run did before it.

The ladder that concludes a verification looks at six of the nine findings, and at the statuses of the actions, not at what
their results said or which resources they were planned for. The verdict is sound along the runs in which every commitment
plans an action for each resource it fences, every recorded result is a success, and the three findings that the ladder
passes over hold when a verification runs.

- `contained_iff`: what the ladder asks of a state.
- `findings_iff`: what it leaves open.
- `contained_run`: the verdict is sound along such runs.
- `contained_failed`: it is not without them.
-/
import FaultContainment.Containments
import FaultContainment.Dispatching.Authentic

namespace FaultContainment.Verdict

open FaultContainment.Lib FaultContainment.Ids FaultContainment.Enums FaultContainment.Records
open FaultContainment.DurableEvent FaultContainment.BlastRadius FaultContainment.Engine FaultContainment.Dispatching
open FaultContainment.Containments

/-! ## The ladder -/

/-- what the ladder asks before it concludes CONTAINED -/
structure Standing (s : RuntimeSnapshot) (record : ContainmentRecord) (nowMs : UInt64) : Prop where
  envelope : (runChecks s record nowMs).envelopeCurrent = true
  secondary : (runChecks s record nowMs).secondaryFailure = false
  degraded : (runChecks s record nowMs).degradedValid = true
  severed : (runChecks s record nowMs).propagationContinued = false
  evidenced : (runChecks s record nowMs).actionsEvidenced = true
  proven : ∀ k ∈ record.mandatory, provenContained s k = true

/-- what it passes over -/
structure PassedOver (s : RuntimeSnapshot) (record : ContainmentRecord) : Prop where
  authority : authorityRevoked s record = true
  operational : record.unaffected = [] ∨ ∃ k ∈ record.unaffected, ∃ r, s.topology.resources.find k = some r ∧
    isOperable r.state = true
  radius : radiusIncreased s record = false

theorem proven_length_iff (s : RuntimeSnapshot) (record : ContainmentRecord) (nowMs : UInt64) :
    (runChecks s record nowMs).proven.length = record.mandatory.length ↔
      ∀ k ∈ record.mandatory, provenContained s k = true := by
  show (record.mandatory.filter (provenContained s)).length = _ ↔ _
  exact List.length_filter_eq_length_iff

theorem contained_iff (s : RuntimeSnapshot) (record : ContainmentRecord) (g : ContainmentGeneration) (nowMs : UInt64) :
    (verificationOf s record g nowMs).outcome = .contained ↔ Standing s record nowMs := by
  show (concludeChecks record.mandatory.length (runChecks s record nowMs)).1 = .contained ↔ _
  unfold concludeChecks
  constructor
  · intro h
    split_ifs at h with h1 h2 h3 h4 h5 h6
    all_goals simp at h1 h2 h3 h4 h5
    exact ⟨h1, h2, h3, h4, h5, (proven_length_iff s record nowMs).mp h6⟩
  · intro h
    rw [if_neg (by simp [h.envelope]), if_neg (by simp [h.secondary]), if_neg (by simp [h.degraded]),
      if_neg (by simp [h.severed]), if_neg (by simp [h.evidenced]), if_pos ((proven_length_iff s record nowMs).mpr h.proven)]

/-- the findings in the order they are recorded -/
theorem findings_passed (s : RuntimeSnapshot) (record : ContainmentRecord) (g : ContainmentGeneration) (nowMs : UInt64) :
    (verificationOf s record g nowMs).findings.map VerificationFinding.passed =
      [(runChecks s record nowMs).envelopeCurrent,
        decide ((runChecks s record nowMs).proven.length = record.mandatory.length), authorityRevoked s record,
        !(runChecks s record nowMs).propagationContinued, (runChecks s record nowMs).degradedValid,
        decide (record.unaffected = []) || decide (0 < (record.unaffected.filter fun id =>
          (s.topology.resources.find id).any fun r => isOperable r.state).length),
        !radiusIncreased s record, !(runChecks s record nowMs).secondaryFailure,
        (runChecks s record nowMs).actionsEvidenced] := rfl

theorem operational_iff (s : RuntimeSnapshot) (record : ContainmentRecord) :
    (decide (record.unaffected = []) || decide (0 < (record.unaffected.filter fun id =>
        (s.topology.resources.find id).any fun r => isOperable r.state).length)) = true ↔
      record.unaffected = [] ∨ ∃ k ∈ record.unaffected, ∃ r, s.topology.resources.find k = some r ∧
        isOperable r.state = true := by
  rw [Bool.or_eq_true, decide_eq_true_eq, decide_eq_true_eq, List.length_pos_iff_exists_mem]
  simp only [List.mem_filter, Option.any_eq_true]

/-- Under a standing containment every finding passes exactly when those the ladder passes over do. -/
theorem findings_iff {s : RuntimeSnapshot} {record : ContainmentRecord} {nowMs : UInt64} (g : ContainmentGeneration)
    (h : Standing s record nowMs) :
    (∀ f ∈ (verificationOf s record g nowMs).findings, f.passed = true) ↔ PassedOver s record := by
  have hproven := (proven_length_iff s record nowMs).mpr h.proven
  have hmap : (∀ f ∈ (verificationOf s record g nowMs).findings, f.passed = true) ↔
      ∀ b ∈ (verificationOf s record g nowMs).findings.map VerificationFinding.passed, b = true :=
    (List.forall_mem_map (P := fun b => b = true)).symm
  rw [hmap, findings_passed, h.envelope, h.secondary, h.degraded, h.severed, h.evidenced, decide_eq_true hproven]
  simp only [List.forall_mem_cons, List.not_mem_nil, false_implies, implies_true, and_true, true_and, Bool.not_false,
    operational_iff, Bool.not_eq_true']
  exact ⟨fun ⟨ha, ho, hr⟩ => ⟨ha, ho, hr⟩, fun h => ⟨h.authority, h.operational, h.radius⟩⟩

/-! ## Targets -/

/-- one of the actions targets the resource -/
def Targeted (i : Impl) (ids : List ActionId) (k : ResourceId) : Prop :=
  ∃ id ∈ ids, ∃ a, i.state.actions.find id = some a ∧ a.target = k

theorem Targeted.aimed {i j : Impl} (h : Aimed i j) {ids : List ActionId} {k : ResourceId} (ht : Targeted i ids k) :
    Targeted j ids k := by
  obtain ⟨id, hid, a, ha, rfl⟩ := ht
  obtain ⟨a', ha', htarget⟩ := h id a ha
  exact ⟨id, hid, a', ha', htarget⟩

/-- every mandatory resource of a containment is the target of one of its actions -/
def Covered (i : Impl) : Prop :=
  ∀ g c, i.state.containments.find g = some c → ∀ k ∈ c.mandatory, Targeted i c.actions k

/-- room for a run of identifiers -/
def Unused (i : Impl) (count : ℕ) : Prop := ∀ n < count, i.state.actions.find ⟨i.nextAction + UInt64.ofNat n⟩ = none

/-- planning under a budget that reaches covers every stored resource -/
theorem planActions_covers (time : UInt64) (budget : ℕ) (record : ContainmentRecord) (ks : List ResourceId)
    (planned : List ActionId) {i : Impl} (hbudget : planned.length + ks.length ≤ budget) (hroom : ks.length < 2 ^ 64)
    (hstored : ∀ k ∈ ks, i.state.topology.resources.has k = true) (hunused : Unused i ks.length) :
    ∀ k ∈ ks, Targeted (planActions time budget record ks planned i).1
      (planActions time budget record ks planned i).2.1 k := by
  induction ks generalizing planned i with
  | nil => simp
  | cons k ks ih =>
    obtain ⟨r, hr⟩ := (OrderedMap.has_iff _ _).mp (hstored k List.mem_cons_self)
    have hspent : ¬ budget ≤ planned.length := by
      rw [List.length_cons] at hbudget
      omega
    unfold planActions
    rw [if_neg hspent, hr]
    dsimp only
    generalize hj : Impl.withActions _ _ = j
    have hactions : j.state.actions =
        i.state.actions.emplace ⟨i.nextAction⟩ (planAction time record ⟨i.nextAction⟩ k r i.state) := by rw [← hj]; rfl
    have hnext : j.nextAction = i.nextAction + 1 := by rw [← hj]; rfl
    have hresources : j.state.topology = i.state.topology := by rw [← hj]; rfl
    have hnone : i.state.actions.find ⟨i.nextAction⟩ = none := by
      have h0 := hunused 0 (Nat.succ_pos _)
      rwa [show i.nextAction + UInt64.ofNat 0 = i.nextAction from UInt64.add_zero _] at h0
    intro k' hk'
    rcases List.mem_cons.mp hk' with rfl | hk'
    · have hnew : j.state.actions.find ⟨i.nextAction⟩ = some (planAction time record ⟨i.nextAction⟩ k' r i.state) := by
        rw [hactions, OrderedMap.find_emplace, if_pos ⟨rfl, hnone⟩]
      obtain ⟨a', ha', ht⟩ := aimed_planActions time budget record ks (planned ++ [⟨i.nextAction⟩]) (.refl j) _ _ hnew
      exact ⟨⟨i.nextAction⟩, mem_planActions _ _ _ _ _ _ (List.mem_append_right _ List.mem_cons_self), a', ha', ht⟩
    · refine ih _ ?_ ?_ ?_ ?_ k' hk'
      · rw [List.length_append, List.length_singleton]
        rw [List.length_cons] at hbudget
        omega
      · rw [List.length_cons] at hroom
        omega
      · intro k'' hk''
        rw [hresources]
        exact hstored k'' (List.mem_cons_of_mem _ hk'')
      · intro n hn
        have hfree := hunused (n + 1) (Nat.succ_lt_succ hn)
        have hshift : i.nextAction + UInt64.ofNat (n + 1) = j.nextAction + UInt64.ofNat n := by
          rw [hnext, UInt64.ofNat_add, UInt64.add_assoc, UInt64.add_comm (UInt64.ofNat n)]
          rfl
        rw [hshift] at hfree
        have hne : (⟨i.nextAction⟩ : ActionId) ≠ ⟨j.nextAction + UInt64.ofNat n⟩ := by
          rw [← hshift, ne_eq, Id.mk.injEq]
          intro heq
          have hzero := congrArg UInt64.toNat (UInt64.add_eq_left.mp heq.symm)
          rw [UInt64.toNat_ofNat_of_lt' (lt_of_le_of_lt (Nat.succ_le_succ hn.le) hroom)] at hzero
          simp at hzero
        rw [hactions, OrderedMap.find_emplace, if_neg fun h => hne h.1]
        exact hfree

/-- a commitment has the budget, the resources and the identifiers to plan an action for each mandatory resource -/
def PlansAll (id : FaultId) (expected : FaultGeneration) (i : Impl) : Prop :=
  ∀ fault ∈ (admitContainment id expected i).toOption, ∀ radius ∈ (admitRadius fault i).toOption,
    radius.mandatory.length ≤ actionBudget i.state.policy fault.evidence.kind ∧
      (∀ k ∈ radius.mandatory, i.state.topology.resources.has k = true) ∧ Unused i radius.mandatory.length

theorem actionBudget_lt (policy : ContainmentPolicy) (kind : FaultKind) : actionBudget policy kind < 2 ^ 64 := by
  have h := (policy.ruleFor kind).actionBudget.toNat_lt
  unfold actionBudget
  omega

theorem covers_committed (clk : Clock) {id : FaultId} {expected : FaultGeneration} {i : Impl} {fault : FaultRecord}
    {radius : Records.BlastRadius} (hfault : admitContainment id expected i = .ok fault)
    (hradius : admitRadius fault i = .ok radius) (h : PlansAll id expected i) :
    ∀ k ∈ radius.mandatory, Targeted (plannedBy clk id fault radius i).1 (committed clk id fault radius i).actions k := by
  obtain ⟨hbudget, hstored, hunused⟩ := h fault (by rw [hfault]; rfl) radius (by rw [hradius]; rfl)
  have hframe := frame_fenced clk id fault radius i
  refine planActions_covers _ _ _ _ [] (by simpa using hbudget) (lt_of_le_of_lt hbudget (actionBudget_lt _ _)) ?_ ?_
  · intro k hk
    unfold fenced
    dsimp only
    rw [editEach_resources, editEach_resources]
    rw [has_editMap, has_editMap]
    exact hstored k hk
  · intro n hn
    rw [hframe.nextAction (by simp), hframe.actions (by simp)]
    exact hunused n hn

/-- **Step.** Every operation keeps the containments covered, if commitments plan for everything. -/
theorem covered_after (c : Call) {i : Impl} (hplans : ∀ id expected, c.op = .authorizeContainment id expected →
    PlansAll id expected i) (h : Covered i) : Covered (c.after i) := by
  have haimed := aimed_after c i
  have hkept : ∀ g b, i.state.containments.find g = some b → ∀ k ∈ b.mandatory, Targeted (c.after i) b.actions k :=
    fun g b hb k hk => (h g b hb k hk).aimed haimed
  cases writes c i with
  | none hc => exact fun g b hb => hkept g b (hc ▸ hb)
  | verify g record _ hfind _ hc => exact each_insert hc (hkept g record hfind) hkept
  | release g record request _ _ _ hfind hc =>
    exact each_insert hc (fun k hk => hkept g record hfind k (mem_of_mem_idSetErase hk)) hkept
  | commit id expected fault radius hop hfault hradius hc =>
    refine each_emplace hc ?_ hkept
    have hactions : (c.after i).state.actions = (plannedBy c.clk id fault radius i).1.state.actions := by
      unfold Call.after
      rw [hop]
      exact (authorizeContainment_stored c.clk hfault hradius).2
    intro k hk
    obtain ⟨a, ha, b, hb, ht⟩ := covers_committed c.clk hfault hradius (hplans id expected hop) k hk
    exact ⟨a, ha, b, hactions ▸ hb, ht⟩

/-! ## Results -/

/-- the action has a recorded result -/
def isRecorded (i : Impl) (id : ActionId) : Bool := (i.state.actions.find id).any fun a => a.status = .resultRecorded

/-- the engine, with the actions whose recorded result was a success -/
structure Ledger where
  impl : Impl
  succeeded : List ActionId := []

/-- a call; a result counts when it is the one that gets recorded -/
def Ledger.after (c : Call) (l : Ledger) : Ledger where
  impl := c.after l.impl
  succeeded := match c.op with
    | .recordActionResult m =>
      if m.success && !isRecorded l.impl m.action && isRecorded (c.after l.impl) m.action then m.action :: l.succeeded
      else l.succeeded
    | _ => l.succeeded

/-- the statuses that count as post-action evidence -/
def evident : ActionStatus → Bool
  | .resultRecorded | .verifiedEffective | .verifiedIneffective => true
  | _ => false

/-- every recorded result was a success -/
def Successful (l : Ledger) : Prop :=
  ∀ id a, l.impl.state.actions.find id = some a → evident a.status = true → id ∈ l.succeeded

/-- the action a result is admitted for -/
def admitted (m : ActionResult) (i : Impl) : Option ContainmentAction :=
  (admitReport "action.result" "result epoch is not current" "the reporting incarnation holds no live authority" m.action
    m.actionGeneration m.epoch m.worker m.workerBoot i).toOption

theorem mem_admitted {m : ActionResult} {i : Impl} {b : ContainmentAction} (h : Admits (.result m) i b) :
    b ∈ admitted m i := by
  have hb := (admitReport_iff "action.result" "result epoch is not current"
    "the reporting incarnation holds no live authority" (.result m) i b).mpr h
  simp only [Report.claim] at hb
  rw [admitted, hb]
  rfl

/-- a commitment plans for everything, no failure is recorded, and a verification passes over nothing -/
def Diligent (c : Call) (l : Ledger) : Prop :=
  match c.op with
  | .authorizeContainment id expected => PlansAll id expected l.impl
  | .recordActionResult m =>
    ∀ a ∈ admitted m l.impl, (Report.result m).opens a.status → m.success = true
  | .verifyContainment g => ∀ record ∈ l.impl.state.containments.find g, PassedOver l.impl.state record
  | _ => True

theorem mem_succeeded_after (c : Call) (l : Ledger) {id : ActionId} (h : id ∈ l.succeeded) :
    id ∈ (l.after c).succeeded := by
  unfold Ledger.after
  dsimp only
  split
  · split_ifs
    · exact List.mem_cons_of_mem _ h
    · exact h
  · exact h

/-- only reports make evidence: an action that has it had it before -/
theorem evident_of_quiet (c : Call) {i : Impl} (hr : isReport c.op = false) {id : ActionId} {a' : ContainmentAction}
    (ha' : (c.after i).state.actions.find id = some a') (he : evident a'.status = true) :
    ∃ a, i.state.actions.find id = some a ∧ evident a.status = true := by
  have hverified : ∀ {st}, Reaches st a'.status → a'.status ≠ .resultRecorded → st = a'.status := by
    intro st h hne
    rcases Relation.ReflTransGen.cases_tail h with heq | ⟨mid, -, hmove⟩
    · exact heq.symm
    · cases hst : a'.status <;> simp [hst, evident] at he hne <;> rw [hst] at hmove <;> cases hmove
  by_cases hst : a'.status = .resultRecorded
  · obtain ⟨a, ha, hsame⟩ := quiet_after c i hr id a' ha' (by rw [hst]; rfl)
    exact ⟨a, ha, hsame ▸ he⟩
  · cases ha : i.state.actions.find id with
    | none =>
      rw [← hverified ((reaches_after c i id).2 a' ha ha') hst] at he
      simp [evident] at he
    | some a =>
      obtain ⟨b, hb, hreach⟩ := (reaches_after c i id).1 a ha
      obtain rfl := Option.some.inj (hb.symm.trans ha')
      exact ⟨a, rfl, hverified hreach hst ▸ he⟩

/-- evidence that a report makes is the result it carries, recorded -/
theorem evident_of_report {d : Delivery} {i : Impl} {id : ActionId} {a' : ContainmentAction}
    (ha' : (d.after i).state.actions.find id = some a') (he : evident a'.status = true) :
    (∃ a, i.state.actions.find id = some a ∧ evident a.status = true) ∨
      ∃ m b, d.report = .result m ∧ m.action = id ∧ Admits (.result m) i b ∧ (Report.result m).opens b.status ∧
        a'.status = .resultRecorded := by
  rcases delivery_cases d i with hsame | ⟨b, b', hb, ho, -, hst, hstored⟩
  · exact .inl ⟨a', hsame ▸ ha', he⟩
  · rw [hstored, OrderedMap.find_insert] at ha'
    split_ifs at ha' with hid
    · obtain rfl := Option.some.inj ha'
      obtain ⟨clk, report⟩ := d
      cases report with
      | ack m =>
        rw [hst] at he
        simp [Report.target, Report.isResult, evident] at he
      | result m => exact .inr ⟨m, b, rfl, hid, hb, ho, hst⟩
    · exact .inl ⟨a', ha', he⟩

/-- **Step.** Only successes are recorded, if no failure is. -/
theorem successful_after (c : Call) {l : Ledger} (hd : Diligent c l) (h : Successful l) : Successful (l.after c) := by
  intro id a' ha' he
  have ha' : (c.after l.impl).state.actions.find id = some a' := ha'
  have hold : (∃ a, l.impl.state.actions.find id = some a ∧ evident a.status = true) → id ∈ (l.after c).succeeded :=
    fun ⟨a, ha, hea⟩ => mem_succeeded_after c l (h id a ha hea)
  cases hr : isReport c.op with
  | false => exact hold (evident_of_quiet c hr ha' he)
  | true =>
    obtain ⟨clk, op⟩ := c
    cases op with
    | recordActionAck m =>
      rcases evident_of_report (d := ⟨clk, .ack m⟩) ha' he with hbefore | ⟨m', b, hm, -⟩
      · exact hold hbefore
      · simp at hm
    | recordActionResult m =>
      rcases evident_of_report (d := ⟨clk, .result m⟩) ha' he with hbefore | ⟨m', b, hm, rfl, hb, ho, hst⟩
      · exact hold hbefore
      · obtain rfl : m = m' := by simpa using hm
        have hopen : isRecorded l.impl m.action = false := by
          rw [isRecorded, show l.impl.state.actions.find m.action = some b from hb.stored, Option.any_some]
          rcases ho with ho | ⟨-, ho⟩ <;> simp [ho]
        have hrecorded : isRecorded ((⟨clk, .recordActionResult m⟩ : Call).after l.impl) m.action = true := by
          rw [isRecorded, ha', Option.any_some, hst]
          rfl
        show m.action ∈ ite _ _ _
        rw [if_pos (by rw [hd b (mem_admitted hb) ho, hopen, hrecorded]; rfl)]
        exact List.mem_cons_self
    | _ => simp [isReport] at hr

/-! ## Runs -/

/-- a verification that answers CONTAINED has every finding passed, every mandatory resource targeted, and a success
recorded for every action -/
def VerdictSound (c : Call) (l : Ledger) : Prop :=
  ∀ g v, c.op = .verifyContainment g → (verifyContainment c.clk g l.impl).result = .ok v → v.outcome = .contained →
    (∀ f ∈ v.findings, f.passed = true) ∧ ∃ record, l.impl.state.containments.find g = some record ∧
      (∀ k ∈ record.mandatory, Targeted l.impl record.actions k) ∧ ∀ id ∈ record.actions, id ∈ l.succeeded

/-- every action of a standing containment has evidence -/
theorem Standing.evident {s : RuntimeSnapshot} {record : ContainmentRecord} {nowMs : UInt64} (h : Standing s record nowMs) :
    ∀ id ∈ record.actions, ∃ a, s.actions.find id = some a ∧ evident a.status = true := by
  have he : (decide (record.actions = []) || decide (evidencedActions s record = record.actions.length)) = true :=
    h.evidenced
  rw [Bool.or_eq_true, decide_eq_true_eq, decide_eq_true_eq, evidencedActions, List.length_filter_eq_length_iff] at he
  intro id hid
  have hany := (he.resolve_left (List.ne_nil_of_mem hid)) id hid
  obtain ⟨a, ha, hst⟩ := (Option.any_eq_true _ _).mp hany
  refine ⟨a, ha, ?_⟩
  simp only [Bool.or_eq_true, decide_eq_true_eq] at hst
  rcases hst with (hst | hst) | hst <;> rw [hst] <;> rfl

/-- what a verification answers -/
theorem verifyContainment_result {clk : Clock} {g : ContainmentGeneration} {i : Impl} {v : ContainmentVerification} :
    (verifyContainment clk g i).result = .ok v ↔ ∃ record, i.state.containments.find g = some record ∧
      containmentIsLive record.status = true ∧ verificationOf i.state record g (clk 0) = v := by
  unfold verifyContainment
  constructor
  · intro hv
    cases hadmitted : admitVerify g i with
    | error e => simp [hadmitted, Step.refuse] at hv
    | ok record =>
      obtain ⟨hfind, hlive⟩ := admitVerify_ok hadmitted
      rw [hadmitted] at hv
      exact ⟨record, hfind, hlive, Except.ok.inj hv⟩
  · rintro ⟨record, hfind, hlive, rfl⟩
    have hadmitted : admitVerify g i = .ok record := by
      unfold admitVerify
      rw [hfind]
      dsimp only
      rw [if_neg (by simp [hlive])]
    rw [hadmitted]
    rfl

/-- **Step.** Under the invariants, a verification that passes over nothing gives a sound verdict. -/
theorem verdictSound (c : Call) {l : Ledger} (hd : Diligent c l) (hc : Covered l.impl) (hs : Successful l) :
    VerdictSound c l := by
  intro g v hop hv hcontained
  obtain ⟨record, hfind, -, rfl⟩ := verifyContainment_result.mp hv
  have hstanding := (contained_iff _ _ _ _).mp hcontained
  have hpassed : PassedOver l.impl.state record := by
    unfold Diligent at hd
    rw [hop] at hd
    exact hd record hfind
  refine ⟨(findings_iff g hstanding).mpr hpassed, record, hfind, hc g record hfind, fun id hid => ?_⟩
  obtain ⟨a, ha, he⟩ := hstanding.evident id hid
  exact hs id a ha he

/-- **CONTAINED is sound** along the runs whose commitments plan for everything, that record no failure, and in which the
findings the ladder passes over hold at every verification. -/
theorem contained_run (calls : List Call) (l : Ledger) (hc : Covered l.impl) (hs : Successful l)
    (h : Runs.Along Ledger.after Diligent calls l) : Runs.Along Ledger.after VerdictSound calls l := by
  have hstep : ∀ (c : Call) (l : Ledger), Diligent c l → Covered l.impl ∧ Successful l →
      Covered (l.after c).impl ∧ Successful (l.after c) := by
    intro c l hd hinv
    refine ⟨covered_after c (fun id expected hop => ?_) hinv.1, successful_after c hd hinv.2⟩
    unfold Diligent at hd
    rwa [hop] at hd
  exact Runs.along_of_inv hstep (fun c l hd hinv => verdictSound c hd hinv.1 hinv.2) h ⟨hc, hs⟩

theorem covered_construct (clk : Clock) (config : Config) : Covered (construct clk config) := by
  intro g c hc
  have hnone : (construct clk config).state.containments.find g = none := OrderedMap.find_empty g
  exact absurd (hnone.symm.trans hc) (by simp)

theorem successful_construct (clk : Clock) (config : Config) : Successful { impl := construct clk config } := by
  intro id a ha
  have hnone : (construct clk config).state.actions.find id = none := OrderedMap.find_empty id
  exact absurd (hnone.symm.trans ha) (by simp)

section Decidable

instance (i : Impl) (count : ℕ) : Decidable (Unused i count) := inferInstanceAs (Decidable (∀ n < count, _))

instance (id : FaultId) (expected : FaultGeneration) (i : Impl) : Decidable (PlansAll id expected i) :=
  inferInstanceAs (Decidable (∀ fault ∈ (admitContainment id expected i).toOption, _))

instance (r : Report) (st : ActionStatus) : Decidable (r.opens st) := inferInstanceAs (Decidable (_ ∨ _))

instance (s : RuntimeSnapshot) (record : ContainmentRecord) : Decidable (PassedOver s record) :=
  decidable_of_iff (authorityRevoked s record = true ∧ (record.unaffected = [] ∨ ∃ k ∈ record.unaffected,
      ∃ r ∈ s.topology.resources.find k, isOperable r.state = true) ∧ radiusIncreased s record = false)
    ⟨fun h => ⟨h.1, h.2.1, h.2.2⟩, fun h => ⟨h.authority, h.operational, h.radius⟩⟩

instance (c : Call) (l : Ledger) : Decidable (Diligent c l) := by
  unfold Diligent
  split <;> infer_instance

end Decidable

/-- a resource fails and is contained, and the containment is verified once its one action has a result -/
def verifying (success : Bool) : List Call := [
  ⟨ticks, .registerResource { id := ⟨5⟩ }⟩,
  ⟨ticks, .publishFault { subject := ⟨5⟩, kind := .processDeath }⟩,
  ⟨ticks, .authorizeContainment ⟨1⟩ {}⟩,
  ⟨ticks, .dispatchBegin ⟨1⟩ true⟩,
  ⟨ticks, .dispatchEnd [({ id := ⟨1⟩ }, .ok [])] {}⟩,
  ⟨ticks, .recordActionResult { action := ⟨1⟩, actionGeneration := ⟨1⟩, epoch := ⟨1⟩, success := success }⟩]

theorem contained_run_verifying :
    Runs.Along Ledger.after VerdictSound (verifying true ++ [⟨ticks, .verifyContainment ⟨1⟩⟩])
      { impl := construct ticks {} } :=
  contained_run _ _ (covered_construct ticks {}) (successful_construct ticks {}) (by decide +kernel)

/-- A failed result leads to CONTAINED all the same. -/
theorem contained_failed :
    ¬ ∀ (clk : Clock) (config : Config) (calls : List Call),
      Runs.Along Ledger.after VerdictSound calls { impl := construct clk config } := by
  intro h
  have hlast := ((Runs.along_append _ VerdictSound (verifying false) [⟨ticks, .verifyContainment ⟨1⟩⟩] _).mp
    (h ticks {} (verifying false ++ [⟨ticks, .verifyContainment ⟨1⟩⟩]))).2.1
  generalize hl : Runs.run Ledger.after (verifying false) { impl := construct ticks {} } = l at hlast
  have hv : ((verifyContainment ticks ⟨1⟩ l.impl).result.toOption).any (fun v => v.outcome = .contained) = true := by
    rw [← hl]
    decide +kernel
  have hactions : ((l.impl.state.containments.find ⟨1⟩).map ContainmentRecord.actions) = some [⟨1⟩] := by
    rw [← hl]
    decide +kernel
  have hsucceeded : l.succeeded = [] := by
    rw [← hl]
    decide +kernel
  obtain ⟨v, hresult, hcontained⟩ := ok_of_toOption_any hv
  obtain ⟨record, hfind, -, hsuccess⟩ := (hlast ⟨1⟩ v rfl hresult (of_decide_eq_true hcontained)).2
  rw [hfind, Option.map_some] at hactions
  have hmem := hsuccess ⟨1⟩ (by rw [Option.some.inj hactions]; exact List.mem_singleton_self _)
  rw [hsucceeded] at hmem
  simp at hmem

end FaultContainment.Verdict
