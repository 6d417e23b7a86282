/-
The states of faults against the states of their containments.

Every write of a fault follows the table of legal transitions. A verification asks the fault to follow its outcome, and skips
the request silently where the table forbids it; a release asks the last containment's fault to be cleared, and skips likewise.
`Admits` and `Clears` are the states before the step in which nothing is skipped that matters.

- `legal_after`: every change of a fault is a legal transition.
- `follows_iff`, `ends_iff`: one verification and one release.
- `agreement_run_iff`: along every run.
- `agreement_withdrawn`: a containment verified as CONTAINED whose fault stays CONTAINMENT_FAILED.
-/
import FaultContainment.Observations
import FaultContainment.Verdict

namespace FaultContainment.Agreement

open FaultContainment.Lib FaultContainment.Ids FaultContainment.Enums FaultContainment.Records
open FaultContainment.DurableEvent FaultContainment.Engine FaultContainment.Dispatching FaultContainment.Containments
open FaultContainment.Observations FaultContainment.Verdict

/-! ## Legal transitions -/

/-- every fault that was stored moved along the table -/
def Legal (i j : Impl) : Prop :=
  ∀ id f f', i.state.faults.find id = some f → j.state.faults.find id = some f' →
    isLegalFaultTransition f.state f'.state = true

theorem legal_revised {i j : Impl} (h : Revised i.state.faults j.state.faults) : Legal i j := by
  intro k f f' hf hf'
  cases h with
  | same h =>
    rw [h, hf] at hf'
    rw [Option.some.inj hf']
    exact legal_refl _
  | rewrite id g g' hfind hg h =>
    rw [h, OrderedMap.find_insert] at hf'
    split_ifs at hf' with hid
    · rw [hid, hf] at hfind
      rw [Option.some.inj hfind, ← Option.some.inj hf']
      exact hg.legal
    · rw [hf] at hf'
      rw [Option.some.inj hf']
      exact legal_refl _

theorem legal_fresh {i j : Impl} {id : FaultId} {g : FaultRecord} (hnew : i.state.faults.find id = none)
    (h : j.state.faults = i.state.faults.insert id g) : Legal i j := by
  intro k f f' hf hf'
  have hne : id ≠ k := by
    rintro rfl
    exact absurd (hnew.symm.trans hf) (by simp)
  rw [h, OrderedMap.find_insert_ne _ _ hne, hf] at hf'
  rw [Option.some.inj hf']
  exact legal_refl _

/-- **Step.** Every change of a fault is a legal transition. -/
theorem legal_after (c : Call) (i : Impl) : Legal i (c.after i) := by
  by_cases hpublish : ∃ evidence, c.op = .publishFault evidence
  · obtain ⟨evidence, hop⟩ := hpublish
    have hrun : c.after i = (publishFault c.clk evidence i).impl := by unfold Call.after; rw [hop]; rfl
    rw [hrun]
    rcases written_publishFault c.clk evidence i with h | ⟨id, f, hnew, h⟩
    · exact legal_revised h
    · exact legal_fresh hnew h
  · exact legal_revised (revised_after c i fun evidence hop => hpublish ⟨evidence, hop⟩)

/-! ## Outcomes -/

/-- the epoch and the policy it was committed under still stand -/
def Enveloped (s : RuntimeSnapshot) (c : ContainmentRecord) : Prop :=
  c.epoch = s.epoch ∧ c.policyGeneration = s.policyGeneration

/-- degraded operation leaves its mandatory resources out -/
def Sheltered (s : RuntimeSnapshot) (c : ContainmentRecord) (nowMs : UInt64) : Prop :=
  degradedSetsAreDisjoint (assessDegradedMode s none {} nowMs) = true ∧
    ∀ k ∈ c.mandatory, idSetContains (assessDegradedMode s none {} nowMs).permitted k = false

/-- a recorded path still carries the failure -/
def Leaks (s : RuntimeSnapshot) (c : ContainmentRecord) : Prop :=
  ∃ hop ∈ c.propagation, hopContinues s (kindOf s c) hop = true

/-- every action has a recorded result -/
def Evidenced (s : RuntimeSnapshot) (c : ContainmentRecord) : Prop :=
  c.actions = [] ∨ evidencedActions s c = c.actions.length

/-- nothing can be concluded -/
def Inconclusive (s : RuntimeSnapshot) (c : ContainmentRecord) (nowMs : UInt64) : Prop :=
  ¬ Enveloped s c ∨ secondaryFailure s c = false ∧ Sheltered s c nowMs ∧ ¬ Leaks s c ∧ ¬ Evidenced s c

/-- degraded operation would use a mandatory resource, and nothing worse happened -/
def Unsheltered (s : RuntimeSnapshot) (c : ContainmentRecord) (nowMs : UInt64) : Prop :=
  Enveloped s c ∧ secondaryFailure s c = false ∧ ¬ Sheltered s c nowMs

/-- everything is in order and every mandatory resource is fenced -/
def Whole (s : RuntimeSnapshot) (c : ContainmentRecord) (nowMs : UInt64) : Prop :=
  Enveloped s c ∧ secondaryFailure s c = false ∧ Sheltered s c nowMs ∧ ¬ Leaks s c ∧ Evidenced s c ∧
    ∀ k ∈ c.mandatory, provenContained s k = true

/-- a second fault inside it, a path that leaks, or not one mandatory resource fenced -/
def Failing (s : RuntimeSnapshot) (c : ContainmentRecord) (nowMs : UInt64) : Prop :=
  Enveloped s c ∧ (secondaryFailure s c = true ∨ Sheltered s c nowMs ∧ (Leaks s c ∨
    Evidenced s c ∧ c.mandatory ≠ [] ∧ ∀ k ∈ c.mandatory, provenContained s k = false))

section Findings

variable (s : RuntimeSnapshot) (c : ContainmentRecord) (nowMs : UInt64)

theorem envelopeCurrent_iff : (runChecks s c nowMs).envelopeCurrent = true ↔ Enveloped s c := by
  show (decide (c.epoch = s.epoch) && decide (c.policyGeneration = s.policyGeneration)) = true ↔ _
  rw [Bool.and_eq_true, decide_eq_true_eq, decide_eq_true_eq]
  rfl

theorem degraded_iff : (runChecks s c nowMs).degradedValid = true ↔ Sheltered s c nowMs := by
  show (degradedSetsAreDisjoint (assessDegradedMode s none {} nowMs) &&
    c.mandatory.all fun k => !idSetContains (assessDegradedMode s none {} nowMs).permitted k) = true ↔ _
  simp only [Bool.and_eq_true, List.all_eq_true, Bool.not_eq_true', Sheltered]

theorem propagationContinued_iff : (runChecks s c nowMs).propagationContinued = true ↔ Leaks s c :=
  List.any_eq_true

theorem actionsEvidenced_iff : (runChecks s c nowMs).actionsEvidenced = true ↔ Evidenced s c := by
  show (decide (c.actions = []) || decide (evidencedActions s c = c.actions.length)) = true ↔ _
  rw [Bool.or_eq_true, decide_eq_true_eq, decide_eq_true_eq]
  rfl

theorem unproven_iff : (runChecks s c nowMs).proven.length = 0 ↔ ∀ k ∈ c.mandatory, provenContained s k = false := by
  show (c.mandatory.filter (provenContained s)).length = 0 ↔ _
  simp only [List.length_eq_zero_iff, List.filter_eq_nil_iff, Bool.not_eq_true]

end Findings

/-- the outcomes that count as failed -/
def failedOutcome : VerificationOutcome → Bool
  | .notContained | .containmentBreached | .secondaryFailureCreated => true
  | _ => false

section Ladder

variable (s : RuntimeSnapshot) (c : ContainmentRecord) (g : ContainmentGeneration) (nowMs : UInt64)

theorem unknown_iff : (verificationOf s c g nowMs).outcome = .outcomeUnknown ↔ Inconclusive s c nowMs := by
  show (concludeChecks c.mandatory.length (runChecks s c nowMs)).1 = _ ↔
    _ ∨ (runChecks s c nowMs).secondaryFailure = false ∧ _
  rw [← envelopeCurrent_iff s c nowMs, ← degraded_iff, ← propagationContinued_iff s c nowMs,
    ← actionsEvidenced_iff s c nowMs]
  unfold concludeChecks
  split_ifs <;> simp_all

theorem invalid_iff : (verificationOf s c g nowMs).outcome = .degradedModeInvalid ↔ Unsheltered s c nowMs := by
  show (concludeChecks c.mandatory.length (runChecks s c nowMs)).1 = _ ↔
    _ ∧ (runChecks s c nowMs).secondaryFailure = false ∧ _
  rw [← envelopeCurrent_iff s c nowMs, ← degraded_iff]
  unfold concludeChecks
  split_ifs <;> simp_all

theorem whole_iff : (verificationOf s c g nowMs).outcome = .contained ↔ Whole s c nowMs := by
  show (concludeChecks c.mandatory.length (runChecks s c nowMs)).1 = _ ↔
    _ ∧ (runChecks s c nowMs).secondaryFailure = false ∧ _
  rw [← envelopeCurrent_iff s c nowMs, ← degraded_iff, ← propagationContinued_iff s c nowMs,
    ← actionsEvidenced_iff s c nowMs, ← proven_length_iff s c nowMs]
  unfold concludeChecks
  split_ifs <;> simp_all

theorem failing_iff : failedOutcome (verificationOf s c g nowMs).outcome = true ↔ Failing s c nowMs := by
  show failedOutcome (concludeChecks c.mandatory.length (runChecks s c nowMs)).1 = _ ↔
    _ ∧ ((runChecks s c nowMs).secondaryFailure = true ∨ _)
  have hempty : c.mandatory ≠ [] ∧ (runChecks s c nowMs).proven.length = 0 ↔
      (runChecks s c nowMs).proven.length ≠ c.mandatory.length ∧ (runChecks s c nowMs).proven.length = 0 := by
    rw [and_congr_left_iff, ne_eq, ← List.length_eq_zero_iff]
    intro h0
    rw [h0, eq_comm]
  rw [← envelopeCurrent_iff s c nowMs, ← degraded_iff, ← propagationContinued_iff s c nowMs,
    ← actionsEvidenced_iff s c nowMs, ← unproven_iff s c nowMs, hempty]
  unfold concludeChecks
  split_ifs <;> simp_all [failedOutcome]

end Ladder

/-! ## The fault after a verification -/

/-- the state of a fault says the outcome of a verification -/
def Follows (o : VerificationOutcome) (state : FaultState) : Prop :=
  (state = .contained ↔ o = .contained) ∧ (state = .containmentPartial ↔ o = .partiallyContained) ∧
    (state = .containmentFailed ↔ failedOutcome o = true)

instance (o : VerificationOutcome) (state : FaultState) : Decidable (Follows o state) :=
  inferInstanceAs (Decidable (_ ∧ _ ∧ _))

/-- the state a verification leaves a fault in -/
def settled (o : VerificationOutcome) (state : FaultState) : FaultState :=
  if isLegalFaultTransition state (faultTarget o) then faultTarget o else state

/-- what a verification may find under a fault in that state -/
def Admits (s : RuntimeSnapshot) (c : ContainmentRecord) (nowMs : UInt64) : FaultState → Prop
  | .superseded => True
  | .containmentRequired | .containmentInProgress | .contained | .containmentPartial => ¬ Unsheltered s c nowMs
  | .containmentFailed => Inconclusive s c nowMs ∨ Failing s c nowMs
  | .revalidationRequired => Inconclusive s c nowMs ∨ Whole s c nowMs
  | .observed | .suspected | .confirmed | .cleared => Inconclusive s c nowMs ∨ Unsheltered s c nowMs

/-- the outcomes the ladder ends in -/
theorem outcome_mem (s : RuntimeSnapshot) (c : ContainmentRecord) (g : ContainmentGeneration) (nowMs : UInt64) :
    (verificationOf s c g nowMs).outcome ∈ [VerificationOutcome.outcomeUnknown, .degradedModeInvalid, .contained,
      .partiallyContained, .notContained, .containmentBreached, .secondaryFailureCreated] := by
  show (concludeChecks c.mandatory.length (runChecks s c nowMs)).1 ∈ _
  unfold concludeChecks
  split_ifs <;> simp

/-- **When the fault follows.** Exactly when what the verification finds can be reached from where the fault stands. -/
theorem follows_iff (s : RuntimeSnapshot) (c : ContainmentRecord) (g : ContainmentGeneration) (nowMs : UInt64)
    (state : FaultState) :
    (settled (verificationOf s c g nowMs).outcome state ≠ .superseded →
      Follows (verificationOf s c g nowMs).outcome (settled (verificationOf s c g nowMs).outcome state)) ↔
      Admits s c nowMs state := by
  have hmem := outcome_mem s c g nowMs
  have hu := unknown_iff s c g nowMs
  have hd := invalid_iff s c g nowMs
  have hw := whole_iff s c g nowMs
  have hf := failing_iff s c g nowMs
  generalize (verificationOf s c g nowMs).outcome = o at *
  cases state
  all_goals
    simp only [Admits, ← hu, ← hd, ← hw, ← hf]
    clear hu hd hw hf
    revert hmem
    revert o
    decide

theorem settleFault_state (time : UInt64) (v : ContainmentVerification) (f : FaultRecord) :
    ((settleFault time v f).getD f).state = settled v.outcome f.state := by
  unfold settleFault settled
  split_ifs <;> rfl

theorem admitVerify_of {g : ContainmentGeneration} {i : Impl} {record : ContainmentRecord}
    (hfind : i.state.containments.find g = some record) (hlive : containmentIsLive record.status = true) :
    admitVerify g i = .ok record := by
  unfold admitVerify
  rw [hfind]
  exact if_neg (not_not.mpr hlive)

/-- the containment and its fault after an admitted verification -/
theorem verified_state (clk : Clock) {g : ContainmentGeneration} {i : Impl} {record : ContainmentRecord}
    (hfind : i.state.containments.find g = some record) (hlive : containmentIsLive record.status = true) :
    (verifyContainment clk g i).impl.state.containments.find g =
        some (withVerification (clk 0) (verificationOf i.state record g (clk 0)) record) ∧
      ∀ f', (verifyContainment clk g i).impl.state.faults.find record.fault = some f' →
        ∃ f, i.state.faults.find record.fault = some f ∧
          f'.state = settled (verificationOf i.state record g (clk 0)).outcome f.state := by
  have hadmitted := admitVerify_of hfind hlive
  constructor
  · have hstored : (verifyContainment clk g i).impl.state.containments = i.state.containments.insert g
        (withVerification (clk 0) (verificationOf i.state record g (clk 0)) record) := by
      unfold verifyContainment
      rw [hadmitted]
      exact stageFault_containments _ _ _
    rw [hstored, OrderedMap.find_insert_self]
  · intro f' hf'
    rw [verifyContainment_faults clk hadmitted] at hf'
    cases hf : i.state.faults.find record.fault with
    | none =>
      rw [editFault, hf, Option.bind_none, Option.elim_none, hf] at hf'
      simp at hf'
    | some f =>
      rw [find_editFault _ _ hf] at hf'
      rw [← Option.some.inj hf', settleFault_state]
      exact ⟨f, rfl, rfl⟩

/-! ## The fault after a release -/

/-- a release can end the fault from there -/
def Clears (state : FaultState) : Prop := isLegalFaultTransition state .cleared = true ∨ state = .superseded

instance (state : FaultState) : Decidable (Clears state) := inferInstanceAs (Decidable (_ ∨ _))

theorem clearFault_current (time : UInt64) (f : FaultRecord) :
    isFaultCurrent ((clearFault time f).getD f).state = false ↔ Clears f.state := by
  unfold clearFault
  split_ifs with hlegal
  · exact iff_of_true rfl (.inl hlegal)
  · rw [Clears, or_iff_right hlegal, Option.getD_none]
    revert hlegal
    cases f.state <;> decide

/-! ## One step -/

/-- the states of faults and containments agree across a step -/
structure Agrees (c : Call) (i : Impl) : Prop where
  legal : Legal i (c.after i)
  follows : ∀ g v, c.op = .verifyContainment g → (verifyContainment c.clk g i).result = .ok v →
    ∀ record, (c.after i).state.containments.find g = some record →
    ∀ f, (c.after i).state.faults.find record.fault = some f → f.state ≠ .superseded → Follows v.outcome f.state
  ends : ∀ g record, (c.after i).state.containments.find g = some record → record.status = .released →
    (∀ before, i.state.containments.find g = some before → before.status ≠ .released) →
    ∀ f, (c.after i).state.faults.find record.fault = some f → isFaultCurrent f.state = false

/-- no transition that matters is skipped -/
structure Aligned (c : Call) (i : Impl) : Prop where
  admits : ∀ g, c.op = .verifyContainment g → ∀ record, i.state.containments.find g = some record →
    containmentIsLive record.status = true → ∀ f, i.state.faults.find record.fault = some f →
    Admits i.state record (c.clk 0) f.state
  clears : ∀ request, c.op = .authorizeRelease request → (assessRelease i.state request).granted = true →
    ∀ record, i.state.containments.find (assessRelease i.state request).containmentGeneration = some record →
    record.status ≠ .released → idSetErase record.mandatory request.resource = [] →
    ∀ f, i.state.faults.find record.fault = some f → Clears f.state

/-- the verification follows exactly when it may -/
theorem follows_after_iff (clk : Clock) (g : ContainmentGeneration) (i : Impl) :
    (∀ v, (verifyContainment clk g i).result = .ok v →
      ∀ record, (verifyContainment clk g i).impl.state.containments.find g = some record →
      ∀ f, (verifyContainment clk g i).impl.state.faults.find record.fault = some f → f.state ≠ .superseded →
        Follows v.outcome f.state) ↔
      ∀ record, i.state.containments.find g = some record → containmentIsLive record.status = true →
        ∀ f, i.state.faults.find record.fault = some f → Admits i.state record (clk 0) f.state := by
  constructor
  · intro h record hfind hlive f hf
    obtain ⟨hstored, -⟩ := verified_state clk hfind hlive
    rw [← follows_iff i.state record g (clk 0), ← settleFault_state (clk 0)]
    refine h _ (verifyContainment_result.mpr ⟨record, hfind, hlive, rfl⟩) _ hstored _ ?_
    show (verifyContainment clk g i).impl.state.faults.find record.fault = _
    rw [verifyContainment_faults clk (admitVerify_of hfind hlive)]
    exact find_editFault _ _ hf
  · intro h v hv stored hstored f' hf' hne
    obtain ⟨record, hfind, hlive, rfl⟩ := verifyContainment_result.mp hv
    obtain ⟨hstored', hfault⟩ := verified_state clk hfind hlive
    obtain rfl := Option.some.inj (hstored.symm.trans hstored')
    obtain ⟨f, hf, hstate⟩ := hfault f' hf'
    rw [hstate] at hne ⊢
    exact (follows_iff i.state record g (clk 0) f.state).mpr (h record hfind hlive f hf) hne

/-- the statuses a containment is committed and verified with -/
theorem statusAfter_ne_released (o : VerificationOutcome) : statusAfter o ≠ .released := by cases o <;> decide

/-- a containment that a release takes a resource off, and its fault -/
theorem released_after (clk : Clock) {request : ReleaseRequest} {i : Impl} {record : ContainmentRecord}
    (hgranted : (assessRelease i.state request).granted = true)
    (hfind : i.state.containments.find (assessRelease i.state request).containmentGeneration = some record)
    (hempty : idSetErase record.mandatory request.resource = []) {f : FaultRecord}
    (hf : i.state.faults.find record.fault = some f) :
    (authorizeRelease clk request i).impl.state.faults.find record.fault = some ((clearFault (clk 3) f).getD f) := by
  rw [authorizeRelease_faults clk hgranted hfind, if_pos hempty]
  exact find_editFault _ _ hf

/-- **When the fault of a released containment ends.** -/
theorem ends_iff (c : Call) (i : Impl) :
    (∀ g record, (c.after i).state.containments.find g = some record → record.status = .released →
      (∀ before, i.state.containments.find g = some before → before.status ≠ .released) →
      ∀ f, (c.after i).state.faults.find record.fault = some f → isFaultCurrent f.state = false) ↔
      ∀ request, c.op = .authorizeRelease request → (assessRelease i.state request).granted = true →
        ∀ record, i.state.containments.find (assessRelease i.state request).containmentGeneration = some record →
        record.status ≠ .released → idSetErase record.mandatory request.resource = [] →
        ∀ f, i.state.faults.find record.fault = some f → Clears f.state := by
  constructor
  · intro h request hop hgranted record hfind hstatus hempty f hf
    have hrun : c.after i = (authorizeRelease c.clk request i).impl := by unfold Call.after; rw [hop]; rfl
    rw [hrun, authorizeRelease_containments c.clk hgranted hfind] at h
    rw [← clearFault_current (c.clk 3)]
    refine h _ _ (OrderedMap.find_insert_self _ _ _) (if_pos hempty) ?_ _ (released_after c.clk hgranted hfind hempty hf)
    intro before hbefore
    rw [hfind] at hbefore
    exact Option.some.inj hbefore ▸ hstatus
  · intro h g record hrecord hreleased hbefore f hf
    have hkept : ¬ i.state.containments.find g = some record := fun hsame => hbefore record hsame hreleased
    cases writes c i with
    | none hc => exact absurd (hc ▸ hrecord) hkept
    | verify g' record' _ hfind _ hc =>
      rw [hc, OrderedMap.find_insert] at hrecord
      split_ifs at hrecord
      · rw [← Option.some.inj hrecord] at hreleased
        exact absurd hreleased (statusAfter_ne_released _)
      · exact absurd hrecord hkept
    | release g' record' request hop hgranted hgeneration hfind hc =>
      rw [hc, OrderedMap.find_insert] at hrecord
      split_ifs at hrecord with hg
      · obtain rfl := Option.some.inj hrecord
        have hstatus : record'.status ≠ .released := hbefore record' (hg ▸ hfind)
        have hempty : idSetErase record'.mandatory request.resource = [] := by
          by_contra hleft
          exact hstatus (by simpa [takeOff, hleft] using hreleased)
        have hrun : c.after i = (authorizeRelease c.clk request i).impl := by unfold Call.after; rw [hop]; rfl
        subst hgeneration
        cases hbeforef : i.state.faults.find record'.fault with
        | none =>
          have hsame : (c.after i).state.faults.find record'.fault = none := by
            rw [hrun, authorizeRelease_faults c.clk hgranted hfind, if_pos hempty, editFault, hbeforef]
            exact hbeforef
          exact absurd (hsame.symm.trans hf) (by simp)
        | some f₀ =>
          have hafter := released_after c.clk hgranted hfind hempty hbeforef
          rw [← hrun] at hafter
          obtain rfl := Option.some.inj (hafter.symm.trans hf)
          exact (clearFault_current (c.clk 3) f₀).mpr (h request hop hgranted record' hfind hstatus hempty f₀ hbeforef)
      · exact absurd hrecord hkept
    | commit id expected fault radius _ _ _ hc =>
      rw [hc, OrderedMap.find_emplace] at hrecord
      split_ifs at hrecord
      · rw [← Option.some.inj hrecord] at hreleased
        simp [committed, newContainment] at hreleased
      · exact absurd hrecord hkept

/-- **Step.** The states agree across a step exactly when no transition that matters is skipped. -/
theorem agrees_iff (c : Call) (i : Impl) : Agrees c i ↔ Aligned c i := by
  constructor
  · intro h
    refine ⟨fun g hop => ?_, (ends_iff c i).mp h.ends⟩
    have hrun : c.after i = (verifyContainment c.clk g i).impl := by unfold Call.after; rw [hop]; rfl
    refine (follows_after_iff c.clk g i).mp fun v hv => ?_
    rw [← hrun]
    exact h.follows g v hop hv
  · intro h
    refine ⟨legal_after c i, fun g v hop hv => ?_, (ends_iff c i).mpr h.clears⟩
    have hrun : c.after i = (verifyContainment c.clk g i).impl := by unfold Call.after; rw [hop]; rfl
    rw [hrun]
    exact (follows_after_iff c.clk g i).mpr (h.admits g hop) v hv

/-- **Agreement.** The states of faults and containments agree across every step of a run exactly when no transition that
matters is skipped on the way. -/
theorem agreement_run_iff (calls : List Call) (i : Impl) :
    Runs.Along Call.after Agrees calls i ↔ Runs.Along Call.after Aligned calls i :=
  Runs.along_congr agrees_iff calls i

/-- a second fault fails a containment that was verified, and is withdrawn again -/
def withdrawn : List Call := verifying true ++ [
  ⟨ticks, .verifyContainment ⟨1⟩⟩,
  ⟨ticks, .publishFault { subject := ⟨5⟩, kind := .deviceReset }⟩,
  ⟨ticks, .verifyContainment ⟨1⟩⟩,
  ⟨ticks, .supersedeFault ⟨2⟩ ⟨1⟩ []⟩]

/-- Verified once more, the containment is CONTAINED and its fault stays CONTAINMENT_FAILED. -/
theorem agreement_withdrawn :
    ¬ ∀ (clk : Clock) (config : Config) (calls : List Call), Runs.Along Call.after Agrees calls (construct clk config) := by
  intro h
  have hlast := ((Runs.along_append _ Agrees withdrawn [⟨ticks, .verifyContainment ⟨1⟩⟩] _).mp
    (h ticks {} (withdrawn ++ [⟨ticks, .verifyContainment ⟨1⟩⟩]))).2.1
  generalize hi : Runs.run Call.after withdrawn (construct ticks {}) = i at hlast
  have houtcome : (verifyContainment ticks ⟨1⟩ i).result.toOption.any (fun v => v.outcome = .contained) = true := by
    rw [← hi]
    decide +kernel
  have hrecord : ((verifyContainment ticks ⟨1⟩ i).impl.state.containments.find ⟨1⟩).map ContainmentRecord.fault =
      some ⟨1⟩ := by
    rw [← hi]
    decide +kernel
  have hstate : ((verifyContainment ticks ⟨1⟩ i).impl.state.faults.find ⟨1⟩).map FaultRecord.state =
      some .containmentFailed := by
    rw [← hi]
    decide +kernel
  obtain ⟨record, hfind, hfault⟩ := Option.map_eq_some_iff.mp hrecord
  obtain ⟨f, hf, hfailed⟩ := Option.map_eq_some_iff.mp hstate
  obtain ⟨v, hresult, hcontained⟩ := ok_of_toOption_any houtcome
  have hfollows := (hlast.follows ⟨1⟩ v rfl hresult record hfind f (hfault ▸ hf) (by simp [hfailed])).1
  rw [hfailed, of_decide_eq_true hcontained] at hfollows
  exact absurd hfollows (by decide)

end FaultContainment.Agreement
