/-
The control request `publish-fault`.

An operator's report carries no time and always the same sequence number, so that the same kind, subject and details make the
same observation every time. Only a conflict over the fault identity leads to a second attempt with a new sequence number; an
observation that is already indexed is counted on its fault, whatever has become of that fault.

- `published_live_iff`: when the fault a report is answered with is current, the one reported, and can be contained.
- `reports_live_iff`: so for the loop, and `publishFault_live_iff` for the request, in every state a run reaches.
- `publishFault_cleared`: a report answered with a fault that was contained, released and cleared.
-/
import FaultContainment.Admission
import FaultContainment.Coordinator

namespace FaultContainment.OperatorReports

open FaultContainment.Lib FaultContainment.Ids FaultContainment.Enums FaultContainment.Records
open FaultContainment.Engine FaultContainment.Dispatching FaultContainment.Protocol FaultContainment.Coordinator
open FaultContainment.Observations FaultContainment.Admission

/-! ## The request -/

/-- the identity, kind, subject and details `publish-fault` is about -/
def faultArguments : List Text → Except ControlResponse FaultEvidence
  | id :: kind :: subject :: rest =>
    match parseIdArgument .faultId id, parseIdArgument .resourceId subject with
    | some id, some subject =>
      match parseCoded FaultKind kind with
      | some kind => .ok { id := id, kind := kind, subject := subject, details := rest.headD [] }
      | none => .error (failure .invalidArgument (lit "publish-fault: bad fault kind"))
    | _, _ => .error (failure .invalidId (lit "publish-fault: bad identity argument"))
  | _ => .error (failure .invalidArgument (lit "publish-fault <id> <kind> <subject> [details]"))

/-- the observation an operator reports -/
def operatorEvidence (epoch : CoordinatorEpoch) (request : FaultEvidence) : FaultEvidence :=
  { request with
    reporterKind := .operator, epoch := epoch, provenance := .operator, observationSequence := ⟨1⟩
    publicationTimeMs := 0, freshness := .fresh, integrity := .verified, confidencePermille := 1000 }

/-- one more than the highest sequence number observed of that kind on that subject -/
def nextObservation (s : RuntimeSnapshot) (evidence : FaultEvidence) : EvidenceSequence :=
  ⟨s.faults.vals.foldl (fun highest f =>
    if f.evidence.subject = evidence.subject ∧ f.evidence.kind = evidence.kind then
      max highest f.evidence.observationSequence.value
    else highest) 0 + 1⟩

/-- the `duplicate` flag of a publication -/
def isDuplicate (evidence : FaultEvidence) (i : Impl) : Bool :=
  decide (Accepted evidence i) && i.faultByDigest.has (normalizeEvidence evidence i).digest

/-- how reports are made: what a report does, and what a retry starts from -/
structure Reporting (ρ σ : Type) where
  publish : ρ → FaultEvidence → σ → σ × Except Error (FaultRecord × Bool)
  retry : ρ → FaultEvidence → σ → FaultEvidence × σ

/-- the loop of `publish-fault`: a report, and after a conflict another with a new sequence number, while there are rounds -/
def Reporting.loop {ρ σ : Type} (p : Reporting ρ σ) :
    List ρ → ρ → FaultEvidence → EvidenceSequence → σ → Option (σ × Except Error (FaultRecord × Bool))
  | rounds, round, evidence, sequence, s =>
    let published := p.publish round evidence s
    match published.2 with
    | .ok answer => some (published.1, .ok answer)
    | .error e =>
      if e.code = .duplicateConflict ∧ ¬ sequence.valid then
        match rounds with
        | [] => none
        | round :: rounds =>
          let next := p.retry round evidence published.1
          p.loop rounds round next.1 next.1.observationSequence next.2
      else some (published.1, .error e)

/-- the clock of a report, and what other threads do before the snapshot of a retry is taken and after it -/
structure Round where
  clk : Clock
  early : List Call := []
  late : List Call := []

/-- the evidence of a retry, from the snapshot taken after the report in the state `i` -/
def Round.evidence (round : Round) (evidence : FaultEvidence) (i : Impl) : FaultEvidence :=
  { evidence with observationSequence := nextObservation (Runs.run Call.after round.early i).state evidence }

/-- the state a retry is made in -/
def Round.state (round : Round) (i : Impl) : Impl := Runs.run Call.after round.late (Runs.run Call.after round.early i)

/-- reports to an engine -/
def engineReports : Reporting Round Impl where
  publish round evidence i :=
    let published := publishFault round.clk evidence i
    (published.impl, published.result.map fun f => (f, isDuplicate evidence i))
  retry round evidence i := (round.evidence evidence i, round.state i)

/-- `publish-fault`; the epoch is read before the first report, and nothing is answered while a retry is due -/
def publishFaultRequest (clk : Clock) (args : List Text) (epoch : CoordinatorEpoch) (rounds : List Round) (i : Impl) :
    Option (Impl × Except ControlResponse (FaultRecord × Bool)) :=
  match faultArguments args with
  | .error response => some (i, .error response)
  | .ok request => (engineReports.loop rounds { clk := clk } (operatorEvidence epoch request) {} i).map fun answer =>
      (answer.1, answer.2.mapError fun e => failure e.code (errorText e))

/-- the response that is sent -/
def respondFault : Except ControlResponse (FaultRecord × Bool) → ControlResponse
  | .ok (f, duplicate) => { ok := true, lines := [lit "fault=" ++ f.evidence.id.text,
      lit "fault_generation=" ++ f.evidence.generation.text, lit "duplicate=" ++ lit (if duplicate then "1" else "0"),
      lit "state=" ++ Coded.name f.state] }
  | .error response => response

/-! ## One report -/

/-- the stored fault of that name is current, of the requested kind and on the requested subject, and is contained on request -/
def Live (request : FaultEvidence) (i : Impl) (id : FaultId) : Prop :=
  ∃ f, i.state.faults.find id = some f ∧ isFaultCurrent f.state = true ∧ f.evidence.kind = request.kind ∧
    f.evidence.subject = request.subject ∧
      ∀ clk, (authorizeContainment clk id f.evidence.generation i).result.isOk = true

/-- An accepted report that is not refused is about what can be contained: within the budget, and either counted on a fault of its
kind and subject that is ready, or new and of a kind that requires containment. -/
def Effective (evidence : FaultEvidence) (i : Impl) : Prop :=
  Accepted evidence i →
    match i.faultByDigest.find (normalizeEvidence evidence i).digest with
    | some id => ∀ f ∈ i.state.faults.find id, f.evidence.kind = evidence.kind ∧ f.evidence.subject = evidence.subject ∧
        Ready i.state.containments f ∧ WithinBudget i.state.topology i.state.policy evidence.kind evidence.subject
    | none => admitFault (normalizeEvidence evidence i) i = .ok () →
        (i.state.policy.ruleFor evidence.kind).mandatoryContainment = true ∧
          WithinBudget i.state.topology i.state.policy evidence.kind evidence.subject

/-- the observation is new, and its identity is taken -/
structure Conflicts (evidence : FaultEvidence) (i : Impl) : Prop where
  accepted : Accepted evidence i
  unknown : i.faultByDigest.find (normalizeEvidence evidence i).digest = none
  taken : i.state.faults.has (normalizeEvidence evidence i).id = true

theorem admitFault_conflict_iff {evidence : FaultEvidence} {i : Impl} {e : Error}
    (h : admitFault evidence i = .error e) : e.code = .duplicateConflict ↔ i.state.faults.has evidence.id = true := by
  unfold admitFault at h
  split_ifs at h with htaken
  · rw [← Except.error.inj h]
    exact iff_of_true rfl htaken
  · rw [← Except.error.inj h]
    exact iff_of_false (by simp [makeError]) htaken
  · rw [← Except.error.inj h]
    exact iff_of_false (by simp [makeError]) htaken

/-- a publication ends in a conflict exactly when the observation is new and its identity is taken -/
theorem publishFault_conflict_iff (clk : Clock) (evidence : FaultEvidence) (i : Impl) :
    (∃ e, (publishFault clk evidence i).result = .error e ∧ e.code = .duplicateConflict) ↔ Conflicts evidence i := by
  cases publishFault_cases clk evidence i with
  | rejected j e haccepted he _ hstep =>
    rw [hstep]
    refine iff_of_false ?_ fun hc => haccepted hc.accepted
    rintro ⟨e', he', hcode⟩
    exact he (Except.error.inj he' ▸ hcode)
  | duplicate id _ hknown hstep =>
    rw [hstep]
    refine iff_of_false ?_ fun hc => ?_
    · rintro ⟨e, he, -⟩
      simp [countDuplicate] at he
    · exact absurd (hc.unknown.symm.trans hknown) (by simp)
  | refused e haccepted hknown hadmitted hstep =>
    rw [hstep]
    have hcode := admitFault_conflict_iff hadmitted
    constructor
    · rintro ⟨e', he', hconflict⟩
      obtain rfl := Except.error.inj he'
      exact ⟨haccepted, hknown, hcode.mp hconflict⟩
    · intro hc
      exact ⟨e, rfl, hcode.mpr hc.taken⟩
  | fresh _ _ hadmitted hstep =>
    rw [hstep]
    refine iff_of_false ?_ fun hc => ?_
    · rintro ⟨e, he, -⟩
      simp [storeFault, commit] at he
    · unfold admitFault at hadmitted
      rw [if_pos hc.taken] at hadmitted
      simp at hadmitted

/-- a new fault is current -/
theorem newFault_current (time : UInt64) (evidence : FaultEvidence) (policy : ContainmentPolicy) :
    isFaultCurrent (newFault time evidence policy).state = true := by
  unfold newFault
  dsimp only
  split_ifs <;> rfl

/-- what a stored fault has to be for an answer that names it -/
theorem live_iff {request : FaultEvidence} {i : Impl} {id : FaultId} {f : FaultRecord} (hf : i.state.faults.find id = some f) :
    Live request i id ↔ f.evidence.kind = request.kind ∧ f.evidence.subject = request.subject ∧ Ready i.state.containments f ∧
      WithinBudget i.state.topology i.state.policy request.kind request.subject := by
  constructor
  · rintro ⟨f', hf', -, hkind, hsubject, hcontained⟩
    obtain rfl := Option.some.inj (hf.symm.trans hf')
    obtain ⟨hready, hbudget⟩ := (admitted_iff hf).mp ((authorizeContainment_isOk_iff ticks _ _ _).mp (hcontained ticks))
    rw [hkind, hsubject] at hbudget
    exact ⟨hkind, hsubject, hready, hbudget⟩
  · rintro ⟨hkind, hsubject, hready, hbudget⟩
    rw [← hkind, ← hsubject] at hbudget
    exact ⟨f, hf, hready.current, hkind, hsubject, fun clk =>
      (authorizeContainment_isOk_iff clk _ _ _).mpr ((admitted_iff hf).mpr ⟨hready, hbudget⟩)⟩

/-- **One report.** The fault it is answered with is live exactly when the report is effective. -/
theorem published_live_iff (clk : Clock) (evidence : FaultEvidence) {i : Impl} (h : Cataloged i) :
    (∀ f, (publishFault clk evidence i).result = .ok f →
      Live evidence (publishFault clk evidence i).impl f.evidence.id) ↔ Effective evidence i := by
  obtain ⟨hstate, hdigest⟩ := allocateFault_reads evidence i
  obtain ⟨htopology, hpolicy, hcontainments⟩ := publishFault_frame clk evidence i
  unfold Effective
  cases publishFault_cases clk evidence i with
  | rejected j e haccepted _ _ hstep =>
    rw [hstep]
    exact iff_of_true (fun f hf => by simp [Step.refuse] at hf) fun ha => absurd ha haccepted
  | refused e haccepted hknown hadmitted hstep =>
    rw [hstep, hknown]
    exact iff_of_true (fun f hf => by simp [Step.refuse] at hf) fun _ hok => absurd (hadmitted.symm.trans hok) (by simp)
  | duplicate id haccepted hknown hstep =>
    obtain ⟨f, hf, -⟩ := h.stored _ id hknown
    have hid : f.evidence.id = id := h.keyed id f hf
    have hf' : (allocateFault evidence i).state.faults.find id = some f := by rw [hstate]; exact hf
    obtain ⟨-, hfind, hresult⟩ := revised_countDuplicate clk hf'
    rw [← hstep] at hfind hresult
    have hlive := @live_iff evidence _ id _ hfind
    rw [htopology, hpolicy, hcontainments, ready_counted] at hlive
    rw [hknown, hresult]
    simp only [haccepted, true_implies, hf, Option.mem_def, Option.some.injEq, forall_eq']
    rw [← hlive, ← hid]
    constructor
    · exact fun hall => hall { f with duplicateCount := f.duplicateCount + 1, lastUpdatedMs := clk 0 } rfl
    · intro hlive g hg
      obtain rfl := Except.ok.inj hg
      exact hlive
  | fresh haccepted hknown hadmitted hstep =>
    have hadmitted' := hadmitted
    rw [← admitFault_allocate _ evidence] at hadmitted'
    obtain ⟨-, hfaults, -, hresult⟩ := storeFault_stored clk hadmitted'
    rw [hstate] at hfaults hresult
    rw [← hstep] at hfaults hresult
    have hfind : (publishFault clk evidence i).impl.state.faults.find (normalizeEvidence evidence i).id =
        some (newFault (clk 0) (normalizeEvidence evidence i) i.state.policy) := by
      rw [hfaults]
      exact OrderedMap.find_insert_self _ _ _
    have hlive := @live_iff evidence _ _ _ hfind
    rw [htopology, hpolicy, ready_new] at hlive
    rw [hknown, hresult]
    simp only [haccepted, hadmitted, true_implies]
    refine ⟨fun hall => ?_, fun hrequired f hf => ?_⟩
    · exact (hlive.mp (hall _ rfl)).2.2
    · obtain rfl := Except.ok.inj hf
      exact hlive.mpr ⟨rfl, rfl, hrequired⟩

instance decidableEffective (evidence : FaultEvidence) (i : Impl) : Decidable (Effective evidence i) :=
  match h : i.faultByDigest.find (normalizeEvidence evidence i).digest with
  | some id => decidable_of_iff (Accepted evidence i → ∀ f ∈ i.state.faults.find id, f.evidence.kind = evidence.kind ∧
      f.evidence.subject = evidence.subject ∧ Ready i.state.containments f ∧
      WithinBudget i.state.topology i.state.policy evidence.kind evidence.subject) <| by
    unfold Effective
    rw [h]
  | none => decidable_of_iff (Accepted evidence i → (admitFault (normalizeEvidence evidence i) i).isOk = true →
      (i.state.policy.ruleFor evidence.kind).mandatoryContainment = true ∧
        WithinBudget i.state.topology i.state.policy evidence.kind evidence.subject) <| by
    unfold Effective
    rw [h]
    cases admitFault (normalizeEvidence evidence i) i with
    | error e => simp [Except.isOk, Except.toBool]
    | ok _ => simp [Except.isOk, Except.toBool]

/-! ## The loop -/

section Loop

variable {ρ σ : Type} {p : Reporting ρ σ} {rounds : List ρ} {round : ρ} {evidence : FaultEvidence}
  {sequence : EvidenceSequence} {s : σ}

/-- the report ends in a conflict and was not numbered -/
def Reporting.GoesOn (p : Reporting ρ σ) (round : ρ) (evidence : FaultEvidence) (sequence : EvidenceSequence) (s : σ) :
    Prop :=
  (∃ e, (p.publish round evidence s).2 = .error e ∧ e.code = .duplicateConflict) ∧ sequence.valid = false

/-- a report that is not retried ends the loop -/
theorem Reporting.loop_ends (h : ¬ p.GoesOn round evidence sequence s) :
    p.loop rounds round evidence sequence s = some (p.publish round evidence s) := by
  unfold Reporting.loop
  dsimp only
  cases hresult : (p.publish round evidence s).2 with
  | ok answer =>
    dsimp only
    rw [← hresult]
  | error e =>
    dsimp only
    rw [if_neg ?_, ← hresult]
    rintro ⟨hcode, hsequence⟩
    exact h ⟨⟨e, hresult, hcode⟩, Bool.eq_false_of_not_eq_true hsequence⟩

/-- one that is retried is followed by another, if there is a round -/
theorem Reporting.loop_next (h : p.GoesOn round evidence sequence s) :
    p.loop rounds round evidence sequence s =
      match rounds with
      | [] => none
      | next :: rounds =>
        p.loop rounds next (p.retry next evidence (p.publish round evidence s).1).1
          (p.retry next evidence (p.publish round evidence s).1).1.observationSequence
          (p.retry next evidence (p.publish round evidence s).1).2 := by
  obtain ⟨⟨e, hresult, hcode⟩, hsequence⟩ := h
  conv_lhs => unfold Reporting.loop
  dsimp only
  rw [hresult]
  dsimp only
  rw [if_pos ⟨hcode, by rw [hsequence]; exact Bool.false_ne_true⟩]

end Loop

/-- no report of the loop is without effect; another follows only a conflict -/
def EachEffective : List Round → Round → FaultEvidence → EvidenceSequence → Impl → Prop
  | [], _, evidence, _, i => Effective evidence i
  | next :: rounds, round, evidence, sequence, i => Effective evidence i ∧
      (Conflicts evidence i → sequence.valid = false →
        let j := (publishFault round.clk evidence i).impl
        EachEffective rounds next (next.evidence evidence j) (next.evidence evidence j).observationSequence (next.state j))

/-- a conflict is no publication -/
theorem Conflicts.effective {evidence : FaultEvidence} {i : Impl} (h : Conflicts evidence i) : Effective evidence i := by
  intro _
  rw [h.unknown]
  intro hadmitted
  unfold admitFault at hadmitted
  rw [if_pos h.taken] at hadmitted
  cases hadmitted

theorem goesOn_iff (round : Round) (evidence : FaultEvidence) (sequence : EvidenceSequence) (i : Impl) :
    engineReports.GoesOn round evidence sequence i ↔ Conflicts evidence i ∧ sequence.valid = false := by
  rw [← publishFault_conflict_iff round.clk evidence i]
  refine and_congr_left fun _ => ?_
  show (∃ e, (publishFault round.clk evidence i).result.map _ = .error e ∧ _) ↔ _
  cases (publishFault round.clk evidence i).result with
  | error e => simp [Except.map]
  | ok f => simp [Except.map]

/-- a report that is not retried -/
theorem last_live_iff (rounds : List Round) {round : Round} {evidence : FaultEvidence} {sequence : EvidenceSequence}
    {i : Impl} (h : Cataloged i) (hlast : ¬ engineReports.GoesOn round evidence sequence i) :
    (∀ j f duplicate, engineReports.loop rounds round evidence sequence i = some (j, .ok (f, duplicate)) →
      Live evidence j f.evidence.id) ↔ Effective evidence i := by
  rw [Reporting.loop_ends hlast, ← published_live_iff round.clk evidence h]
  constructor
  · intro hlive f hf
    exact hlive _ f (isDuplicate evidence i) (by simp only [engineReports, hf]; rfl)
  · intro hlive j f duplicate hj
    cases hresult : (publishFault round.clk evidence i).result with
    | error e => simp [engineReports, hresult, Except.map] at hj
    | ok g =>
      simp only [engineReports, hresult, Except.map, Option.some.injEq, Prod.mk.injEq, Except.ok.injEq] at hj
      obtain ⟨rfl, rfl, -⟩ := hj
      exact hlive g hresult

/-- **The loop.** The fault it is answered with is live exactly when each report on the way is effective. -/
theorem reports_live_iff (rounds : List Round) (round : Round) (evidence : FaultEvidence) (sequence : EvidenceSequence)
    {i : Impl} (h : Cataloged i) :
    (∀ j f duplicate, engineReports.loop rounds round evidence sequence i = some (j, .ok (f, duplicate)) →
      Live evidence j f.evidence.id) ↔ EachEffective rounds round evidence sequence i := by
  induction rounds generalizing round evidence sequence i with
  | nil =>
    by_cases hretry : engineReports.GoesOn round evidence sequence i
    · refine iff_of_true (fun j f duplicate hj => ?_) ((goesOn_iff _ _ _ _).mp hretry).1.effective
      rw [Reporting.loop_next hretry] at hj
      cases hj
    · exact last_live_iff [] h hretry
  | cons next rounds ih =>
    by_cases hretry : engineReports.GoesOn round evidence sequence i
    · obtain ⟨hconflict, hsequence⟩ := (goesOn_iff _ _ _ _).mp hretry
      have hcataloged : Cataloged (next.state (publishFault round.clk evidence i).impl) :=
        cataloged_run next.late (cataloged_run next.early (cataloged_publishFault round.clk evidence h))
      have hnext := ih next (next.evidence evidence (publishFault round.clk evidence i).impl)
        (next.evidence evidence (publishFault round.clk evidence i).impl).observationSequence hcataloged
      rw [Reporting.loop_next hretry]
      exact hnext.trans ⟨fun hrest => ⟨hconflict.effective, fun _ _ => hrest⟩, fun hall => hall.2 hconflict hsequence⟩
    · refine (last_live_iff (next :: rounds) h hretry).trans ⟨fun he => ⟨he, fun hc hs => ?_⟩, fun hall => hall.1⟩
      exact absurd ((goesOn_iff _ _ _ _).mpr ⟨hc, hs⟩) hretry

/-! ## The request in a run -/

/-- the fault of a successful answer is current, the one requested, and is contained on request -/
def AnsweredLive (clk : Clock) (args : List Text) (epoch : CoordinatorEpoch) (rounds : List Round) (i : Impl) : Prop :=
  ∀ j f duplicate, publishFaultRequest clk args epoch rounds i = some (j, .ok (f, duplicate)) →
    ∃ request, faultArguments args = .ok request ∧ Live request j f.evidence.id

/-- each report of the request is effective -/
def RequestEffective (clk : Clock) (args : List Text) (epoch : CoordinatorEpoch) (rounds : List Round) (i : Impl) : Prop :=
  ∀ request, faultArguments args = .ok request →
    EachEffective rounds { clk := clk } (operatorEvidence epoch request) {} i

theorem answeredLive_iff (clk : Clock) (args : List Text) (epoch : CoordinatorEpoch) (rounds : List Round) {i : Impl}
    (h : Cataloged i) : AnsweredLive clk args epoch rounds i ↔ RequestEffective clk args epoch rounds i := by
  unfold AnsweredLive RequestEffective publishFaultRequest
  cases faultArguments args with
  | error response =>
    refine iff_of_true (fun j f duplicate hj => ?_) fun request hrequest => absurd hrequest (by simp)
    simp at hj
  | ok request =>
    dsimp only
    have hloop := reports_live_iff rounds { clk := clk } (operatorEvidence epoch request) {} h
    constructor
    · rintro hlive request' hrequest
      obtain rfl := Except.ok.inj hrequest
      refine hloop.mp fun j f duplicate hj => ?_
      obtain ⟨request', hrequest', hf⟩ := hlive j f duplicate (by rw [hj]; rfl)
      obtain rfl := Except.ok.inj hrequest'
      exact hf
    · intro heffective j f duplicate hj
      refine ⟨request, rfl, ?_⟩
      obtain ⟨⟨k, answer⟩, hanswer, hmapped⟩ := Option.map_eq_some_iff.mp hj
      cases answer with
      | error e => simp [Except.mapError] at hmapped
      | ok answer =>
        simp only [Except.mapError, Prod.mk.injEq, Except.ok.injEq] at hmapped
        obtain ⟨rfl, rfl⟩ := hmapped
        exact hloop.mpr (heffective request rfl) k f duplicate hanswer

/-- **Reports.** In every state a run reaches, from a new engine or after a recovery, the fault a `publish-fault` request is
answered with is current, the one reported, and contained on request, exactly when each report of the request is effective. -/
theorem publishFault_live_iff (start : Start) (hstart : start.succeeds) (calls : List Call) (clk : Clock) (args : List Text)
    (epoch : CoordinatorEpoch) (rounds : List Round) :
    AnsweredLive clk args epoch rounds (Runs.run Call.after calls start.impl) ↔
      RequestEffective clk args epoch rounds (Runs.run Call.after calls start.impl) :=
  answeredLive_iff clk args epoch rounds (cataloged_run calls (cataloged_start start hstart))

/-- an operator reports the death of the process of resource 5 -/
def deathReport : List Text := [lit "0", lit "PROCESS_DEATH", lit "5"]

/-- the report is contained, verified and released again -/
def cleared : List Call := [
  ⟨ticks, .registerResource { id := ⟨5⟩, state := .active, freshness := .fresh }⟩,
  ⟨ticks, .publishFault (operatorEvidence ⟨1⟩ { subject := ⟨5⟩, kind := .processDeath })⟩,
  ⟨ticks, .authorizeContainment ⟨1⟩ {}⟩,
  ⟨ticks, .dispatchBegin ⟨1⟩ true⟩,
  ⟨ticks, .dispatchEnd [({ id := ⟨1⟩ }, .ok [])] {}⟩,
  ⟨ticks, .recordActionResult { action := ⟨1⟩, actionGeneration := ⟨1⟩, epoch := ⟨1⟩, success := true }⟩,
  ⟨ticks, .verifyContainment ⟨1⟩⟩,
  ⟨ticks, .authorizeRelease { resource := ⟨5⟩, authority := lit "operator" }⟩]

/-- while its containment is still to come, the report is counted on the same fault -/
theorem publishFault_live_iff_repeated :
    AnsweredLive ticks deathReport ⟨1⟩ [] (Runs.run Call.after (cleared.take 2) (construct ticks {})) := by
  refine (publishFault_live_iff (.fresh ticks {}) trivial (cleared.take 2) ticks deathReport ⟨1⟩ []).mpr
    fun request hrequest => ?_
  have hread : faultArguments deathReport = .ok { subject := ⟨5⟩, kind := .processDeath } := by rfl
  obtain rfl := Except.ok.inj (hread.symm.trans hrequest)
  show Effective _ _
  decide +kernel

/-- The same report once more is answered with the fault that was cleared. -/
theorem publishFault_cleared :
    ¬ ∀ (start : Start) (calls : List Call) (clk : Clock) (args : List Text) (epoch : CoordinatorEpoch)
      (rounds : List Round), start.succeeds →
      AnsweredLive clk args epoch rounds (Runs.run Call.after calls start.impl) := by
  intro h
  have hlive := h (.fresh ticks {}) cleared ticks deathReport ⟨1⟩ [] trivial
  generalize hi : Runs.run Call.after cleared (Start.impl (.fresh ticks {})) = i at hlive
  have hanswer : (publishFaultRequest ticks deathReport ⟨1⟩ [] i).any (fun answer =>
      answer.2.toOption.any (fun f => f.1.evidence.id = ⟨1⟩) &&
        (answer.1.state.faults.find ⟨1⟩).any fun f => !isFaultCurrent f.state) = true := by
    rw [← hi]
    decide +kernel
  cases hj : publishFaultRequest ticks deathReport ⟨1⟩ [] i with
  | none => simp [hj] at hanswer
  | some answered =>
    obtain ⟨j, answer⟩ := answered
    rw [hj, Option.any_some] at hanswer
    cases answer with
    | error response => simp [Except.toOption] at hanswer
    | ok answer =>
      obtain ⟨f, duplicate⟩ := answer
      simp only [Except.toOption, Option.any_some, Bool.and_eq_true, decide_eq_true_eq] at hanswer
      obtain ⟨request, -, g, hg, hcurrent, -⟩ := hlive j f duplicate hj
      rw [hanswer.1] at hg
      rw [hg, Option.any_some, hcurrent] at hanswer
      exact absurd hanswer.2 (by decide)

end FaultContainment.OperatorReports
