/-
The faults of the engine, and the index of their digests.

An operation leaves the faults alone, rewrites one of them, or stores a new one; only `publish_fault` stores, and only it
touches the index. Every entry of the index names a stored fault with that digest, also after a recovery, which builds the
index from the faults it has read.

- `revised_after`, `written_publishFault`: the ways an operation writes a fault.
- `publishFault_cases`: everything `publish_fault` can do.
- `cataloged_start`, `cataloged_after`: the index names stored faults, in every run.
-/
import FaultContainment.Containments

namespace FaultContainment.Observations

open FaultContainment.Lib FaultContainment.Ids FaultContainment.Enums FaultContainment.Records
open FaultContainment.DurableEvent FaultContainment.Engine FaultContainment.Dispatching FaultContainment.Containments

/-! ## Rewritten faults -/

/-- a stored fault rewritten: a legal transition, first seen when it was, and of its evidence nothing but the generation
changes -/
structure Rewritten (f f' : FaultRecord) : Prop where
  legal : isLegalFaultTransition f.state f'.state = true
  seen : f'.firstSeenMs = f.firstSeenMs
  evidence : { f'.evidence with generation := f.evidence.generation } = f.evidence

/-- the same faults, or one of them rewritten -/
inductive Revised (m m' : OrderedMap FaultId FaultRecord) : Prop where
  | same (h : m' = m)
  | rewrite (id : FaultId) (f f' : FaultRecord) (hfind : m.find id = some f) (hf : Rewritten f f')
      (h : m' = m.insert id f')

theorem legal_refl (s : FaultState) : isLegalFaultTransition s s = true := by cases s <;> rfl

/-- the faults with one of them edited in place, or left alone -/
def editFault (edit : FaultRecord → Option FaultRecord) (id : FaultId) (m : OrderedMap FaultId FaultRecord) :
    OrderedMap FaultId FaultRecord :=
  ((m.find id).bind edit).elim m (m.insert id)

theorem find_editFault (edit : FaultRecord → Option FaultRecord) (id : FaultId) {m : OrderedMap FaultId FaultRecord}
    {f : FaultRecord} (h : m.find id = some f) : (editFault edit id m).find id = some ((edit f).getD f) := by
  unfold editFault
  rw [h, Option.bind_some]
  cases edit f with
  | none => exact h
  | some f' => exact OrderedMap.find_insert_self _ _ _

theorem stageFault_faults (id : FaultId) (f : Option FaultRecord) (i : Impl) :
    (stageFault id f i).1.state.faults = f.elim i.state.faults (i.state.faults.insert id) := by
  cases f <;> rfl

theorem revised_editFault (edit : FaultRecord → Option FaultRecord)
    (hedit : ∀ f f', edit f = some f' → Rewritten f f') (id : FaultId) (m : OrderedMap FaultId FaultRecord) :
    Revised m (editFault edit id m) := by
  unfold editFault
  cases hf : (m.find id).bind edit with
  | none => exact .same rfl
  | some f' =>
    obtain ⟨f, hfind, hfound⟩ := Option.bind_eq_some_iff.mp hf
    exact .rewrite id f f' hfind (hedit f f' hfound) rfl

theorem rewritten_settleFault {time : UInt64} {v : ContainmentVerification} {f f' : FaultRecord}
    (h : settleFault time v f = some f') : Rewritten f f' := by
  unfold settleFault at h
  split_ifs at h with hlegal
  rw [← Option.some.inj h]
  exact ⟨hlegal, rfl, rfl⟩

theorem rewritten_clearFault {time : UInt64} {f f' : FaultRecord} (h : clearFault time f = some f') :
    Rewritten f f' := by
  unfold clearFault at h
  split_ifs at h with hlegal
  rw [← Option.some.inj h]
  exact ⟨hlegal, rfl, rfl⟩

theorem revised_supersedeFault (clk : Clock) (id : FaultId) (expected : FaultGeneration) (reason : Text) (i : Impl) :
    Revised i.state.faults (supersedeFault clk id expected reason i).impl.state.faults := by
  unfold supersedeFault
  split
  · exact .same rfl
  · next f hf =>
    have hfound : i.state.faults.find id = some f ∧ isLegalFaultTransition f.state .superseded = true := by
      unfold admitSupersede at hf
      split at hf
      · simp at hf
      · next g hg =>
        split_ifs at hf with _ hcurrent
        obtain rfl := Except.ok.inj hf
        exact ⟨hg, by simpa using (not_or.mp hcurrent).2⟩
    refine .rewrite id f _ hfound.1 ?_ rfl
    exact ⟨hfound.2, rfl, rfl⟩

theorem revised_authorizeContainment (clk : Clock) (id : FaultId) (expected : FaultGeneration) (i : Impl) :
    Revised i.state.faults (authorizeContainment clk id expected i).impl.state.faults := by
  unfold authorizeContainment
  split
  · exact .same rfl
  split
  · exact .same rfl
  · next f hf _ radius hradius =>
    have hlegal : isLegalFaultTransition f.state .containmentInProgress = true := by
      unfold admitRadius at hradius
      split at hradius
      · simp at hradius
      · split_ifs at hradius with _ hl
        exact hl
    refine .rewrite id f _ (admitContainment_ok hf).1 ?_ (commitContainment_faults clk id f radius i)
    exact ⟨hlegal, rfl, rfl⟩

/-- an admitted verification asks the fault of the containment to follow its outcome -/
theorem verifyContainment_faults (clk : Clock) {generation : ContainmentGeneration} {i : Impl}
    {record : ContainmentRecord} (h : admitVerify generation i = .ok record) :
    (verifyContainment clk generation i).impl.state.faults =
      editFault (settleFault (clk 0) (verificationOf i.state record generation (clk 0))) record.fault i.state.faults := by
  unfold verifyContainment
  rw [h]
  exact stageFault_faults _ _ _

theorem revised_verifyContainment (clk : Clock) (generation : ContainmentGeneration) (i : Impl) :
    Revised i.state.faults (verifyContainment clk generation i).impl.state.faults := by
  cases hadmitted : admitVerify generation i with
  | error e =>
    unfold verifyContainment
    rw [hadmitted]
    exact .same rfl
  | ok record =>
    rw [verifyContainment_faults clk hadmitted]
    exact revised_editFault _ (fun _ _ => rewritten_settleFault) _ _

/-- taking the last mandatory resource off a known containment asks its fault to be cleared -/
theorem takeOffContainment_faults (clk : Clock) {g : ContainmentGeneration} {c : ContainmentRecord} (id : ResourceId)
    (i : Impl) (hc : i.state.containments.find g = some c) :
    (takeOffContainment clk g id i).1.state.faults =
      if idSetErase c.mandatory id = [] then editFault (clearFault (clk 3)) c.fault i.state.faults
      else i.state.faults := by
  unfold takeOffContainment
  rw [hc]
  dsimp only [takeOff]
  split_ifs
  · exact stageFault_faults _ _ _
  · rfl

/-- a granted release of a resource under a known containment -/
theorem authorizeRelease_faults (clk : Clock) {request : ReleaseRequest} {i : Impl} {c : ContainmentRecord}
    (hgranted : (assessRelease i.state request).granted = true)
    (hc : i.state.containments.find (assessRelease i.state request).containmentGeneration = some c) :
    (authorizeRelease clk request i).impl.state.faults =
      if idSetErase c.mandatory request.resource = [] then editFault (clearFault (clk 3)) c.fault i.state.faults
      else i.state.faults := by
  obtain ⟨r, hr⟩ := resource_of_granted hgranted
  unfold authorizeRelease
  dsimp only
  rw [if_neg (by simp [hgranted]), hr]
  unfold grantRelease
  exact takeOffContainment_faults clk request.resource _ hc

/-- any other release leaves the faults alone -/
theorem authorizeRelease_refused (clk : Clock) {request : ReleaseRequest} {i : Impl}
    (h : (assessRelease i.state request).granted = true →
      i.state.containments.find (assessRelease i.state request).containmentGeneration = none) :
    (authorizeRelease clk request i).impl.state.faults = i.state.faults := by
  unfold authorizeRelease
  dsimp only
  split_ifs with hgranted
  · split
    · rfl
    · unfold grantRelease takeOffContainment
      dsimp only
      split
      · rfl
      · next c hc => exact absurd (hc.symm.trans (h hgranted)) (by simp)
  · rfl

theorem revised_authorizeRelease (clk : Clock) (request : ReleaseRequest) (i : Impl) :
    Revised i.state.faults (authorizeRelease clk request i).impl.state.faults := by
  by_cases h : (assessRelease i.state request).granted = true →
      i.state.containments.find (assessRelease i.state request).containmentGeneration = none
  · exact .same (authorizeRelease_refused clk h)
  · obtain ⟨hgranted, hfind⟩ := Classical.not_imp.mp h
    obtain ⟨c, hc⟩ := Option.ne_none_iff_exists'.mp hfind
    rw [authorizeRelease_faults clk hgranted hc]
    split_ifs
    · exact revised_editFault _ (fun _ _ => rewritten_clearFault) _ _
    · exact .same rfl

/-- **What an operation other than a publication does to the faults.** -/
theorem revised_after (c : Call) (i : Impl) (h : ∀ evidence, c.op ≠ .publishFault evidence) :
    Revised i.state.faults (c.after i).state.faults := by
  have hframe := frame_run c i
  obtain ⟨clk, op⟩ := c
  cases op
  case publishFault evidence => exact absurd rfl (h evidence)
  case supersedeFault id expected reason => exact revised_supersedeFault clk id expected reason i
  case authorizeContainment id expected => exact revised_authorizeContainment clk id expected i
  case verifyContainment generation => exact revised_verifyContainment clk generation i
  case authorizeRelease request => exact revised_authorizeRelease clk request i
  all_goals exact .same (hframe.faults (by simp [Op.parts]))

/-- only a publication touches the index -/
theorem index_after (c : Call) (i : Impl) (h : ∀ evidence, c.op ≠ .publishFault evidence) :
    (c.after i).faultByDigest = i.faultByDigest ∧ (c.after i).nextFault = i.nextFault := by
  have hframe := frame_run c i
  obtain ⟨clk, op⟩ := c
  cases op
  case publishFault evidence => exact absurd rfl (h evidence)
  all_goals exact ⟨hframe.faultByDigest (by simp [Op.parts]), hframe.nextFault (by simp [Op.parts])⟩

/-! ## Publications -/

/-- the observation has a subject, there is room for it, and its epoch is current -/
structure Accepted (evidence : FaultEvidence) (i : Impl) : Prop where
  subject : evidence.subject.valid = true
  room : i.state.faults.size < i.config.maxFaults
  epoch : (normalizeEvidence evidence i).epoch = i.state.epoch

instance (evidence : FaultEvidence) (i : Impl) : Decidable (Accepted evidence i) :=
  decidable_of_iff (evidence.subject.valid = true ∧ i.state.faults.size < i.config.maxFaults ∧
    (normalizeEvidence evidence i).epoch = i.state.epoch) ⟨fun ⟨hs, hr, he⟩ => ⟨hs, hr, he⟩, fun h => ⟨h.1, h.2, h.3⟩⟩

theorem allocateFault_reads (evidence : FaultEvidence) (i : Impl) :
    (allocateFault evidence i).state = i.state ∧ (allocateFault evidence i).faultByDigest = i.faultByDigest := by
  unfold allocateFault
  split_ifs <;> exact ⟨rfl, rfl⟩

theorem admitFault_allocate (e evidence : FaultEvidence) (i : Impl) :
    admitFault e (allocateFault evidence i) = admitFault e i := by
  unfold allocateFault
  split_ifs <;> rfl

/-- everything `publish_fault` can do -/
inductive Published (clk : Clock) (evidence : FaultEvidence) (i : Impl) : Prop where
  | rejected (j : Impl) (e : Error) (haccepted : ¬ Accepted evidence i) (he : e.code ≠ .duplicateConflict)
      (hj : j = i ∨ j = allocateFault evidence i) (h : publishFault clk evidence i = .refuse j e)
  | duplicate (id : FaultId) (haccepted : Accepted evidence i)
      (hknown : i.faultByDigest.find (normalizeEvidence evidence i).digest = some id)
      (h : publishFault clk evidence i = countDuplicate clk id (allocateFault evidence i))
  | refused (e : Error) (haccepted : Accepted evidence i)
      (hknown : i.faultByDigest.find (normalizeEvidence evidence i).digest = none)
      (hadmitted : admitFault (normalizeEvidence evidence i) i = .error e)
      (h : publishFault clk evidence i = .refuse (allocateFault evidence i) e)
  | fresh (haccepted : Accepted evidence i)
      (hknown : i.faultByDigest.find (normalizeEvidence evidence i).digest = none)
      (hadmitted : admitFault (normalizeEvidence evidence i) i = .ok ())
      (h : publishFault clk evidence i = storeFault clk (normalizeEvidence evidence i) (allocateFault evidence i))

theorem publishFault_cases (clk : Clock) (evidence : FaultEvidence) (i : Impl) : Published clk evidence i := by
  obtain ⟨hstate, hdigest⟩ := allocateFault_reads evidence i
  by_cases hsubject : evidence.subject.valid = true
  swap
  · refine .rejected i (makeError .invalidId "fault.publish" "fault subject is invalid")
      (fun ha => hsubject ha.subject) ?_ (.inl rfl) ?_
    · decide
    · unfold publishFault
      rw [if_pos hsubject]
  by_cases hroom : i.config.maxFaults ≤ i.state.faults.size
  · refine .rejected i (makeError .resourceExhausted "fault.publish" "fault ceiling reached")
      (fun ha => absurd ha.room (Nat.not_lt.mpr hroom)) ?_ (.inl rfl) ?_
    · decide
    · unfold publishFault
      rw [if_neg (not_not.mpr hsubject), if_pos hroom]
  by_cases hepoch : (normalizeEvidence evidence i).epoch = i.state.epoch
  swap
  · refine .rejected (allocateFault evidence i) (makeError .staleEpoch "fault.publish" "observation epoch is not current"
      ((normalizeEvidence evidence i).epoch.text ++ lit " != " ++ i.state.epoch.text)) (fun ha => hepoch ha.epoch) ?_
      (.inr rfl) ?_
    · exact (by decide : ErrorCode.staleEpoch ≠ .duplicateConflict)
    · unfold publishFault
      rw [if_neg (not_not.mpr hsubject), if_neg hroom]
      dsimp only
      rw [hstate, if_pos hepoch]
  have haccepted : Accepted evidence i := ⟨hsubject, Nat.lt_of_not_le hroom, hepoch⟩
  have hadmit := admitFault_allocate (normalizeEvidence evidence i) evidence i
  -- the index is asked first, and the containments only about a digest it does not hold
  cases hknown : i.faultByDigest.find (normalizeEvidence evidence i).digest with
  | some id =>
    refine .duplicate id haccepted hknown ?_
    unfold publishFault
    rw [if_neg (not_not.mpr hsubject), if_neg hroom]
    dsimp only
    rw [hstate, hdigest, if_neg (not_not.mpr hepoch), hknown]
  | none =>
    cases hadmitted : admitFault (normalizeEvidence evidence i) i with
    | error e =>
      refine .refused e haccepted hknown hadmitted ?_
      unfold publishFault
      rw [if_neg (not_not.mpr hsubject), if_neg hroom]
      dsimp only
      rw [hstate, hdigest, if_neg (not_not.mpr hepoch), hknown, hadmit, hadmitted]
    | ok u =>
      refine .fresh haccepted hknown hadmitted ?_
      unfold publishFault
      rw [if_neg (not_not.mpr hsubject), if_neg hroom]
      dsimp only
      rw [hstate, hdigest, if_neg (not_not.mpr hepoch), hknown, hadmit, hadmitted]

/-! ## The index -/

/-- every fault sits under its own identity, and every entry of the index names a stored fault with that digest -/
structure Cataloged (i : Impl) : Prop where
  keyed : OrderedMap.Keyed (fun f => f.evidence.id) i.state.faults
  stored : ∀ digest id, i.faultByDigest.find digest = some id →
    ∃ f, i.state.faults.find id = some f ∧ f.evidence.digest = digest

theorem Rewritten.fields {f f' : FaultRecord} (h : Rewritten f f') :
    f'.evidence.id = f.evidence.id ∧ f'.evidence.digest = f.evidence.digest ∧ f'.evidence.kind = f.evidence.kind ∧
      f'.evidence.subject = f.evidence.subject := by
  have hevidence := h.evidence
  rw [← hevidence]
  exact ⟨rfl, rfl, rfl, rfl⟩

theorem Cataloged.revised {i j : Impl} (h : Cataloged i) (hfaults : Revised i.state.faults j.state.faults)
    (hindex : j.faultByDigest = i.faultByDigest) : Cataloged j := by
  obtain ⟨hkeyed, hstored⟩ := h
  rw [← hindex] at hstored
  cases hfaults with
  | same hsame => exact ⟨hsame ▸ hkeyed, hsame ▸ hstored⟩
  | rewrite id f f' hfind hf hrewritten =>
    obtain ⟨hid, hdigest, -⟩ := hf.fields
    constructor
    · rw [hrewritten]
      exact hkeyed.insert (hid.trans (hkeyed id f hfind))
    · intro digest k hk
      obtain ⟨g, hg, hgdigest⟩ := hstored digest k hk
      rw [hrewritten, OrderedMap.find_insert]
      by_cases hik : id = k
      · rw [if_pos hik]
        obtain rfl := Option.some.inj ((hik ▸ hfind).symm.trans hg)
        exact ⟨f', rfl, hdigest.trans hgdigest⟩
      · rw [if_neg hik]
        exact ⟨g, hg, hgdigest⟩

/-- a counted duplicate rewrites the fault that is indexed -/
theorem revised_countDuplicate (clk : Clock) {id : FaultId} {f : FaultRecord} {i : Impl}
    (hf : i.state.faults.find id = some f) :
    Revised i.state.faults (countDuplicate clk id i).impl.state.faults ∧
      (countDuplicate clk id i).impl.state.faults.find id =
        some { f with duplicateCount := f.duplicateCount + 1, lastUpdatedMs := clk 0 } ∧
      (countDuplicate clk id i).result = .ok { f with duplicateCount := f.duplicateCount + 1, lastUpdatedMs := clk 0 } := by
  have hstored : (countDuplicate clk id i).impl.state.faults =
      i.state.faults.insert id { f with duplicateCount := f.duplicateCount + 1, lastUpdatedMs := clk 0 } := by
    show i.state.faults.insert id { (i.state.faults.find id).getD {} with
      duplicateCount := ((i.state.faults.find id).getD {}).duplicateCount + 1, lastUpdatedMs := clk 0 } = _
    rw [hf, Option.getD_some]
  refine ⟨.rewrite id f _ hf ?_ hstored, by rw [hstored, OrderedMap.find_insert_self], ?_⟩
  · exact ⟨legal_refl _, rfl, rfl⟩
  · show Except.ok { (i.state.faults.find id).getD {} with
      duplicateCount := ((i.state.faults.find id).getD {}).duplicateCount + 1, lastUpdatedMs := clk 0 } = _
    rw [hf, Option.getD_some]

/-- an admitted observation is stored under its identity and its digest -/
theorem storeFault_stored (clk : Clock) {evidence : FaultEvidence} {i : Impl}
    (h : admitFault evidence i = .ok ()) :
    i.state.faults.find evidence.id = none ∧
      (storeFault clk evidence i).impl.state.faults =
        i.state.faults.insert evidence.id (newFault (clk 0) evidence i.state.policy) ∧
      (storeFault clk evidence i).impl.faultByDigest = i.faultByDigest.insert evidence.digest evidence.id ∧
      (storeFault clk evidence i).result = .ok (newFault (clk 0) evidence i.state.policy) := by
  have hnew : i.state.faults.find evidence.id = none := by
    unfold admitFault at h
    split_ifs at h with hhas
    exact (OrderedMap.has_eq_false _ _).mp (Bool.eq_false_of_not_eq_true hhas)
  exact ⟨hnew, OrderedMap.emplace_new _ _ hnew, rfl, rfl⟩

/-- a publication rewrites a fault or stores a new one -/
theorem written_publishFault (clk : Clock) (evidence : FaultEvidence) (i : Impl) :
    Revised i.state.faults (publishFault clk evidence i).impl.state.faults ∨
      ∃ id f, i.state.faults.find id = none ∧
        (publishFault clk evidence i).impl.state.faults = i.state.faults.insert id f := by
  have hfaults : (allocateFault evidence i).state.faults = i.state.faults := by rw [(allocateFault_reads evidence i).1]
  cases publishFault_cases clk evidence i with
  | rejected j e _ _ hj hstep =>
    rw [hstep]
    rcases hj with rfl | rfl
    · exact .inl (.same rfl)
    · exact .inl (.same hfaults)
  | refused e _ _ _ hstep =>
    rw [hstep]
    exact .inl (.same hfaults)
  | duplicate id _ _ hstep =>
    rw [hstep]
    cases hf : i.state.faults.find id with
    | none => exact .inr ⟨id, _, hf, congrArg (OrderedMap.insert · id _) hfaults⟩
    | some f =>
      rw [← hfaults] at hf ⊢
      exact .inl (revised_countDuplicate clk hf).1
  | fresh _ _ hadmitted hstep =>
    rw [← admitFault_allocate _ evidence] at hadmitted
    obtain ⟨hnew, hstored, -⟩ := storeFault_stored clk hadmitted
    rw [hstep]
    rw [hfaults] at hnew hstored
    exact .inr ⟨_, _, hnew, hstored⟩

/-- a publication keeps the catalog -/
theorem cataloged_publishFault (clk : Clock) (evidence : FaultEvidence) {i : Impl} (h : Cataloged i) :
    Cataloged (publishFault clk evidence i).impl := by
  obtain ⟨hstate, hdigest⟩ := allocateFault_reads evidence i
  have hallocated : Cataloged (allocateFault evidence i) := by
    refine h.revised (.same ?_) hdigest
    rw [hstate]
  cases publishFault_cases clk evidence i with
  | rejected j e _ _ hj hstep =>
    rw [hstep]
    rcases hj with rfl | rfl
    · exact h
    · exact hallocated
  | refused e _ _ _ hstep =>
    rw [hstep]
    exact hallocated
  | duplicate id _ hknown hstep =>
    obtain ⟨f, hf, -⟩ := hallocated.stored _ id (hdigest.symm ▸ hknown)
    rw [hstep]
    exact hallocated.revised (revised_countDuplicate clk hf).1 rfl
  | fresh _ hknown hadmitted hstep =>
    rw [← admitFault_allocate _ evidence] at hadmitted
    obtain ⟨hnew, hfaults, hindex, -⟩ := storeFault_stored clk hadmitted
    rw [hstep]
    constructor
    · rw [hfaults]
      exact hallocated.keyed.insert rfl
    · intro digest id hid
      rw [hindex, OrderedMap.find_insert] at hid
      rw [hfaults, OrderedMap.find_insert]
      split_ifs at hid with hd
      · rw [if_pos (Option.some.inj hid)]
        exact ⟨_, rfl, hd⟩
      · obtain ⟨f, hf, hfdigest⟩ := hallocated.stored digest id hid
        have hne : (normalizeEvidence evidence i).id ≠ id := by
          rintro rfl
          rw [hnew] at hf
          simp at hf
        rw [if_neg hne]
        exact ⟨f, hf, hfdigest⟩

/-- **Step.** Every operation keeps the catalog. -/
theorem cataloged_after (c : Call) {i : Impl} (h : Cataloged i) : Cataloged (c.after i) := by
  by_cases hpublish : ∃ evidence, c.op = .publishFault evidence
  · obtain ⟨evidence, hop⟩ := hpublish
    have hrun : c.after i = (publishFault c.clk evidence i).impl := by unfold Call.after; rw [hop]; rfl
    rw [hrun]
    exact cataloged_publishFault c.clk evidence h
  · have hne : ∀ evidence, c.op ≠ .publishFault evidence := fun evidence hop => hpublish ⟨evidence, hop⟩
    exact h.revised (revised_after c i hne) (index_after c i hne).1

theorem cataloged_run (calls : List Call) {i : Impl} (h : Cataloged i) : Cataloged (Runs.run Call.after calls i) :=
  Runs.run_keeps (fun c _ hi => cataloged_after c hi) calls h

/-! ## Recovery -/

/-- the index built from the faults names faults of that digest -/
theorem find_rebuilt {es : List (FaultId × FaultRecord)} {m : OrderedMap Digest FaultId} {digest : Digest} {id : FaultId}
    (h : (es.foldl (fun m e => m.insert e.2.evidence.digest e.1) m).find digest = some id) :
    m.find digest = some id ∨ ∃ e ∈ es, e.1 = id ∧ e.2.evidence.digest = digest := by
  induction es generalizing m with
  | nil => exact .inl h
  | cons e es ih =>
    rcases ih h with hm | ⟨e', he', hid, hdigest⟩
    · rw [OrderedMap.find_insert] at hm
      split_ifs at hm with hd
      · exact .inr ⟨e, List.mem_cons_self, Option.some.inj hm, hd⟩
      · exact .inl hm
    · exact .inr ⟨e', List.mem_cons_of_mem _ he', hid, hdigest⟩

/-- faults stay under their own identities through a replay -/
theorem keyed_applyEvent (e : DurableEvent.Event) {i : Impl} (h : OrderedMap.Keyed (fun f => f.evidence.id) i.state.faults) :
    OrderedMap.Keyed (fun f => f.evidence.id) (applyEvent e i).state.faults := by
  obtain ⟨kind, body, history⟩ := e
  cases kind
  case faultUpsert => exact h.insert rfl
  case history => cases history <;> exact h
  all_goals exact h

theorem keyed_loaded {r : Persistence.Recovery} {i j : Impl} (h : loadSnapshot r (resetForRecovery i) = some j) :
    OrderedMap.Keyed (fun f => f.evidence.id) j.state.faults := by
  unfold loadSnapshot at h
  split_ifs at h
  · split at h
    · next s hs =>
      rw [← Option.some.inj h]
      exact (StateDocument.readStateDocument_sound hs).1.faults.1
    · simp at h
  · rw [← Option.some.inj h]
    intro id f hf
    have hnone : (resetForRecovery i).state.faults.find id = none := OrderedMap.find_empty id
    rw [hnone] at hf
    simp at hf

theorem cataloged_construct (clk : Clock) (config : Config) : Cataloged (construct clk config) := by
  constructor
  · intro id f hf
    have hnone : (construct clk config).state.faults.find id = none := OrderedMap.find_empty id
    exact absurd (hnone.symm.trans hf) (by simp)
  · intro digest id hid
    have hnone : (construct clk config).faultByDigest.find digest = none := OrderedMap.find_empty digest
    exact absurd (hnone.symm.trans hid) (by simp)

theorem cataloged_start (start : Start) (h : start.succeeds) : Cataloged start.impl := by
  cases start with
  | fresh clk config => exact cataloged_construct clk config
  | recovered clk io nowMs s =>
    obtain ⟨r, loaded, j, last, -, hload, hreplay, hkept⟩ := recoverFromStore_keeps (P := Cataloged)
      (fun _ _ h => h.revised (.same rfl) rfl) (fun _ _ _ h => h.revised (.same rfl) rfl)
      (fun _ _ _ h => h.revised (.same rfl) rfl)
      (fun clk nowMs reason i h => h.revised (.same (frame_beginEpoch clk nowMs reason i |>.faults (by simp)))
        ((frame_beginEpoch clk nowMs reason i).faultByDigest (by simp))) h
    have hkeyed : OrderedMap.Keyed (fun f : FaultRecord => f.evidence.id) j.state.faults := by
      have hreplayed := replay_keeps (P := fun i => OrderedMap.Keyed (fun f : FaultRecord => f.evidence.id) i.state.faults)
        (fun e _ => keyed_applyEvent e) r.journalRecords 0 r.snapshotSequence (keyed_loaded hload)
      rw [hreplay] at hreplayed
      exact hreplayed
    refine hkept ⟨hkeyed, fun digest id hid => ?_⟩
    rcases @find_rebuilt j.state.faults.toList ∅ _ _ hid with hnone | ⟨e, he, hid, hdigest⟩
    · simp at hnone
    · exact ⟨e.2, hid ▸ (OrderedMap.mem_toList _ _ _).mp he, hdigest⟩

end FaultContainment.Observations
