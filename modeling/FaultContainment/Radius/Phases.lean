/-
What the phases after the traversal make of it.

Correlated members without fresh evidence are flagged, what is flagged is contained, bounded or left open as the rule says, and
an isolation domain left too exposed is contained as a whole. Whatever traversal they start from, as long as it knows
everything, they end in the sets the specification names.

- `noted_noteUnresolved`: the flags outside the mandatory set are exactly the doubts.
- `grown_escalateUnresolved`, `grown_widenExposure`: the mandatory set grows to what is held.
-/
import FaultContainment.Radius.Traversal

namespace FaultContainment.Radius

open FaultContainment.Lib FaultContainment.Ids FaultContainment.Enums FaultContainment.Records
open FaultContainment.Policy FaultContainment.BlastRadius

variable {topology : Topology} {rule : FaultRule} {kind : FaultKind} {subject : ResourceRecord}

/-! ## Correlated members without fresh evidence -/

/-- flagged members of a group -/
theorem noteUnresolvedMembers_coherent {acc : Classifications} {mandatorySet : IdSet .resourceId}
    (members : IdSet .resourceId) (reason : UnresolvedReason) (detail : Text)
    (h : Coherent topology acc mandatorySet) :
    Coherent topology (noteUnresolvedMembers topology mandatorySet members reason detail acc) mandatorySet ∧
      ∀ d, flagged (noteUnresolvedMembers topology mandatorySet members reason detail acc) d ↔
        flagged acc d ∨ d ∈ members ∧ d ∉ mandatorySet ∧ Stale topology d := by
  unfold noteUnresolvedMembers
  induction members generalizing acc with
  | nil => simp [h]
  | cons m members ih =>
    rw [List.foldl_cons]
    cases hf : topology.resources.find m with
    | none =>
      obtain ⟨h1, h2⟩ := ih h
      refine ⟨h1, fun d => (h2 d).trans (or_congr_right (and_congr_left fun hd => ?_))⟩
      have hne : d ≠ m := by
        rintro rfl
        obtain ⟨r, hr, -⟩ := hd.2
        simp [hf] at hr
      simp [hne]
    | some r =>
      dsimp only
      split_ifs with hm hfresh
      · have hmem := mem_of_idSetContains hm
        obtain ⟨h1, h2⟩ := ih h
        refine ⟨h1, fun d => (h2 d).trans (or_congr_right (and_congr_left fun hd => ?_))⟩
        have hne : d ≠ m := fun he => hd.1 (he ▸ hmem)
        simp [hne]
      · have hn : m ∉ mandatorySet := fun hmem => hm ((idSetContains_iff h.sorted m).mpr hmem)
        obtain ⟨hc, hfl⟩ := h.mark ((OrderedMap.has_iff _ _).mpr ⟨r, hf⟩) r.generation reason detail
        obtain ⟨h1, h2⟩ := ih hc
        refine ⟨h1, fun d => ?_⟩
        rw [h2, hfl, List.mem_cons, or_assoc]
        refine or_congr_right ?_
        constructor
        · rintro (⟨hd, rfl⟩ | ⟨hd, hs⟩)
          · exact ⟨.inl rfl, hd, r, hf, hfresh⟩
          · exact ⟨.inr hd, hs⟩
        · rintro ⟨rfl | hd, hs⟩
          · exact .inl ⟨hs.1, rfl⟩
          · exact .inr ⟨hd, hs⟩
      · obtain ⟨h1, h2⟩ := ih h
        refine ⟨h1, fun d => (h2 d).trans (or_congr_right (and_congr_left fun hd => ?_))⟩
        have hne : d ≠ m := by
          rintro rfl
          obtain ⟨r', hr', hs⟩ := hd.2
          obtain rfl := Option.some.inj (hf.symm.trans hr')
          exact hs (by simpa using hfresh)
        simp [hne]

/-- **The flags outside the mandatory set are the doubts.** -/
theorem noted_noteUnresolved {w : Walk} (h : Traversed topology rule kind subject w) :
    Coherent topology (noteUnresolved topology subject w).acc w.mandatorySet ∧
      ∀ d, d ∉ w.mandatorySet →
        (flagged (noteUnresolved topology subject w).acc d ↔ Doubted topology rule kind subject d) := by
  have hsub : Reached topology rule kind subject subject.id := .seed .subject
  -- the subject is mandatory, so the note about a missing isolation domain changes no flag
  have hfirst : Coherent topology (if subject.isolationDomain.valid then
        noteUnresolvedMembers topology w.mandatorySet (isolationMembers topology subject) .evidenceStale
          (lit "isolation domain member without fresh evidence") w.acc
      else markUnresolved w.acc subject.id subject.generation .topologyUnknown (lit "subject has no isolation domain"))
      w.mandatorySet ∧ ∀ d, d ∉ w.mandatorySet → (flagged (if subject.isolationDomain.valid then
        noteUnresolvedMembers topology w.mandatorySet (isolationMembers topology subject) .evidenceStale
          (lit "isolation domain member without fresh evidence") w.acc
      else markUnresolved w.acc subject.id subject.generation .topologyUnknown
        (lit "subject has no isolation domain")) d ↔
        flagged w.acc d ∨ d ∈ isolationMembers topology subject ∧ Stale topology d) := by
    split_ifs with hv
    · obtain ⟨hc, hf⟩ := noteUnresolvedMembers_coherent (isolationMembers topology subject) .evidenceStale
        (lit "isolation domain member without fresh evidence") h.coherent
      exact ⟨hc, fun d hd => by rw [hf]; simp [hd]⟩
    · have hmem := (h.mandatory subject.id).mpr hsub
      obtain ⟨hc, hf⟩ := h.coherent.mark (h.coherent.entries _ ((h.coherent.included _).mpr hmem).has)
        subject.generation .topologyUnknown (lit "subject has no isolation domain")
      refine ⟨hc, fun d hd => ?_⟩
      have hne : d ≠ subject.id := fun he => hd (he ▸ hmem)
      rw [hf]
      simp [isolationMembers, hv, hne]
  obtain ⟨hc1, hf1⟩ := hfirst
  obtain ⟨hc2, hf2⟩ := noteUnresolvedMembers_coherent (failureMembers topology subject) .evidenceMissing
    (lit "correlated failure domain member without fresh evidence") hc1
  refine ⟨hc2, fun d hd => (hf2 d).trans ?_⟩
  rw [hf1 d hd, h.flagged d hd, Doubted, ← h.mandatory d]
  simp only [hd, not_false_eq_true, true_and, or_and_right, or_assoc]

/-! ## Doubt escalated or bounded -/

/-- the sets an escalation holds, when `held` is contained and `cautioned` is to be drained -/
structure Grown (topology : Topology) (rule : FaultRule) (kind : FaultKind) (subject : ResourceRecord)
    (held : ResourceId → Prop) (e : Escalation) : Prop where
  coherent : Coherent topology e.acc e.mandatorySet
  mandatory : ∀ d, d ∈ e.mandatorySet ↔ held d
  precautionary : ∀ d, d ∉ e.mandatorySet →
    (d ∈ e.precautionarySet ↔ Threatened topology rule kind subject d ∨ Bounded topology rule kind subject d)
  drained : ∀ d ∈ e.precautionarySet, topology.resources.has d = true
  flagged : ∀ d, d ∉ e.mandatorySet → d ∉ e.precautionarySet →
    (flagged e.acc d ↔ Doubted topology rule kind subject d)

/-- clearing the flag of one entry -/
theorem cleared_subscript {acc : Classifications} {id : ResourceId} {f : ClassifiedResource → ClassifiedResource}
    (hi : ∀ c, (f c).hasInclusion = c.hasInclusion) (hx : ∀ c, (f c).hasExclusion = c.hasExclusion)
    (hu : ∀ c, (f c).hasUnresolved = false) (d : ResourceId) :
    (included (acc.subscript id f) d ↔ included acc d) ∧ (excluded (acc.subscript id f) d ↔ excluded acc d) ∧
      (flagged (acc.subscript id f) d ↔ flagged acc d ∧ id ≠ d) := by
  unfold included excluded flagged
  rw [getD_subscript]
  split_ifs with h
  · simp [hi, hx, hu, h]
  · simp [h]

/-- every listed resource contained, and its flag cleared -/
theorem containUnresolved_loop (ids : List ResourceId) (hids : ∀ id ∈ ids, topology.resources.has id = true)
    {e : Escalation} (h : Coherent topology e.acc e.mandatorySet) :
    Coherent topology (ids.foldl (containUnresolved topology) e).acc
        (ids.foldl (containUnresolved topology) e).mandatorySet ∧
      (∀ d, d ∈ (ids.foldl (containUnresolved topology) e).mandatorySet ↔ d ∈ e.mandatorySet ∨ d ∈ ids) ∧
      (∀ d, flagged (ids.foldl (containUnresolved topology) e).acc d ↔ flagged e.acc d ∧ d ∉ ids) ∧
      (ids.foldl (containUnresolved topology) e).precautionarySet = e.precautionarySet := by
  induction ids generalizing e with
  | nil => simp [h]
  | cons id ids ih =>
    rw [List.foldl_cons]
    obtain ⟨r, hr⟩ := (OrderedMap.has_iff _ _).mp (hids id List.mem_cons_self)
    have he : containUnresolved topology e id =
        { e with
          acc := (includeIn e.acc id r.generation .unknownEvidenceFailClosed
            (lit "unresolved evidence cannot be proven safe")).subscript id fun c => { c with hasUnresolved := false }
          mandatorySet := idSetInsert e.mandatorySet id } := by
      unfold containUnresolved
      rw [hr]
    have hclear := @cleared_subscript (includeIn e.acc id r.generation .unknownEvidenceFailClosed
      (lit "unresolved evidence cannot be proven safe")) id (fun c => { c with hasUnresolved := false })
      (fun _ => rfl) (fun _ => rfl) (fun _ => rfl)
    obtain ⟨h1, h2, h3, h4⟩ := ih (fun i hi => hids i (List.mem_cons_of_mem id hi))
      (e := containUnresolved topology e id) (by
        rw [he]
        refine ⟨sorted_idSetInsert h.sorted id, fun d => ?_, fun d => ?_, fun d hd => ?_⟩
        · rw [(hclear d).1, included_includeIn, h.included, mem_idSetInsert, or_comm, eq_comm]
        · rw [(hclear d).2.1, excluded_includeIn]; exact h.unexcluded d
        · rw [has_subscript, has_includeIn] at hd
          rcases hd with (hd | rfl) | rfl
          · exact h.entries d hd
          · exact hids _ List.mem_cons_self
          · exact hids _ List.mem_cons_self)
    refine ⟨h1, fun d => ?_, fun d => ?_, ?_⟩
    · rw [h2, he, mem_idSetInsert, List.mem_cons]
      tauto
    · rw [h3, he, (hclear d).2.2, flagged_includeIn, List.mem_cons, not_or, and_assoc, ne_comm]
    · rw [h4, he]

/-- every listed resource made precautionary, and its flag cleared -/
theorem boundUnresolved_loop (ids : List ResourceId) (hids : ∀ id ∈ ids, topology.resources.has id = true)
    {e : Escalation} (h : Coherent topology e.acc e.mandatorySet) :
    Coherent topology (ids.foldl (boundUnresolved topology) e).acc e.mandatorySet ∧
      (∀ d, d ∈ (ids.foldl (boundUnresolved topology) e).precautionarySet ↔ d ∈ e.precautionarySet ∨ d ∈ ids) ∧
      (∀ d, flagged (ids.foldl (boundUnresolved topology) e).acc d ↔ flagged e.acc d ∧ d ∉ ids) ∧
      (ids.foldl (boundUnresolved topology) e).mandatorySet = e.mandatorySet := by
  induction ids generalizing e with
  | nil => simp [h]
  | cons id ids ih =>
    rw [List.foldl_cons]
    obtain ⟨r, hr⟩ := (OrderedMap.has_iff _ _).mp (hids id List.mem_cons_self)
    have he : boundUnresolved topology e id =
        { e with
          precautionarySet := if id ∈ e.precautionarySet then e.precautionarySet else e.precautionarySet ++ [id]
          acc := e.acc.subscript id fun c =>
            { c with hasUnresolved := false, detail := lit "bounded exposure under unresolved evidence" } } := by
      unfold boundUnresolved
      rw [hr]
    have hclear := @cleared_subscript e.acc id
      (fun c => { c with hasUnresolved := false, detail := lit "bounded exposure under unresolved evidence" })
      (fun _ => rfl) (fun _ => rfl) (fun _ => rfl)
    obtain ⟨h1, h2, h3, h4⟩ := ih (fun i hi => hids i (List.mem_cons_of_mem id hi))
      (e := boundUnresolved topology e id) (by
        rw [he]
        refine ⟨h.sorted, fun d => ?_, fun d => ?_, fun d hd => ?_⟩
        · rw [(hclear d).1, h.included]
        · rw [(hclear d).2.1]; exact h.unexcluded d
        · rcases (has_subscript _ _ _ _).mp hd with hd | rfl
          · exact h.entries d hd
          · exact hids _ List.mem_cons_self)
    refine ⟨?_, fun d => ?_, fun d => ?_, ?_⟩
    · rw [he] at h1 ⊢; exact h1
    · rw [h2, he, List.mem_cons]
      dsimp only
      split_ifs with hm
      · constructor
        · rintro (hd | hd)
          · exact .inl hd
          · exact .inr (.inr hd)
        · rintro (hd | rfl | hd)
          · exact .inl hd
          · exact .inl hm
          · exact .inr hd
      · rw [List.mem_append, List.mem_singleton, or_assoc]
    · rw [h3, he, (hclear d).2.2, List.mem_cons, not_or, and_assoc, ne_comm]
    · rw [h4, he]

theorem mem_unresolvedIds {acc : Classifications} (d : ResourceId) :
    d ∈ (acc.toList.filter fun c => c.2.hasUnresolved).map Prod.fst ↔ flagged acc d := by
  constructor
  · intro h
    obtain ⟨⟨k, c⟩, hm, rfl⟩ := List.mem_map.mp h
    obtain ⟨hc, hu⟩ := List.mem_filter.mp hm
    rw [flagged, (OrderedMap.mem_toList _ _ _).mp hc]
    exact hu
  · intro h
    obtain ⟨c, hc⟩ := (OrderedMap.has_iff _ _).mp h.has
    rw [flagged, hc] at h
    exact List.mem_map.mpr ⟨(d, c), List.mem_filter.mpr ⟨(OrderedMap.mem_toList _ _ _).mpr hc, h⟩, rfl⟩

/-- reached, or contained for doubt -/
def Seized (topology : Topology) (rule : FaultRule) (kind : FaultKind) (subject : ResourceRecord) (d : ResourceId) :
    Prop := Reached topology rule kind subject d ∨ Escalated topology rule kind subject d

/-- **Doubt is contained, bounded or left open**, as the rule says. -/
theorem grown_escalateUnresolved {w : Walk} (h : Traversed topology rule kind subject w) :
    Grown topology rule kind subject (Seized topology rule kind subject)
      (escalateUnresolved topology rule (noteUnresolved topology subject w)) := by
  obtain ⟨hc, hf⟩ := noted_noteUnresolved h
  have hids : ∀ d ∈ ((noteUnresolved topology subject w).acc.toList.filter fun c => c.2.hasUnresolved).map Prod.fst,
      topology.resources.has d = true := fun d hd => hc.entries d ((mem_unresolvedIds d).mp hd).has
  -- a phase that leaves the sets as they are, under a rule that does nothing about doubt
  have hopen : ¬ (rule.failClosedOnUnknownEvidence = true ∧ (rule.uncertainty = .containPreemptively ∨
      rule.uncertainty = .boundedExposure)) → Grown topology rule kind subject (Seized topology rule kind subject)
        { acc := (noteUnresolved topology subject w).acc, mandatorySet := w.mandatorySet
          precautionarySet := w.precautionarySet } := by
    intro hn
    refine ⟨hc, fun d => ?_, fun d hd => ?_, h.drained, fun d hd _ => hf d hd⟩
    · rw [h.mandatory]
      exact ⟨.inl, fun hs => hs.resolve_right fun he => hn ⟨he.1, .inl he.2.1⟩⟩
    · rw [h.precautionary d hd]
      exact ⟨.inl, fun hs => hs.resolve_right fun he => hn ⟨he.1, .inr he.2.1⟩⟩
  unfold escalateUnresolved
  dsimp only
  rw [show (noteUnresolved topology subject w).mandatorySet = w.mandatorySet from rfl,
    show (noteUnresolved topology subject w).precautionarySet = w.precautionarySet from rfl]
  split_ifs with hcase
  · cases hu : rule.uncertainty with
    | containPreemptively =>
      dsimp only
      obtain ⟨h1, h2, h3, h4⟩ := containUnresolved_loop _ hids (e :=
        { acc := (noteUnresolved topology subject w).acc, mandatorySet := w.mandatorySet,
          precautionarySet := w.precautionarySet, uncertaintyEscalated := true, failClosedApplied := true }) hc
      have hmem : ∀ d, d ∈ w.mandatorySet ∨ flagged (noteUnresolved topology subject w).acc d ↔
          Seized topology rule kind subject d := by
        intro d
        rw [Seized, Escalated, ← h.mandatory]
        by_cases hd : d ∈ w.mandatorySet
        · simp [hd]
        · rw [hf d hd]
          simp [hd, hcase.2, hu]
      refine ⟨h1, fun d => ?_, fun d hd => ?_, fun d hd => ?_, fun d hd _ => ?_⟩
      · rw [h2, mem_unresolvedIds]
        exact hmem d
      · rw [h2, not_or] at hd
        rw [h4, h.precautionary d hd.1]
        exact ⟨.inl, fun hs => hs.resolve_right fun he => by simp [Bounded, hu] at he⟩
      · rw [h4] at hd; exact h.drained d hd
      · rw [h2, mem_unresolvedIds, not_or] at hd
        rw [h3, mem_unresolvedIds]
        exact ⟨fun hx => absurd hx.1 hd.2, fun hx => absurd ((hf d hd.1).mpr hx) hd.2⟩
    | boundedExposure =>
      dsimp only
      obtain ⟨h1, h2, h3, h4⟩ := boundUnresolved_loop _ hids (e :=
        { acc := (noteUnresolved topology subject w).acc, mandatorySet := w.mandatorySet,
          precautionarySet := w.precautionarySet, uncertaintyEscalated := true }) hc
      refine ⟨by rw [h4]; exact h1, fun d => ?_, fun d hd => ?_, fun d hd => ?_, fun d hd hp => ?_⟩
      · rw [h4, h.mandatory]
        exact ⟨.inl, fun hs => hs.resolve_right fun he => by simp [Escalated, hu] at he⟩
      · rw [h4] at hd
        rw [h2, mem_unresolvedIds, h.precautionary d hd, hf d hd]
        simp [Bounded, hcase.2, hu]
      · rw [h2] at hd
        exact hd.elim (h.drained d) (hids d)
      · rw [h4] at hd
        rw [h2, mem_unresolvedIds, not_or] at hp
        rw [h3, mem_unresolvedIds]
        exact ⟨fun hx => absurd hx.1 hp.2, fun hx => absurd ((hf d hd).mpr hx) hp.2⟩
    | observeOnly => exact hopen (by simp [hu])
  · rw [not_and_or, not_not] at hcase
    rcases hcase with hcase | hcase
    · -- nothing is flagged, so nothing is in doubt
      have hnone : ∀ d, ¬ Doubted topology rule kind subject d := fun d hd => by
        have hm : d ∉ w.mandatorySet := fun hm => hd.1 ((h.mandatory d).mp hm)
        have := (mem_unresolvedIds d).mpr ((hf d hm).mpr hd)
        rw [hcase] at this
        simp at this
      refine ⟨hc, fun d => ?_, fun d hd => ?_, h.drained, fun d hd _ => hf d hd⟩
      · exact (h.mandatory d).trans ⟨.inl, fun hs => hs.resolve_right fun he => hnone d he.2.2⟩
      · exact (h.precautionary d hd).trans ⟨.inl, fun hs => hs.resolve_right fun he => hnone d he.2.2⟩
    · exact hopen fun hn => hcase hn.1

/-! ## Exposure -/

theorem widenMember_loop (members : List ResourceId) {e : Escalation}
    (h : Coherent topology e.acc e.mandatorySet) :
    Coherent topology (members.foldl (widenMember topology) e).acc
        (members.foldl (widenMember topology) e).mandatorySet ∧
      (∀ d, d ∈ (members.foldl (widenMember topology) e).mandatorySet ↔
        d ∈ e.mandatorySet ∨ d ∈ members ∧ topology.resources.has d = true) ∧
      (∀ d, flagged (members.foldl (widenMember topology) e).acc d ↔ flagged e.acc d) ∧
      (members.foldl (widenMember topology) e).precautionarySet = e.precautionarySet := by
  induction members generalizing e with
  | nil => simp [h]
  | cons m members ih =>
    rw [List.foldl_cons]
    by_cases hr : topology.resources.has m = true
    · obtain ⟨r, hr'⟩ := (OrderedMap.has_iff _ _).mp hr
      by_cases hm : m ∈ e.mandatorySet
      · have he : widenMember topology e m = e := by
          unfold widenMember
          rw [hr']
          exact if_pos ((idSetContains_iff h.sorted m).mpr hm)
        obtain ⟨h1, h2, h3, h4⟩ := ih h
        rw [he]
        refine ⟨h1, fun d => ?_, h3, h4⟩
        rw [h2, List.mem_cons]
        constructor
        · rintro (hd | hd)
          · exact .inl hd
          · exact .inr ⟨.inr hd.1, hd.2⟩
        · rintro (hd | ⟨rfl | hd, hd'⟩)
          · exact .inl hd
          · exact .inl hm
          · exact .inr ⟨hd, hd'⟩
      · have he : widenMember topology e m =
            { e with
              mandatorySet := idSetInsert e.mandatorySet m
              acc := includeIn e.acc m r.generation .mandatoryCoIsolationRule
                (lit "exposure inside the correlated group exceeds the tolerated maximum") } := by
          unfold widenMember
          rw [hr']
          exact if_neg fun hin => hm (mem_of_idSetContains hin)
        obtain ⟨h1, h2, h3, h4⟩ := ih (e := widenMember topology e m) (by
          rw [he]
          refine ⟨sorted_idSetInsert h.sorted m, fun d => ?_, fun d => ?_, fun d hd => ?_⟩
          · rw [included_includeIn, h.included, mem_idSetInsert, or_comm, eq_comm]
          · rw [excluded_includeIn]; exact h.unexcluded d
          · rcases (has_includeIn _ _ _ _ _ _).mp hd with hd | rfl
            · exact h.entries d hd
            · exact hr)
        refine ⟨h1, fun d => ?_, fun d => ?_, ?_⟩
        · rw [h2, he, mem_idSetInsert, List.mem_cons]
          constructor
          · rintro ((rfl | hd) | hd)
            · exact .inr ⟨.inl rfl, hr⟩
            · exact .inl hd
            · exact .inr ⟨.inr hd.1, hd.2⟩
          · rintro (hd | ⟨rfl | hd, hd'⟩)
            · exact .inl (.inr hd)
            · exact .inl (.inl rfl)
            · exact .inr ⟨hd, hd'⟩
        · rw [h3, he, flagged_includeIn]
        · rw [h4, he]
    · have he : widenMember topology e m = e := by
        unfold widenMember
        rw [(OrderedMap.has_eq_false _ _).mp (Bool.eq_false_iff.mpr hr)]
      obtain ⟨h1, h2, h3, h4⟩ := ih h
      rw [he]
      refine ⟨h1, fun d => ?_, h3, h4⟩
      rw [h2, List.mem_cons]
      refine or_congr_right (and_congr_left fun hd => ⟨.inr, fun hd' => hd'.resolve_left ?_⟩)
      rintro rfl
      exact hr hd

open Classical in
/-- the members counted outside are those the specification counts -/
theorem overExposed_iff {e : Escalation}
    (h : Grown topology rule kind subject (Seized topology rule kind subject) e) :
    rule.maxToleratedExposure.toNat <
        ((isolationMembers topology subject).filter fun m => !idSetContains e.mandatorySet m).length ↔
      OverExposed topology rule kind subject := by
  have hfilter : (isolationMembers topology subject).filter (fun m => !idSetContains e.mandatorySet m) =
      (isolationMembers topology subject).filter fun m =>
        ¬ (Reached topology rule kind subject m ∨ Escalated topology rule kind subject m) := by
    apply List.filter_congr
    intro m _
    rw [Bool.eq_iff_iff, decide_eq_true_iff, Bool.not_eq_true', ← Bool.not_eq_true,
      idSetContains_iff h.coherent.sorted, h.mandatory]
    exact Iff.rfl
  rw [OverExposed, hfilter]

/-- **An isolation domain left too exposed is contained as a whole.** -/
theorem grown_widenExposure {e : Escalation}
    (h : Grown topology rule kind subject (Seized topology rule kind subject) e) :
    Grown topology rule kind subject (Held topology rule kind subject) (widenExposure topology rule subject e) := by
  have hactive := overExposed_iff h
  unfold widenExposure
  dsimp only
  split_ifs with hover
  · have hw := hactive.mp hover
    obtain ⟨h1, h2, h3, h4⟩ := widenMember_loop (isolationMembers topology subject) h.coherent
    have hsub : ∀ d, d ∉ ((isolationMembers topology subject).foldl (widenMember topology) e).mandatorySet →
        d ∉ e.mandatorySet := fun d hd hm => hd ((h2 d).mpr (.inl hm))
    refine ⟨h1, fun d => ?_, fun d hd => ?_, fun d hd => ?_, fun d hd hp => ?_⟩
    · rw [h2, h.mandatory, Held, Widened, Seized, or_assoc]
      simp [hw]
    · rw [h4]; exact h.precautionary d (hsub d hd)
    · rw [h4] at hd; exact h.drained d hd
    · rw [h4] at hp
      rw [h3]
      exact h.flagged d (hsub d hd) hp
  · refine ⟨h.coherent, fun d => ?_, h.precautionary, h.drained, h.flagged⟩
    rw [h.mandatory, Held, Seized, ← or_assoc]
    exact ⟨.inl, fun hs => hs.resolve_right fun hx => hover (hactive.mpr hx.1)⟩

/-- the phases between the traversal and the buckets -/
def settle (topology : Topology) (rule : FaultRule) (subject : ResourceRecord) (w : Walk) : Escalation :=
  widenExposure topology rule subject (escalateUnresolved topology rule (noteUnresolved topology subject w))

/-- **From any complete traversal the phases end in what is held.** -/
theorem grown_settle {w : Walk} (h : Traversed topology rule kind subject w) :
    Grown topology rule kind subject (Held topology rule kind subject) (settle topology rule subject w) :=
  grown_widenExposure (grown_escalateUnresolved h)

end FaultContainment.Radius
