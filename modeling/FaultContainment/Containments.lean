/-
What becomes of a stored containment along a run of the engine.

Three operations write containments: a commitment adds one, a verification stores its verdict, and a granted release takes
a resource off. Nothing else touches them, and nothing drops one. The mandatory set of a containment only shrinks, its
actions stay, and each action keeps its target.

- `writes`: the ways an operation writes a containment.
- `listed_after`: the sets of a containment stay sorted, and a released resource stays off the mandatory set.
- `aimed_after`: an action keeps its target.
- `settled_after`: a containment verified as CONTAINED has a recorded result for each of its actions, from then on.
-/
import FaultContainment.Dispatching.Stale
import FaultContainment.Quarantine

namespace FaultContainment.Containments

open FaultContainment.Lib FaultContainment.Ids FaultContainment.Enums FaultContainment.Records
open FaultContainment.DurableEvent FaultContainment.BlastRadius FaultContainment.Engine FaultContainment.Dispatching

/-! ## What a containment is for -/

/-- the kind of fault a containment is for -/
def kindOf (s : RuntimeSnapshot) (c : ContainmentRecord) : FaultKind :=
  match s.faults.find c.fault with
  | some f => f.evidence.kind
  | none => .unknownFault

/-- the rule that a containment's fault falls under -/
def ruleOf (s : RuntimeSnapshot) (c : ContainmentRecord) : FaultRule := s.policy.ruleFor (kindOf s c)

/-! ## The writes -/

/-- the ways an operation writes a containment -/
inductive Writes (c : Call) (i : Impl) : Prop where
  | none (h : (c.after i).state.containments = i.state.containments)
  | verify (g : ContainmentGeneration) (record : ContainmentRecord) (hop : c.op = .verifyContainment g)
      (hfind : i.state.containments.find g = some record) (hlive : containmentIsLive record.status = true)
      (h : (c.after i).state.containments = i.state.containments.insert g
        (withVerification (c.clk 0) (verificationOf i.state record g (c.clk 0)) record))
  | release (g : ContainmentGeneration) (record : ContainmentRecord) (request : ReleaseRequest)
      (hop : c.op = .authorizeRelease request) (hgranted : (assessRelease i.state request).granted = true)
      (hgeneration : (assessRelease i.state request).containmentGeneration = g)
      (hfind : i.state.containments.find g = some record)
      (h : (c.after i).state.containments = i.state.containments.insert g (takeOff (c.clk 2) request.resource record))
  | commit (id : FaultId) (expected : FaultGeneration) (fault : FaultRecord) (radius : Records.BlastRadius)
      (hop : c.op = .authorizeContainment id expected) (hfault : admitContainment id expected i = .ok fault)
      (hradius : admitRadius fault i = .ok radius)
      (h : (c.after i).state.containments = i.state.containments.emplace radius.generation
        (committed c.clk id fault radius i))

theorem admitVerify_ok {generation : ContainmentGeneration} {i : Impl} {record : ContainmentRecord}
    (h : admitVerify generation i = .ok record) :
    i.state.containments.find generation = some record ∧ containmentIsLive record.status = true := by
  unfold admitVerify at h
  split at h
  · simp at h
  · next c hc =>
    split_ifs at h with hlive
    obtain rfl := Except.ok.inj h
    exact ⟨hc, hlive⟩

theorem writes_verifyContainment (clk : Clock) (generation : ContainmentGeneration) (i : Impl) :
    Writes ⟨clk, .verifyContainment generation⟩ i := by
  cases hadmitted : admitVerify generation i with
  | error e =>
    refine .none ?_
    show (verifyContainment clk generation i).impl.state.containments = _
    unfold verifyContainment
    rw [hadmitted]
    rfl
  | ok record =>
    obtain ⟨hfind, hlive⟩ := admitVerify_ok hadmitted
    refine .verify generation record rfl hfind hlive ?_
    show (verifyContainment clk generation i).impl.state.containments = _
    unfold verifyContainment
    rw [hadmitted]
    exact stageFault_containments _ _ _

/-- a grant is about a stored resource -/
theorem resource_of_granted {s : RuntimeSnapshot} {request : ReleaseRequest}
    (h : (assessRelease s request).granted = true) : ∃ r, s.topology.resources.find request.resource = some r := by
  unfold assessRelease at h
  cases hr : s.topology.resources.find request.resource with
  | none => simp [hr] at h
  | some r => exact ⟨r, rfl⟩

/-- a granted release takes the resource off the containment it is granted for -/
theorem authorizeRelease_containments (clk : Clock) {request : ReleaseRequest} {i : Impl} {record : ContainmentRecord}
    (hgranted : (assessRelease i.state request).granted = true)
    (hfind : i.state.containments.find (assessRelease i.state request).containmentGeneration = some record) :
    (authorizeRelease clk request i).impl.state.containments =
      i.state.containments.insert (assessRelease i.state request).containmentGeneration
        (takeOff (clk 2) request.resource record) := by
  obtain ⟨r, hr⟩ := resource_of_granted hgranted
  unfold authorizeRelease
  dsimp only
  rw [if_neg (by simp [hgranted]), hr]
  dsimp only [grantRelease, commit_containments]
  generalize hj : Impl.mk _ _ _ _ _ _ _ _ _ _ _ = j
  have hcj : j.state.containments.find (assessRelease i.state request).containmentGeneration = some record := by
    rw [← hj]
    exact hfind
  rw [(Quarantine.takeOffContainment_state clk request.resource j hcj).2, ← hj]
  rfl

theorem writes_authorizeRelease (clk : Clock) (request : ReleaseRequest) (i : Impl) :
    Writes ⟨clk, .authorizeRelease request⟩ i := by
  have hafter : (⟨clk, .authorizeRelease request⟩ : Call).after i = (authorizeRelease clk request i).impl := rfl
  cases hgranted : (assessRelease i.state request).granted with
  | false =>
    refine .none ?_
    rw [hafter]
    unfold authorizeRelease
    dsimp only
    rw [if_pos (by simp [hgranted])]
    rfl
  | true =>
    obtain ⟨r, hr⟩ := resource_of_granted hgranted
    cases hfind : i.state.containments.find (assessRelease i.state request).containmentGeneration with
    | none =>
      refine .none ?_
      rw [hafter]
      unfold authorizeRelease
      dsimp only
      rw [if_neg (by simp [hgranted]), hr]
      dsimp only [grantRelease, commit_containments]
      unfold takeOffContainment
      split
      · rfl
      · next c hc => exact absurd (hfind.symm.trans hc) (by simp)
    | some record =>
      refine .release _ record request rfl hgranted rfl hfind ?_
      rw [hafter]
      exact authorizeRelease_containments clk hgranted hfind

/-- an admitted commitment stores one containment, with the actions it planned -/
theorem authorizeContainment_stored (clk : Clock) {id : FaultId} {expected : FaultGeneration} {i : Impl}
    {fault : FaultRecord} {radius : Records.BlastRadius} (hfault : admitContainment id expected i = .ok fault)
    (hradius : admitRadius fault i = .ok radius) :
    (authorizeContainment clk id expected i).impl.state.containments =
        i.state.containments.emplace radius.generation (committed clk id fault radius i) ∧
      (authorizeContainment clk id expected i).impl.state.actions = (plannedBy clk id fault radius i).1.state.actions := by
  unfold authorizeContainment
  rw [hfault]
  dsimp only
  rw [hradius]
  dsimp only
  obtain ⟨time, entry, hstored⟩ := commitContainment_stored clk id fault radius i
  rw [hstored]
  exact ⟨rfl, rfl⟩

theorem writes_authorizeContainment (clk : Clock) (id : FaultId) (expected : FaultGeneration) (i : Impl) :
    Writes ⟨clk, .authorizeContainment id expected⟩ i := by
  have hafter : (⟨clk, .authorizeContainment id expected⟩ : Call).after i =
      (authorizeContainment clk id expected i).impl := rfl
  cases hfault : admitContainment id expected i with
  | error e =>
    refine .none ?_
    rw [hafter]
    unfold authorizeContainment
    rw [hfault]
    rfl
  | ok fault =>
    cases hradius : admitRadius fault i with
    | error e =>
      refine .none ?_
      rw [hafter]
      unfold authorizeContainment
      rw [hfault]
      dsimp only
      rw [hradius]
      rfl
    | ok radius =>
      exact .commit id expected fault radius rfl hfault hradius (authorizeContainment_stored clk hfault hradius).1

/-- **What an operation does to the containments.** -/
theorem writes (c : Call) (i : Impl) : Writes c i := by
  have hframe := frame_run c i
  obtain ⟨clk, op⟩ := c
  cases op
  case verifyContainment generation => exact writes_verifyContainment clk generation i
  case authorizeRelease request => exact writes_authorizeRelease clk request i
  case authorizeContainment id expected => exact writes_authorizeContainment clk id expected i
  all_goals exact .none (hframe.containments (by simp [Op.parts]))

/-! ## What a containment keeps -/

/-- every containment is stored under its own generation, its mandatory set is sorted, and released resources are off it -/
structure Listed (s : RuntimeSnapshot) : Prop where
  keyed : OrderedMap.Keyed ContainmentRecord.generation s.containments
  sorted : ∀ g c, s.containments.find g = some c → SortedSet c.mandatory
  apart : ∀ g c, s.containments.find g = some c → ∀ r ∈ c.mandatory, r ∉ c.released

/-- what holds of the containments before a write, and of the one it stores, holds after it -/
theorem each_insert {m m' : OrderedMap ContainmentGeneration ContainmentRecord} {g : ContainmentGeneration}
    {c : ContainmentRecord} (h : m' = m.insert g c) {P : ContainmentGeneration → ContainmentRecord → Prop} (hnew : P g c)
    (hold : ∀ g' b, m.find g' = some b → P g' b) : ∀ g' b, m'.find g' = some b → P g' b := by
  intro g' b hb
  rw [h, OrderedMap.find_insert] at hb
  split_ifs at hb with hg
  · obtain rfl := Option.some.inj hb
    exact hg ▸ hnew
  · exact hold g' b hb

theorem each_emplace {m m' : OrderedMap ContainmentGeneration ContainmentRecord} {g : ContainmentGeneration}
    {c : ContainmentRecord} (h : m' = m.emplace g c) {P : ContainmentGeneration → ContainmentRecord → Prop} (hnew : P g c)
    (hold : ∀ g' b, m.find g' = some b → P g' b) : ∀ g' b, m'.find g' = some b → P g' b := by
  intro g' b hb
  rw [h, OrderedMap.find_emplace] at hb
  split_ifs at hb with hg
  · obtain rfl := Option.some.inj hb
    exact hg.1 ▸ hnew
  · exact hold g' b hb

/-- **Step.** Every operation keeps the containments listed. -/
theorem listed_after (c : Call) {i : Impl} (h : Listed i.state) : Listed (c.after i).state := by
  cases writes c i with
  | none hc => exact ⟨hc ▸ h.keyed, hc ▸ h.sorted, hc ▸ h.apart⟩
  | verify g record _ hfind _ hc =>
    exact ⟨each_insert hc (h.keyed g record hfind) h.keyed, each_insert hc (h.sorted g record hfind) h.sorted,
      each_insert hc (h.apart g record hfind) h.apart⟩
  | release g record request _ _ _ hfind hc =>
    have hsorted := h.sorted g record hfind
    refine ⟨each_insert hc (h.keyed g record hfind) h.keyed,
      each_insert hc (sorted_idSetErase hsorted request.resource) h.sorted, each_insert hc (fun r hr => ?_) h.apart⟩
    obtain ⟨hr, hne⟩ := (mem_idSetErase hsorted _ _).mp hr
    exact fun hmem => ((mem_idSetInsert _ _ _).mp hmem).elim hne (h.apart g record hfind r hr)
  | commit id expected fault radius _ _ hradius hc =>
    exact ⟨each_emplace hc rfl h.keyed, each_emplace hc (mandatory_sorted (admitRadius_ok hradius)) h.sorted,
      each_emplace hc (fun r _ => by simp [committed, newContainment]) h.apart⟩

theorem listed_construct (clk : Clock) (config : Config) : Listed (construct clk config).state := by
  have hnone : ∀ g, (construct clk config).state.containments.find g = none := fun g => OrderedMap.find_empty g
  exact ⟨fun g c hc => absurd ((hnone g).symm.trans hc) (by simp), fun g c hc => absurd ((hnone g).symm.trans hc) (by simp),
    fun g c hc => absurd ((hnone g).symm.trans hc) (by simp)⟩

/-! ## The targets of actions -/

/-- every action keeps its target -/
def Aimed (i j : Impl) : Prop :=
  ∀ id a, i.state.actions.find id = some a → ∃ a', j.state.actions.find id = some a' ∧ a'.target = a.target

theorem Aimed.refl (i : Impl) : Aimed i i := fun _ a h => ⟨a, h, rfl⟩

theorem Aimed.trans {i j k : Impl} (h : Aimed i j) (h' : Aimed j k) : Aimed i k := by
  intro id a ha
  obtain ⟨b, hb, hab⟩ := h id a ha
  obtain ⟨c, hc, hbc⟩ := h' id b hb
  exact ⟨c, hc, hbc.trans hab⟩

theorem Aimed.of_eq {i j : Impl} (h : j.state.actions = i.state.actions) : Aimed i j := fun _ a ha => ⟨a, h ▸ ha, rfl⟩

theorem Aimed.emplace (i : Impl) (id : ActionId) (a : ContainmentAction) :
    Aimed i (i.withActions (i.state.actions.emplace id a)) := by
  intro k b hb
  have hkept : ¬ (id = k ∧ i.state.actions.find id = none) := by
    rintro ⟨rfl, hn⟩
    rw [hn] at hb
    simp at hb
  exact ⟨b, (OrderedMap.find_emplace _ _ _ _).trans (by rw [if_neg hkept, hb]), rfl⟩

theorem aimed_planActions (time : UInt64) (budget : ℕ) (record : ContainmentRecord) (ks : List ResourceId)
    (planned : List ActionId) {i j : Impl} (h : Aimed i j) :
    Aimed i (planActions time budget record ks planned j).1 := by
  induction ks generalizing planned j with
  | nil => exact h
  | cons k ks ih =>
    unfold planActions
    split
    · exact h
    · split
      · exact ih planned h
      · have hnext : Aimed j { j with nextAction := j.nextAction + 1 } := .of_eq rfl
        exact ih _ (h.trans (hnext.trans (Aimed.emplace _ _ _)))

theorem aimed_authorizeContainment (clk : Clock) (id : FaultId) (expected : FaultGeneration) (i : Impl) :
    Aimed i (authorizeContainment clk id expected i).impl := by
  unfold authorizeContainment
  split
  · exact .refl i
  split
  · exact .refl i
  · next fault _ _ radius _ =>
    obtain ⟨time, entry, hstored⟩ := commitContainment_stored clk id fault radius i
    rw [hstored]
    have hfenced : Aimed i (fenced clk id fault radius i) :=
      .of_eq ((frame_fenced clk id fault radius i).actions (by simp))
    have hplanned : Aimed i (plannedBy clk id fault radius i).1 := aimed_planActions _ _ _ _ _ hfenced
    exact hplanned

/-- the same actions, each with its target, and the same identifier to allocate next -/
structure Retained (i j : Impl) : Prop where
  next : j.nextAction = i.nextAction
  targets : ∀ id, (j.state.actions.find id).map (·.target) = (i.state.actions.find id).map (·.target)

theorem Retained.refl (i : Impl) : Retained i i := ⟨rfl, fun _ => rfl⟩

theorem Retained.trans {i j k : Impl} (h : Retained i j) (h' : Retained j k) : Retained i k :=
  ⟨h'.next.trans h.next, fun id => (h'.targets id).trans (h.targets id)⟩

theorem Retained.of_eq {i j : Impl} (hnext : j.nextAction = i.nextAction) (h : j.state.actions = i.state.actions) :
    Retained i j := ⟨hnext, fun _ => by rw [h]⟩

theorem Retained.aimed {i j : Impl} (h : Retained i j) : Aimed i j := by
  intro id a ha
  have hid := h.targets id
  rw [ha, Option.map_some] at hid
  exact Option.map_eq_some_iff.mp hid

theorem Retained.store {i j : Impl} {id : ActionId} {a a' : ContainmentAction} (h : i.state.actions.find id = some a)
    (hj : j.state.actions = i.state.actions.insert id a') (ht : a'.target = a.target)
    (hnext : j.nextAction = i.nextAction) : Retained i j := by
  refine ⟨hnext, fun k => ?_⟩
  rw [hj, OrderedMap.find_insert]
  split_ifs with hk
  · rw [← hk, h, Option.map_some, Option.map_some, ht]
  · rfl

theorem retained_dispatchOne (clk : Clock) (record : ContainmentRecord) (id : ActionId) {i : Impl} {d : Dispatch}
    (h : Retained i d.impl) : Retained i (dispatchOne clk record d id).impl := by
  unfold dispatchOne
  split
  · exact h
  · next a ha =>
    split_ifs
    · exact h
    · exact h.trans (.store ha rfl rfl rfl)
    · exact h.trans (.store ha rfl rfl rfl)

theorem retained_dispatchBegin (clk : Clock) (generation : ContainmentGeneration) (executorAttached : Bool) (i : Impl) :
    Retained i (dispatchBegin clk generation executorAttached i).impl := by
  unfold dispatchBegin
  split
  · exact .refl i
  · next record _ =>
    have hloop : ∀ (ids : List ActionId) (d : Dispatch), Retained i d.impl →
        Retained i (ids.foldl (dispatchOne clk record) d).impl := by
      intro ids
      induction ids with
      | nil => exact fun _ h => h
      | cons id ids ih => exact fun d h => ih _ (retained_dispatchOne clk record id h)
    exact hloop _ _ (.refl i)

theorem retained_settleOne (clk : Clock) (attempt : Attempt) {i : Impl} {d : Dispatch} (h : Retained i d.impl) :
    Retained i (settleOne clk d attempt).impl := by
  unfold settleOne
  split
  · exact h
  · next a ha =>
    split_ifs
    · exact h
    · split
      · exact h.trans (.store ha rfl rfl rfl)
      · exact h.trans (.store ha rfl rfl rfl)

theorem retained_dispatchEnd (clk : Clock) (attempts : List Attempt) (summary : DispatchSummary) (i : Impl) :
    Retained i (dispatchEnd clk attempts summary i).impl := by
  have hloop : ∀ (ts : List Attempt) (d : Dispatch), Retained i d.impl → Retained i (ts.foldl (settleOne clk) d).impl := by
    intro ts
    induction ts with
    | nil => exact fun _ h => h
    | cons t ts ih => exact fun d h => ih _ (retained_settleOne clk t h)
  exact hloop _ _ (.refl i)

/-- a report allocates no identifier -/
theorem delivery_nextAction (d : Delivery) (i : Impl) : (d.after i).nextAction = i.nextAction := by
  obtain ⟨clk, report⟩ := d
  cases report with
  | ack m =>
    show (recordActionAck clk m i).impl.nextAction = i.nextAction
    unfold recordActionAck
    split
    · rfl
    split
    · rfl
    split
    · rfl
    · rfl
  | result m =>
    have hclaimed : ∀ ks j, (if m.success = true then editEach (fun r => some (withResult m.mechanism r)) ks j
        else (j, [])).1.nextAction = j.nextAction := by
      intro ks j
      split
      · obtain ⟨g, hedit⟩ := editEach_frame (fun r => some (withResult m.mechanism r)) ks j
        rw [hedit]
        rfl
      · rfl
    show (recordActionResult clk m i).impl.nextAction = i.nextAction
    unfold recordActionResult
    split
    · rfl
    split
    · rfl
    split
    · rfl
    · exact hclaimed _ _

theorem retained_delivery (d : Delivery) (i : Impl) : Retained i (d.after i) := by
  by_cases h : ∃ b, Admits d.report i b ∧ d.report.opens b.status
  · obtain ⟨b, hb, ho⟩ := h
    obtain ⟨clk, report⟩ := d
    cases report with
    | ack m =>
      have hs : b.status = .dispatched := ho.elim id fun h => absurd h.1 (by simp [Report.isResult])
      exact .store hb.stored (recordActionAck_stores clk m i hb hs) rfl (delivery_nextAction ⟨clk, .ack m⟩ i)
    | result m =>
      exact .store hb.stored (recordActionResult_stores clk m i hb (ho.imp_right And.right)) rfl
        (delivery_nextAction ⟨clk, .result m⟩ i)
  · rw [delivery_refused d i fun b hb ho => h ⟨b, hb, ho⟩]
    exact .refl i

theorem retained_beginEpoch (clk : Clock) (nowMs : UInt64) (reason : Text) (i : Impl) :
    Retained i (beginEpoch clk nowMs reason i).impl := by
  refine ⟨rfl, fun id => ?_⟩
  have hfind : (beginEpoch clk nowMs reason i).impl.state.actions.find id =
      (i.state.actions.find id).map makeAmbiguous := OrderedMap.find_mapVals _ _ _
  rw [hfind, Option.map_map]
  congr 1
  funext a
  unfold Function.comp makeAmbiguous
  split_ifs <;> rfl

/-- no operation but a commitment adds an action, or changes a target -/
theorem retained_after (c : Call) (i : Impl) (h : ∀ id expected, c.op ≠ .authorizeContainment id expected) :
    Retained i (c.after i) := by
  have hframe := frame_run c i
  obtain ⟨clk, op⟩ := c
  cases op
  case authorizeContainment id expected => exact absurd rfl (h id expected)
  case dispatchBegin generation executorAttached => exact retained_dispatchBegin clk generation executorAttached i
  case dispatchEnd attempts summary => exact retained_dispatchEnd clk attempts summary i
  case recordActionAck ack => exact retained_delivery ⟨clk, .ack ack⟩ i
  case recordActionResult result => exact retained_delivery ⟨clk, .result result⟩ i
  case beginEpoch nowMs reason => exact retained_beginEpoch clk nowMs reason i
  all_goals exact .of_eq (hframe.nextAction (by simp [Op.parts])) (hframe.actions (by simp [Op.parts]))

/-- **Step.** Every operation keeps the targets. -/
theorem aimed_after (c : Call) (i : Impl) : Aimed i (c.after i) := by
  by_cases h : ∃ id expected, c.op = .authorizeContainment id expected
  · obtain ⟨id, expected, hop⟩ := h
    unfold Call.after
    rw [hop]
    exact aimed_authorizeContainment c.clk id expected i
  · exact (retained_after c i fun id expected hop => h ⟨id, expected, hop⟩).aimed

end FaultContainment.Containments
