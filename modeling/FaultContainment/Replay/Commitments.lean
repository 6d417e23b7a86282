/-
Faults, containments and actions, replayed.

A commitment writes all three, and stages them behind the edits of the resources it fences. It stores its containment and
its actions only under identities that are free, while a replica stores what it reads, so the two agree as long as the
counters are ahead of what they count. An action in flight may be ambiguous on one side only: an epoch advance leaves no
record of it, and a recovery makes it so again.

- `commitContainment_staged`: everything a commitment stages.
- `follows_faults`, `follows_containments`, `follows_actions`: each operation is followed.
-/
import FaultContainment.Dispatching.HandOff
import FaultContainment.Observations
import FaultContainment.References
import FaultContainment.Replay.Views

namespace FaultContainment.Replay

open FaultContainment.Lib FaultContainment.Ids FaultContainment.Enums FaultContainment.Records
open FaultContainment.DurableEvent FaultContainment.Engine FaultContainment.References
open FaultContainment.Dispatching (Numbered ActionsKeyed plannedBy committed fenced fenced_policy frame_fenced
  admitContainment_ok commitContainment_faults commitContainment_stored stageFault_containments)
open FaultContainment.Observations (Cataloged)

/-! ## Faults -/

/-- a fault is replayed under its own identity -/
theorem see_faultUpsert {f : FaultRecord} {key : FaultId} (hkey : f.evidence.id = key) (h : Option HistoryEvent) {i j : Impl}
    (hj : faultView.see j = faultView.see i) :
    faultView.see (applyEvent ⟨.faultUpsert, f, h⟩ j) = i.state.faults.insert key f := by
  have hfaults : j.state.faults = i.state.faults := hj
  subst hkey
  unfold faultView applyEvent
  dsimp only [Impl.withFaults]
  rw [hfaults]

/-- the fault of a containment that is settled or cleared is replayed -/
theorem see_stageFault {i j : Impl} (hkeyed : OrderedMap.Keyed (fun f => f.evidence.id) i.state.faults)
    (hj : faultView.see j = faultView.see i) (id : FaultId) (f : FaultRecord → Option FaultRecord)
    (hf : ∀ a b, f a = some b → b.evidence = a.evidence) :
    faultView.see (applyAll (stageFault id ((i.state.faults.find id).bind f) i).2 j) =
      (stageFault id ((i.state.faults.find id).bind f) i).1.state.faults := by
  cases hb : (i.state.faults.find id).bind f with
  | none => exact hj
  | some b =>
    obtain ⟨a, ha, hab⟩ := Option.bind_eq_some_iff.mp hb
    have hid : b.evidence.id = id := by
      rw [hf a b hab]
      exact hkeyed id a ha
    exact see_faultUpsert hid none hj

/-- a release off a containment, and the fault it may clear -/
theorem see_takeOffContainment (clk : Clock) (g : ContainmentGeneration) (id : ResourceId) {i j : Impl}
    (hkeyed : OrderedMap.Keyed (fun f => f.evidence.id) i.state.faults) (hj : faultView.see j = faultView.see i)
    (event : Event) (hevent : event.kind = .resourceUpsert) :
    faultView.see (applyAll (takeOffContainment clk g id i).2.2 (applyEvent event
        (applyAll (takeOffContainment clk g id i).2.1 j))) = (takeOffContainment clk g id i).1.state.faults := by
  have hquiet : ∀ k, faultView.see (applyEvent event k) = faultView.see k :=
    fun k => faultView.deaf event k (by rw [hevent]; simp [faultView])
  unfold takeOffContainment
  split
  · exact (hquiet j).trans hj
  · next c _ =>
    dsimp only
    split_ifs
    · refine (hquiet _).trans (see_stageFault
        (i := i.withContainments (i.state.containments.insert g (takeOff (clk 2) id c))) hkeyed hj c.fault
        (clearFault (clk 3)) ?_)
      intro a b hab
      unfold clearFault at hab
      split_ifs at hab
      rw [← Option.some.inj hab]
    · exact (hquiet j).trans hj

/-- the edits a commitment stages before its actions -/
def fencing (clk : Clock) (id : FaultId) (fault : FaultRecord) (radius : Records.BlastRadius) (i : Impl) : List Event :=
  let i' := i.withFaults (i.state.faults.insert id { fault with
    state := .containmentInProgress, containmentGeneration := radius.generation, lastUpdatedMs := clk 0 })
  let edited := editEach (fun r => some (fence (clk 0) i.state.workers radius.generation
    (outcomeQuarantines radius.recommended) r)) radius.mandatory i'
  edited.2 ++ (editEach (drain (clk 0)) radius.precautionary edited.1).2

/-- everything a commitment stages -/
theorem commitContainment_staged (clk : Clock) (id : FaultId) (fault : FaultRecord) (radius : Records.BlastRadius) (i : Impl) :
    ∃ entry, (commitContainment clk id fault radius i).staged =
      fencing clk id fault radius i ++ (plannedBy clk id fault radius i).2.2.map (fun a => ⟨.actionUpsert, a, none⟩) ++
        ⟨.containmentUpsert, committed clk id fault radius i, entry⟩ ::
          ([⟨.faultUpsert, { fault with
            state := .containmentInProgress, containmentGeneration := radius.generation, lastUpdatedMs := clk 0 }, none⟩] ++
          [(commitContainment clk id fault radius i).impl.countersEvent]) := by
  unfold committed plannedBy
  rw [← fenced_policy clk id fault radius i]
  unfold commitContainment
  exact ⟨_, rfl⟩

/-- of what a commitment stages before its record, the edits come first -/
theorem see_fencing {V : Type} {v : View V} (hresources : .resourceUpsert ∉ v.kinds) (clk : Clock) (id : FaultId)
    (fault : FaultRecord) (radius : Records.BlastRadius) (i j : Impl) :
    v.see (applyAll (fencing clk id fault radius i) j) = v.see j := by
  refine v.deafAll (fun e he => ?_) j
  rcases List.mem_append.mp he with he | he
  · rwa [kind_editEach he]
  · rwa [kind_editEach he]

theorem see_planned {V : Type} {v : View V} (hactions : .actionUpsert ∉ v.kinds) (actions : List ContainmentAction)
    (j : Impl) : v.see (applyAll (actions.map fun a => ⟨.actionUpsert, a, none⟩) j) = v.see j := by
  refine v.deafAll (fun e he => ?_) j
  obtain ⟨a, -, rfl⟩ := List.mem_map.mp he
  exact hactions

theorem follows_faults (c : Call) {i : Impl} (hc : Cataloged i) : faultView.Follows c i := by
  have hframe := frame_run c i
  have hother : .counters ∉ faultView.kinds := by simp [faultView]
  obtain ⟨clk, op⟩ := c
  cases op
  case publishFault evidence =>
    intro j hj
    show faultView.see (applyAll (publishFault clk evidence i).staged j) = faultView.see (publishFault clk evidence i).impl
    have hallocated : (allocateFault evidence i).state = i.state := by
      unfold allocateFault
      split_ifs <;> rfl
    have hindex : (allocateFault evidence i).faultByDigest = i.faultByDigest := by
      unfold allocateFault
      split_ifs <;> rfl
    have hkept : faultView.see j = faultView.see (allocateFault evidence i) := by
      rw [hj]
      exact (congrArg RuntimeSnapshot.faults hallocated).symm
    unfold publishFault
    split
    · exact hj
    split
    · exact hj
    dsimp only
    split
    · exact hkept
    split
    · next id hid =>
      rw [hindex] at hid
      obtain ⟨f, hf, -⟩ := hc.stored _ id hid
      have hkey : f.evidence.id = id := hc.keyed id f hf
      unfold countDuplicate
      dsimp only
      rw [hallocated, hf, applyAll_cons, applyAll_nil]
      refine see_faultUpsert ?_ _ hj
      exact hkey
    · split
      · exact hkept
      · next hadmit =>
        unfold storeFault
        dsimp only
        rw [faultView.commit hother]
        have hfree : (allocateFault evidence i).state.faults.find (normalizeEvidence evidence i).id = none := by
          unfold admitFault at hadmit
          split_ifs at hadmit with hhas
          exact (OrderedMap.has_eq_false _ _).mp (Bool.eq_false_of_not_eq_true hhas)
        show _ = (allocateFault evidence i).state.faults.emplace (normalizeEvidence evidence i).id
          (newFault (clk 0) (normalizeEvidence evidence i) (allocateFault evidence i).state.policy)
        rw [OrderedMap.emplace_new _ _ hfree]
        refine see_faultUpsert ?_ none hkept
        rfl
  case supersedeFault id expected reason =>
    intro j hj
    show faultView.see (applyAll (supersedeFault clk id expected reason i).staged j) =
      faultView.see (supersedeFault clk id expected reason i).impl
    unfold supersedeFault
    split
    · exact hj
    · next f hadmit =>
      have hfind : i.state.faults.find id = some f := by
        unfold admitSupersede at hadmit
        split at hadmit
        · simp at hadmit
        · next hfind =>
          split_ifs at hadmit
          rw [hfind, Except.ok.inj hadmit]
      dsimp only
      rw [faultView.commit_one hother]
      refine see_faultUpsert ?_ _ hj
      exact hc.keyed id f hfind
  case authorizeContainment id expected =>
    intro j hj
    show faultView.see (applyAll (authorizeContainment clk id expected i).staged j) =
      (authorizeContainment clk id expected i).impl.state.faults
    unfold authorizeContainment
    split
    · exact hj
    · next fault hadmit =>
      split
      · exact hj
      · next radius hradius =>
        obtain ⟨entry, hstaged⟩ := commitContainment_staged clk id fault radius i
        have hfound := (admitContainment_ok hadmit).1
        rw [commitContainment_faults, hstaged, applyAll_append, applyAll_cons, applyAll_append]
        have hedited : faultView.see (applyAll (fencing clk id fault radius i ++
            (plannedBy clk id fault radius i).2.2.map fun a => ⟨.actionUpsert, a, none⟩) j) = faultView.see i := by
          rw [applyAll_append, see_planned (by simp [faultView]), see_fencing (by simp [faultView]), hj]
        refine see_faultUpsert ?_ none hedited
        exact hc.keyed id fault hfound
  case verifyContainment generation =>
    intro j hj
    show faultView.see (applyAll (verifyContainment clk generation i).staged j) =
      (verifyContainment clk generation i).impl.state.faults
    unfold verifyContainment
    split
    · exact hj
    · next record hadmit =>
      rw [faultView.commit hother]
      refine see_stageFault (i := { i with state := { i.state with
          verificationGeneration := nextGeneration i.state.verificationGeneration
          containments := i.state.containments.insert generation (withVerification (clk 0)
            (verificationOf i.state record generation (clk 0)) record) } }) hc.keyed hj record.fault
        (settleFault (clk 0) (verificationOf i.state record generation (clk 0))) ?_
      intro a b hab
      unfold settleFault at hab
      split_ifs at hab
      rw [← Option.some.inj hab]
  case authorizeRelease request =>
    intro j hj
    show faultView.see (applyAll (authorizeRelease clk request i).staged j) =
      (authorizeRelease clk request i).impl.state.faults
    unfold authorizeRelease
    dsimp only
    split
    · rw [faultView.commit_one hother]
      exact hj
    · split
      · exact hj
      · unfold grantRelease
        dsimp only
        rw [faultView.commit hother]
        refine see_takeOffContainment clk _ request.resource ?_ ?_ _ rfl
        · exact hc.keyed
        · exact hj
  all_goals
    exact faultView.follows_foreign (by simp [faultView, Op.kinds]) (hframe.faults (by simp [Op.parts]))

/-! ## Containments -/

/-- a containment is replayed under its own generation -/
theorem see_containmentUpsert {r : ContainmentRecord} {key : ContainmentGeneration} (hkey : r.generation = key)
    (h : Option HistoryEvent) {i j : Impl} (hj : containmentView.see j = containmentView.see i) :
    containmentView.see (applyEvent ⟨.containmentUpsert, r, h⟩ j) = i.state.containments.insert key r := by
  have hcontainments : j.state.containments = i.state.containments := hj
  subst hkey
  unfold containmentView applyEvent
  dsimp only [Impl.withContainments]
  rw [hcontainments]

/-- a change of a fault is none of a containment -/
theorem see_faultUpserts {V : Type} {v : View V} (hfaults : .faultUpsert ∉ v.kinds) (id : FaultId) (f : Option FaultRecord)
    (i j : Impl) : v.see (applyAll (stageFault id f i).2 j) = v.see j :=
  v.deafAll (fun _ he => by rwa [kind_stageFault he]) j

/-- a release off a containment -/
theorem see_takenOff (clk : Clock) (g : ContainmentGeneration) (id : ResourceId) {i j : Impl} (hn : Numbered i)
    (hj : containmentView.see j = containmentView.see i) (event : Event) (hevent : event.kind = .resourceUpsert) :
    containmentView.see (applyAll (takeOffContainment clk g id i).2.2 (applyEvent event
        (applyAll (takeOffContainment clk g id i).2.1 j))) = (takeOffContainment clk g id i).1.state.containments := by
  have hquiet : ∀ k, containmentView.see (applyEvent event k) = containmentView.see k :=
    fun k => containmentView.deaf event k (by rw [hevent]; simp [containmentView])
  have hfaults : .faultUpsert ∉ containmentView.kinds := by simp [containmentView]
  unfold takeOffContainment
  split
  · exact (hquiet j).trans hj
  · next c hc =>
    have hkey : (takeOff (clk 2) id c).generation = g := (hn g c hc).1
    dsimp only
    split_ifs
    · rw [stageFault_containments]
      exact see_containmentUpsert hkey none ((hquiet _).trans ((see_faultUpserts hfaults _ _ _ j).trans hj))
    · exact see_containmentUpsert hkey none ((hquiet j).trans hj)

/-- a containment needs a generation that was never taken, and an action identity for each resource -/
def Room (c : Call) (i : Impl) : Prop :=
  ∀ id expected, c.op = .authorizeContainment id expected → Unsaturated i.state.containmentGeneration ∧
    i.nextAction.toNat + i.state.topology.resources.size < 2 ^ 64

/-- the operation commits a containment -/
def isCommitment : Op → Bool
  | .authorizeContainment _ _ => true
  | _ => false

theorem room_iff (c : Call) (i : Impl) : Room c i ↔ (isCommitment c.op = true →
    Unsaturated i.state.containmentGeneration ∧ i.nextAction.toNat + i.state.topology.resources.size < 2 ^ 64) := by
  constructor
  · intro h hcommits
    unfold isCommitment at hcommits
    split at hcommits
    · next id expected hop => exact h id expected hop
    · cases hcommits
  · intro h id expected hop
    exact h (by rw [hop]; rfl)

instance decidableRoom (c : Call) (i : Impl) : Decidable (Room c i) := decidable_of_iff _ (room_iff c i).symm

/-- a generation that was never taken is free -/
theorem free_of_numbered {i : Impl} (hn : Numbered i) (hroom : Unsaturated i.state.containmentGeneration)
    {fault : FaultRecord} {radius : Records.BlastRadius} (hradius : admitRadius fault i = .ok radius) :
    i.state.containments.find radius.generation = none := by
  by_contra hne
  obtain ⟨b, hb⟩ := Option.ne_none_iff_exists'.mp hne
  have hle := (hn _ b hb).2
  rw [admitRadius_generation hradius] at hle
  exact absurd (Dispatching.lt_nextGeneration hroom) (not_lt.mpr hle)

theorem follows_containments (c : Call) {i : Impl} (hn : Numbered i) (hroom : Room c i) : containmentView.Follows c i := by
  have hframe := frame_run c i
  have hother : .counters ∉ containmentView.kinds := by simp [containmentView]
  have hfaults : .faultUpsert ∉ containmentView.kinds := by simp [containmentView]
  obtain ⟨clk, op⟩ := c
  cases op
  case verifyContainment generation =>
    intro j hj
    show containmentView.see (applyAll (verifyContainment clk generation i).staged j) =
      (verifyContainment clk generation i).impl.state.containments
    unfold verifyContainment
    split
    · exact hj
    · next record hadmit =>
      dsimp only
      rw [containmentView.commit hother, commit_containments, stageFault_containments]
      refine see_containmentUpsert ?_ none ((see_faultUpserts hfaults _ _ _ j).trans hj)
      exact (hn generation record (Containments.admitVerify_ok hadmit).1).1
  case authorizeContainment id expected =>
    intro j hj
    show containmentView.see (applyAll (authorizeContainment clk id expected i).staged j) =
      (authorizeContainment clk id expected i).impl.state.containments
    unfold authorizeContainment
    split
    · exact hj
    · split
      · exact hj
      · next fault hadmit _ radius hradius =>
        obtain ⟨entry, hstaged⟩ := commitContainment_staged clk id fault radius i
        obtain ⟨_, _, hstored⟩ := commitContainment_stored clk id fault radius i
        have hedited : containmentView.see (applyAll (fencing clk id fault radius i ++
            (plannedBy clk id fault radius i).2.2.map fun a => ⟨.actionUpsert, a, none⟩) j) = containmentView.see i := by
          rw [applyAll_append, see_planned (by simp [containmentView]), see_fencing (by simp [containmentView]), hj]
        rw [hstored, hstaged, applyAll_append, applyAll_cons, applyAll_append]
        show _ = i.state.containments.emplace radius.generation (committed clk id fault radius i)
        rw [OrderedMap.emplace_new _ _ (free_of_numbered hn (hroom id expected rfl).1 hradius)]
        exact see_containmentUpsert rfl none hedited
  case authorizeRelease request =>
    intro j hj
    show containmentView.see (applyAll (authorizeRelease clk request i).staged j) =
      (authorizeRelease clk request i).impl.state.containments
    unfold authorizeRelease
    dsimp only
    split
    · rw [containmentView.commit_one hother]
      exact hj
    · split
      · exact hj
      · unfold grantRelease
        dsimp only
        rw [containmentView.commit hother, commit_containments]
        refine see_takenOff clk _ request.resource ?_ ?_ _ rfl
        · exact hn
        · exact hj
  all_goals
    exact containmentView.follows_foreign (by simp [containmentView, Op.kinds]) (hframe.containments (by simp [Op.parts]))

/-! ## Actions -/

theorem settled_insert (m : OrderedMap ActionId ContainmentAction) (k : ActionId) (a : ContainmentAction) :
    settled (m.insert k a) = (settled m).insert k (makeAmbiguous a) := by
  refine OrderedMap.ext fun k' => ?_
  unfold settled
  rw [OrderedMap.find_mapVals, OrderedMap.find_insert, OrderedMap.find_insert, OrderedMap.find_mapVals]
  split_ifs <;> rfl

theorem makeAmbiguous_twice (a : ContainmentAction) : makeAmbiguous (makeAmbiguous a) = makeAmbiguous a := by
  have hstill := Dispatching.inFlight_makeAmbiguous a
  generalize makeAmbiguous a = b at hstill ⊢
  unfold makeAmbiguous
  rw [if_neg]
  rintro (h | h | h) <;> simp [h, Dispatching.inFlight] at hstill

theorem settled_twice (m : OrderedMap ActionId ContainmentAction) : settled (settled m) = settled m := by
  refine OrderedMap.ext fun k => ?_
  unfold settled
  rw [OrderedMap.find_mapVals, OrderedMap.find_mapVals, Option.map_map]
  exact congrArg (fun f => Option.map f (m.find k)) (funext makeAmbiguous_twice)

/-- an action is replayed under its own identity -/
theorem see_actionUpsert {a : ContainmentAction} {key : ActionId} (hkey : a.id = key) (h : Option HistoryEvent) {i j : Impl}
    (hj : actionView.see j = actionView.see i) :
    actionView.see (applyEvent ⟨.actionUpsert, a, h⟩ j) = settled (i.state.actions.insert key a) := by
  have hactions : settled j.state.actions = settled i.state.actions := hj
  subst hkey
  show settled (j.state.actions.insert a.id a) = _
  rw [settled_insert, settled_insert, hactions]

/-- what a dispatch loop has staged, replayed, is the state it has reached -/
def Followed (d : Dispatch) (j : Impl) : Prop :=
  ActionsKeyed d.impl ∧ actionView.see (applyAll d.staged j) = actionView.see d.impl

theorem Followed.stage {d d' : Dispatch} {j : Impl} (h : Followed d j) (himpl : d'.impl = d.impl)
    (hstaged : d'.staged = d.staged) (time : UInt64) {key : ActionId} {a : ContainmentAction} (hkey : a.id = key)
    (entry : HistoryEvent) : Followed (d'.stage time key a entry) j := by
  unfold Followed Engine.Dispatch.stage
  dsimp only
  rw [himpl, hstaged]
  refine ⟨OrderedMap.Keyed.insert h.1 hkey, ?_⟩
  rw [applyAll_append]
  exact see_actionUpsert hkey none h.2

theorem followed_dispatchOne (clk : Clock) (record : ContainmentRecord) {d : Dispatch} {j : Impl}
    (h : Followed d j) (id : ActionId) : Followed (dispatchOne clk record d id) j := by
  unfold dispatchOne
  split
  · exact h
  · next action hfind =>
    have hkey : action.id = id := h.1 id action hfind
    split
    · exact h
    split
    · unfold Engine.Dispatch.reject
      exact Followed.stage h rfl rfl _ (by exact hkey) _
    · unfold Engine.Dispatch.authorize
      exact Followed.stage h rfl rfl _ (by exact hkey) _

theorem followed_settleOne (clk : Clock) {d : Dispatch} {j : Impl} (h : Followed d j) (attempt : Attempt) :
    Followed (settleOne clk d attempt) j := by
  unfold settleOne
  split
  · exact h
  · next action hfind =>
    have hkey : action.id = attempt.1.id := h.1 _ action hfind
    split
    · exact h
    split
    · unfold Engine.Dispatch.accept
      exact Followed.stage h rfl rfl _ (by exact hkey) _
    · unfold Engine.Dispatch.decline
      exact Followed.stage h rfl rfl _ (by exact hkey) _

theorem followed_loop {β : Type} {f : Dispatch → β → Dispatch} {j : Impl}
    (hf : ∀ d b, Followed d j → Followed (f d b) j) (bs : List β) {d : Dispatch}
    (h : Followed d j) : Followed (bs.foldl f d) j := by
  induction bs generalizing d with
  | nil => exact h
  | cons b bs ih => exact ih (hf d b h)

/-- planning stores under free identities, which is where a replica stores -/
theorem see_planActions (time : UInt64) (budget : ℕ) (record : ContainmentRecord) (ks : List ResourceId)
    (planned : List ActionId) {i j : Impl} (h : Allocated i)
    (hroom : i.nextAction.toNat + stored i.state.topology.resources ks < 2 ^ 64)
    (hj : actionView.see j = actionView.see i) :
    actionView.see (applyAll ((planActions time budget record ks planned i).2.2.map fun a => ⟨.actionUpsert, a, none⟩) j) =
      actionView.see (planActions time budget record ks planned i).1 := by
  induction ks generalizing planned i j with
  | nil => exact hj
  | cons k ks ih =>
    unfold planActions
    by_cases hbudget : budget ≤ planned.length
    · rw [if_pos hbudget]
      exact hj
    rw [if_neg hbudget]
    cases hk : i.state.topology.resources.find k with
    | none =>
      have hcount : stored i.state.topology.resources (k :: ks) = stored i.state.topology.resources ks := by
        have hhas := (OrderedMap.has_eq_false i.state.topology.resources k).mpr hk
        simp [stored, hhas]
      rw [hcount] at hroom
      exact ih planned h hroom hj
    | some r =>
      have hcount : stored i.state.topology.resources (k :: ks) = stored i.state.topology.resources ks + 1 := by
        have hhas := (OrderedMap.has_iff i.state.topology.resources k).mpr ⟨r, hk⟩
        simp [stored, hhas]
      rw [hcount] at hroom
      have hfree : i.state.actions.find ⟨i.nextAction⟩ = none := by
        by_contra hne
        obtain ⟨a, ha⟩ := Option.ne_none_iff_exists'.mp hne
        exact lt_irrefl _ (h _ a ha)
      have hnext : (i.nextAction + 1).toNat = i.nextAction.toNat + 1 := by
        rw [UInt64.toNat_add]
        exact Nat.mod_eq_of_lt (lt_of_le_of_lt (Nat.add_le_add_left (Nat.le_add_left _ _) _) hroom)
      dsimp only
      rw [List.map_cons, applyAll_cons]
      refine ih _ ?_ ?_ ?_
      · intro id a ha
        replace ha : (i.state.actions.emplace ⟨i.nextAction⟩ (planAction time record ⟨i.nextAction⟩ k r i.state)).find id =
          some a := ha
        rw [OrderedMap.find_emplace] at ha
        show id.value.toNat < (i.nextAction + 1).toNat
        rw [hnext]
        split_ifs at ha with hid
        · rw [← hid.1]
          exact Nat.lt_succ_self _
        · exact Nat.lt_succ_of_lt (h id a ha)
      · show (i.nextAction + 1).toNat + stored i.state.topology.resources ks < 2 ^ 64
        rw [hnext]
        omega
      · show _ = settled (i.state.actions.emplace ⟨i.nextAction⟩ (planAction time record ⟨i.nextAction⟩ k r i.state))
        rw [OrderedMap.emplace_new _ _ hfree]
        exact see_actionUpsert rfl none hj

/-- a set of resources is no larger than the table it is stored in -/
theorem stored_le {m : Engine.Grouping.Resources} {ks : List ResourceId} (h : SortedSet ks) : stored m ks ≤ m.size := by
  have hnodup : (ks.filter fun k => m.has k).Nodup := (h.imp fun hlt => ne_of_lt hlt).filter _
  have hsub : (ks.filter fun k => m.has k) ⊆ m.toList.map Prod.fst := by
    intro k hk
    obtain ⟨v, hv⟩ := (OrderedMap.has_iff _ _).mp (of_decide_eq_true (by simpa using (List.mem_filter.mp hk).2))
    exact List.mem_map.mpr ⟨(k, v), (OrderedMap.mem_toList _ _ _).mpr hv, rfl⟩
  unfold stored
  rw [List.countP_eq_length_filter, ← OrderedMap.length_toList, ← List.length_map (f := Prod.fst)]
  exact (List.subperm_of_subset hnodup hsub).length_le

/-- planning has identities for every resource that is fenced -/
theorem fenced_room (clk : Clock) {id : FaultId} {fault : FaultRecord} {radius : Records.BlastRadius} {i : Impl}
    (halloc : Allocated i) (hroom : i.nextAction.toNat + i.state.topology.resources.size < 2 ^ 64)
    (hradius : admitRadius fault i = .ok radius) :
    Allocated (fenced clk id fault radius i) ∧ (fenced clk id fault radius i).nextAction.toNat +
      stored (fenced clk id fault radius i).state.topology.resources radius.mandatory < 2 ^ 64 := by
  have hframe := frame_fenced clk id fault radius i
  have hnext := hframe.nextAction (by simp)
  have hcount := stored_le (m := i.state.topology.resources)
    (BlastRadius.mandatory_sorted (admitRadius_ok hradius))
  constructor
  · intro a x hx
    rw [hframe.actions (by simp)] at hx
    rw [hnext]
    exact halloc a x hx
  · rw [hnext, stored_fenced]
    omega

theorem follows_actions (c : Call) {i : Impl} (hkeyed : ActionsKeyed i) (halloc : Allocated i) (hroom : Room c i) :
    actionView.Follows c i := by
  have hframe := frame_run c i
  have hother : .counters ∉ actionView.kinds := by simp [actionView]
  obtain ⟨clk, op⟩ := c
  cases op
  case beginEpoch nowMs reason =>
    refine actionView.follows_foreign (by simp [actionView, Op.kinds]) ?_
    exact settled_twice _
  case authorizeContainment id expected =>
    intro j hj
    have hrun : events ⟨clk, .authorizeContainment id expected⟩ i = (authorizeContainment clk id expected i).staged := rfl
    have hafter : (⟨clk, .authorizeContainment id expected⟩ : Call).after i = (authorizeContainment clk id expected i).impl :=
      rfl
    rw [hrun, hafter]
    cases hfault : admitContainment id expected i with
    | error e =>
      unfold authorizeContainment
      rw [hfault]
      exact hj
    | ok fault =>
      cases hradius : admitRadius fault i with
      | error e =>
        unfold authorizeContainment
        rw [hfault]
        dsimp only
        rw [hradius]
        exact hj
      | ok radius =>
        rw [authorizeContainment_admitted clk hfault hradius]
        obtain ⟨entry, hstaged⟩ := commitContainment_staged clk id fault radius i
        obtain ⟨_, _, hstored⟩ := commitContainment_stored clk id fault radius i
        rw [hstored]
        obtain ⟨halloc, hroom⟩ := fenced_room clk halloc (hroom id expected rfl).2 hradius
        have hedited : actionView.see (applyAll (fencing clk id fault radius i) j) =
            actionView.see (fenced clk id fault radius i) := by
          rw [see_fencing (by simp [actionView]), hj]
          exact congrArg settled ((frame_fenced clk id fault radius i).actions (by simp)).symm
        rw [hstaged, applyAll_append, applyAll_append]
        exact see_planActions _ _ _ _ _ halloc hroom hedited
  case dispatchBegin generation executorAttached =>
    intro j hj
    show actionView.see (applyAll (dispatchBegin clk generation executorAttached i).staged j) =
      actionView.see (dispatchBegin clk generation executorAttached i).impl
    unfold dispatchBegin
    split
    · exact hj
    · next record _ =>
      have hloop := followed_loop (fun d id h => followed_dispatchOne clk record h id) record.actions
        (d := { impl := i, summary := { containmentGeneration := generation } }) (j := j) ⟨hkeyed, hj⟩
      dsimp only
      rw [applyAll_append]
      exact hloop.2
  case dispatchEnd attempts summary =>
    intro j hj
    show actionView.see (applyAll (dispatchEnd clk attempts summary i).staged j) =
      actionView.see (dispatchEnd clk attempts summary i).impl
    unfold dispatchEnd
    have hloop := followed_loop (fun d attempt h => followed_settleOne clk h attempt) attempts
      (d := { impl := i, summary := summary }) (j := j) ⟨hkeyed, hj⟩
    dsimp only
    rw [applyAll_append]
    exact hloop.2
  case recordActionAck ack =>
    intro j hj
    show actionView.see (applyAll (recordActionAck clk ack i).staged j) = actionView.see (recordActionAck clk ack i).impl
    unfold recordActionAck
    split
    · exact hj
    · next action hadmit =>
      split
      · exact hj
      split
      · exact hj
      · dsimp only
        rw [actionView.commit_one hother]
        refine see_actionUpsert ?_ none hj
        exact hkeyed _ action (Dispatching.admitReport_find hadmit)
  case recordActionResult result =>
    intro j hj
    show actionView.see (applyAll (recordActionResult clk result i).staged j) =
      actionView.see (recordActionResult clk result i).impl
    unfold recordActionResult
    split
    · exact hj
    · next action hadmit =>
      split
      · exact hj
      split
      · exact hj
      · dsimp only
        rw [actionView.commit hother]
        have hkey := hkeyed _ action (Dispatching.admitReport_find hadmit)
        by_cases hsuccess : result.success = true
        · simp only [if_pos hsuccess]
          have hclaimed : ∀ f ks (k : Impl), actionView.see (applyAll (editEach f ks k).2 j) = actionView.see j :=
            fun f ks k => actionView.deafAll (fun e he => by rw [kind_editEach he]; simp [actionView]) j
          have hframe' := fun f ks => Frame.editEach (S := topologyParts) (by simp) (by simp) f ks
            (.refl _ (i.withActions (i.state.actions.insert result.action { action with
              status := .resultRecorded, completedAtMs := clk 0
              mechanism := if result.mechanism ≠ .none then result.mechanism else action.mechanism })))
          refine (see_actionUpsert (i := i) ?_ none ((hclaimed _ _ _).trans hj)).trans
            (congrArg settled ((hframe' _ _).actions (by simp)).symm)
          exact hkey
        · simp only [if_neg hsuccess]
          refine see_actionUpsert ?_ none hj
          exact hkey
  all_goals
    exact actionView.follows_foreign (by simp [actionView, Op.kinds])
      (congrArg settled (hframe.actions (by simp [Op.parts])))

end FaultContainment.Replay
