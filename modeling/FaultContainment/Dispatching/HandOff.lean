/-
Concurrent dispatchers: handing actions to the executor.

A call of `dispatch_containment` is a first locked section that makes the hand-off list, one call of the executor for each
entry of the list with no lock held, and a second locked section. Any number of calls run at once, between any other
operations of the engine; `System` is the engine, the calls in progress, and the identities handed to the executor so far.

- `inv_after`: the lists of two calls are apart, and apart from what was handed over.
- `handOff_run`: as long as no first section takes an action that is already authorised, no identity is handed over twice.
-/
import FaultContainment.Dispatching.Lifecycle

namespace FaultContainment.Dispatching

open FaultContainment.Lib FaultContainment.Ids FaultContainment.Enums FaultContainment.Records
open FaultContainment.DurableEvent FaultContainment.Engine

/-! ## The system -/

/-- a call between its two sections: what is still to be handed over, and what the executor made of the rest -/
structure InProgress where
  todo : List ContainmentAction
  attempts : List Attempt := []
  summary : DispatchSummary := {}

/-- the engine, the calls in progress by number, and the identities handed to the executor -/
structure System where
  impl : Impl
  calls : ℕ → Option InProgress := fun _ => none
  handed : List ActionId := []

/-- the section belongs to a dispatch -/
def isDispatchSection : Op → Bool
  | .dispatchBegin _ _ | .dispatchEnd _ _ => true
  | _ => false

/-- one step of the system -/
inductive Event where
  | operation (c : Call)
  | start (n : ℕ) (clk : Clock) (generation : ContainmentGeneration)
  | handOff (n : ℕ) (outcome : Except Error Text)
  | finish (n : ℕ) (clk : Clock)

/-- the system after a step; a step that is not possible changes nothing -/
def Event.after : Event → System → System
  | .operation c, s => if isDispatchSection c.op then s else { s with impl := c.after s.impl }
  | .start n clk generation, s =>
    match s.calls n with
    | some _ => s
    | none =>
      let first := dispatchBegin clk generation true s.impl
      match first.result with
      | .error _ => { s with impl := first.impl }
      | .ok (todo, summary) =>
        { s with impl := first.impl, calls := Function.update s.calls n (some { todo := todo, summary := summary }) }
  | .handOff n outcome, s =>
    match s.calls n with
    | some ⟨action :: todo, attempts, summary⟩ =>
      { s with
        calls := Function.update s.calls n (some ⟨todo, attempts ++ [(action, outcome)], summary⟩)
        handed := s.handed ++ [action.id] }
    | _ => s
  | .finish n clk, s =>
    match s.calls n with
    | some ⟨[], attempts, summary⟩ =>
      { s with
        impl := (dispatchEnd clk attempts summary s.impl).impl
        calls := Function.update s.calls n none }
    | _ => s

/-! ## The first section -/

/-- the loop of the first section takes an action that is already authorised -/
def retakes (clk : Clock) (record : ContainmentRecord) : List ActionId → Dispatch → Bool
  | [], _ => false
  | id :: ids, d =>
    ((d.impl.state.actions.find id).any fun a =>
      a.status = .authorized && revalidateAction d.impl.state record a = .ok) ||
      retakes clk record ids (dispatchOne clk record d id)

/-- the first section of a dispatch takes an action that is already authorised -/
def Retakes (clk : Clock) (generation : ContainmentGeneration) (i : Impl) : Prop :=
  ∃ record, admitDispatch generation true i = .ok record ∧
    retakes clk record record.actions { impl := i, summary := { containmentGeneration := generation } } = true

theorem retakes_iff (clk : Clock) (generation : ContainmentGeneration) (i : Impl) :
    Retakes clk generation i ↔ ((admitDispatch generation true i).toOption.any fun record =>
      retakes clk record record.actions { impl := i, summary := { containmentGeneration := generation } }) = true := by
  unfold Retakes
  cases admitDispatch generation true i <;> simp [Except.toOption]

instance decidableRetakes (clk : Clock) (generation : ContainmentGeneration) (i : Impl) :
    Decidable (Retakes clk generation i) :=
  decidable_of_iff' _ (retakes_iff clk generation i)

/-- the action has left its planned status -/
def LeftPlanned (id : ActionId) (i : Impl) : Prop := ∃ a, i.state.actions.find id = some a ∧ a.status ≠ .planned

theorem reaches_ne_planned {st st' : ActionStatus} (h : Reaches st st') (hne : st ≠ .planned) : st' ≠ .planned := by
  induction h with
  | refl => exact hne
  | tail _ hmove _ => cases hmove <;> simp

theorem LeftPlanned.moves {id : ActionId} {i j : Impl} (h : LeftPlanned id i) (hm : Moves i j) : LeftPlanned id j := by
  obtain ⟨a, ha, hs⟩ := h
  obtain ⟨a', ha', hreach, -⟩ := hm.old id a ha
  exact ⟨a', ha', reaches_ne_planned hreach hs⟩

theorem leftPlanned_after (c : Call) {id : ActionId} {i : Impl} (h : LeftPlanned id i) : LeftPlanned id (c.after i) := by
  obtain ⟨a, ha, hs⟩ := h
  obtain ⟨a', ha', hreach⟩ := (reaches_after c i id).1 a ha
  exact ⟨a', ha', reaches_ne_planned hreach hs⟩

/-- actions are stored under their identities -/
abbrev ActionsKeyed (i : Impl) : Prop := OrderedMap.Keyed ContainmentAction.id i.state.actions

theorem ActionsKeyed.moves {i j : Impl} (h : ActionsKeyed i) (hm : Moves i j) : ActionsKeyed j := by
  intro id a' ha'
  cases ha : i.state.actions.find id with
  | none => exact (hm.new id a' ha ha').2.1
  | some a =>
    obtain ⟨b, hb, -, hid, -⟩ := hm.old id a ha
    obtain rfl : b = a' := Option.some.inj (hb.symm.trans ha')
    rw [hid]
    exact h id a ha

theorem actionsKeyed_after (c : Call) {i : Impl} (h : ActionsKeyed i) : ActionsKeyed (c.after i) := by
  by_cases hop : ∃ nowMs reason, c.op = .beginEpoch nowMs reason
  · obtain ⟨nowMs, reason, hop⟩ := hop
    obtain ⟨clk, op⟩ := c
    subst hop
    intro id a' ha'
    have ha' : (i.state.actions.mapVals fun _ a => makeAmbiguous a).find id = some a' := ha'
    rw [OrderedMap.find_mapVals] at ha'
    obtain ⟨a, ha, rfl⟩ := Option.map_eq_some_iff.mp ha'
    have hid : (makeAmbiguous a).id = a.id := by
      unfold makeAmbiguous
      split <;> rfl
    rw [hid]
    exact h id a ha
  · exact h.moves (moves_after c i fun nowMs reason he => hop ⟨nowMs, reason, he⟩)

/-- an action as the first section stores it and hands it over -/
def authorizedAt (nowMs : UInt64) (a : ContainmentAction) : ContainmentAction :=
  { a with status := .authorized, envelope := { a.envelope with issuedAtMs := nowMs } }

theorem authorize_find (d : Dispatch) (nowMs time : UInt64) (record : ContainmentRecord) (key : ActionId)
    (a : ContainmentAction) :
    (d.authorize nowMs time record key a).impl.state.actions.find key = some (authorizedAt nowMs a) :=
  OrderedMap.find_insert_self _ _ _

/-- what the first section takes from `d` on: actions still planned, each once, none of them planned afterwards -/
structure Takes (d d' : Dispatch) (taken : List ContainmentAction) : Prop where
  todo : d'.toDispatch = d.toDispatch ++ taken
  nodup : (taken.map (·.id)).Nodup
  planned : ∀ a ∈ taken, ¬ LeftPlanned a.id d.impl
  left : ∀ a ∈ taken, LeftPlanned a.id d'.impl

theorem Takes.nothing {d d' : Dispatch} (h : d'.toDispatch = d.toDispatch) : Takes d d' [] :=
  ⟨by simp [h], by simp, by simp, by simp⟩

theorem takes_dispatchOne (clk : Clock) (record : ContainmentRecord) (d : Dispatch) (hk : ActionsKeyed d.impl)
    (id : ActionId) (h : ((d.impl.state.actions.find id).any fun a =>
      a.status = .authorized && revalidateAction d.impl.state record a = .ok) = false) :
    ∃ taken, Takes d (dispatchOne clk record d id) taken := by
  unfold dispatchOne
  split
  · exact ⟨[], .nothing rfl⟩
  · next a ha =>
    split_ifs with hstatus hrefused
    · exact ⟨[], .nothing rfl⟩
    · exact ⟨[], .nothing rfl⟩
    · obtain rfl : a.id = id := hk id a ha
      have hplanned : a.status = .planned := by
        rw [ha] at h
        rcases not_and_or.mp hstatus with hs | hs
        · exact not_not.mp hs
        · simp [not_not.mp hs, not_not.mp hrefused] at h
      refine ⟨[authorizedAt (clk 0) a], rfl, by simp, fun b hb => ?_, fun b hb => ?_⟩
      · obtain rfl := List.mem_singleton.mp hb
        rintro ⟨c, hc, hne⟩
        obtain rfl : a = c := Option.some.inj (ha.symm.trans hc)
        exact hne hplanned
      · obtain rfl := List.mem_singleton.mp hb
        exact ⟨authorizedAt (clk 0) a, authorize_find d _ _ record a.id a, by simp [authorizedAt]⟩

theorem Takes.trans {d d' d'' : Dispatch} {taken taken' : List ContainmentAction} (h : Takes d d' taken)
    (h' : Takes d' d'' taken') (hm : Moves d.impl d'.impl) (hm' : Moves d'.impl d''.impl) :
    Takes d d'' (taken ++ taken') := by
  refine ⟨by rw [h'.todo, h.todo, List.append_assoc], ?_, fun a ha => ?_, fun a ha => ?_⟩
  · rw [List.map_append, List.nodup_append]
    refine ⟨h.nodup, h'.nodup, ?_⟩
    rintro id hid _ hid' rfl
    obtain ⟨a, ha, rfl⟩ := List.mem_map.mp hid
    obtain ⟨b, hb, hab⟩ := List.mem_map.mp hid'
    exact h'.planned b hb (hab ▸ h.left a ha)
  · rcases List.mem_append.mp ha with ha | ha
    · exact h.planned a ha
    · exact fun hleft => h'.planned a ha (hleft.moves hm)
  · rcases List.mem_append.mp ha with ha | ha
    · exact (h.left a ha).moves hm'
    · exact h'.left a ha

/-- a first section that takes no authorised action takes planned ones, each once -/
theorem takes_dispatchBegin {clk : Clock} {generation : ContainmentGeneration} {i : Impl} (hk : ActionsKeyed i)
    (h : ¬ Retakes clk generation i) {todo : List ContainmentAction} {summary : DispatchSummary}
    (hok : (dispatchBegin clk generation true i).result = .ok (todo, summary)) :
    (todo.map (·.id)).Nodup ∧ (∀ a ∈ todo, ¬ LeftPlanned a.id i) ∧
      ∀ a ∈ todo, LeftPlanned a.id (dispatchBegin clk generation true i).impl := by
  unfold dispatchBegin at hok ⊢
  split at hok
  · simp [Step.refuse] at hok
  · next record hadmitted =>
    have hloop : ∀ (ids : List ActionId) (d : Dispatch), ActionsKeyed d.impl → retakes clk record ids d = false →
        ∃ taken, Takes d (ids.foldl (dispatchOne clk record) d) taken := by
      intro ids
      induction ids with
      | nil => exact fun d _ _ => ⟨[], .nothing rfl⟩
      | cons id ids ih =>
        intro d hd hr
        obtain ⟨hone, hrest⟩ := Bool.or_eq_false_iff.mp hr
        have hmoves := moves_dispatchOne clk record (.refl d.impl) id
        obtain ⟨taken, ht⟩ := takes_dispatchOne clk record d hd id hone
        obtain ⟨taken', ht'⟩ := ih _ (hd.moves hmoves) hrest
        exact ⟨_, ht.trans ht' hmoves (moves_dispatchLoop clk record ids (.refl _))⟩
    have hfree : retakes clk record record.actions
        { impl := i, summary := { containmentGeneration := generation } } = false := by
      by_contra hne
      exact h ⟨record, hadmitted, Bool.eq_true_of_not_eq_false hne⟩
    obtain ⟨taken, ht⟩ := hloop record.actions { impl := i, summary := { containmentGeneration := generation } } hk hfree
    obtain rfl : taken = todo := (List.nil_append taken).symm.trans (ht.todo.symm.trans (congrArg Prod.fst (Except.ok.inj hok)))
    exact ⟨ht.nodup, ht.planned, ht.left⟩

/-! ## Runs of the system -/

/-- the identities a call still has to hand over -/
def System.todo (s : System) (n : ℕ) : List ActionId := ((s.calls n).map fun p => p.todo.map (·.id)).getD []

/-- what the first sections took is handed over once: the lists still open are apart, and apart from what was handed over -/
structure Inv (s : System) : Prop where
  keyed : ActionsKeyed s.impl
  handed : s.handed.Nodup
  handedLeft : ∀ id ∈ s.handed, LeftPlanned id s.impl
  todo : ∀ n, (s.todo n).Nodup
  todoLeft : ∀ n, ∀ id ∈ s.todo n, LeftPlanned id s.impl
  fresh : ∀ n, ∀ id ∈ s.todo n, id ∉ s.handed
  apart : ∀ m n, m ≠ n → ∀ id ∈ s.todo m, id ∉ s.todo n

/-- no first section takes an action that is already authorised -/
def FirstTake : Event → System → Prop
  | .start n clk generation, s => s.calls n = none → ¬ Retakes clk generation s.impl
  | _, _ => True

instance decidableFirstTake : (e : Event) → (s : System) → Decidable (FirstTake e s)
  | .operation _, _ => isTrue trivial
  | .start n clk generation, s =>
    decidable_of_iff ((s.calls n).isSome ∨ ¬ Retakes clk generation s.impl) (by
      rw [Option.isSome_iff_ne_none]
      exact imp_iff_not_or.symm)
  | .handOff _ _, _ => isTrue trivial
  | .finish _ _, _ => isTrue trivial

/-- the engine moved on; the calls and what was handed over are as they were -/
theorem Inv.engine {s : System} (h : Inv s) {i : Impl} (hkeyed : ActionsKeyed i)
    (hleft : ∀ id, LeftPlanned id s.impl → LeftPlanned id i) : Inv { s with impl := i } where
  keyed := hkeyed
  handed := h.handed
  handedLeft id hid := hleft id (h.handedLeft id hid)
  todo := h.todo
  todoLeft n id hid := hleft id (h.todoLeft n id hid)
  fresh := h.fresh
  apart := h.apart

theorem Inv.moves {s : System} (h : Inv s) {i : Impl} (hm : Moves s.impl i) : Inv { s with impl := i } :=
  h.engine (h.keyed.moves hm) fun _ hid => hid.moves hm

/-- one call's list replaced by `ids` -/
theorem todo_update (s : System) (n m : ℕ) (p : Option InProgress) (i : Impl) (handed : List ActionId) :
    System.todo { impl := i, calls := Function.update s.calls n p, handed := handed } m =
      if m = n then (p.map fun p => p.todo.map (·.id)).getD [] else s.todo m := by
  unfold System.todo
  dsimp only
  by_cases hm : m = n
  · rw [if_pos hm, hm, Function.update_self]
  · rw [if_neg hm, Function.update_of_ne hm]

/-- a call starts with a list of actions nobody took before -/
theorem Inv.start {s : System} (h : Inv s) {n : ℕ} {clk : Clock}
    {generation : ContainmentGeneration} (hfirst : ¬ Retakes clk generation s.impl) {todo : List ContainmentAction}
    {summary : DispatchSummary} (hok : (dispatchBegin clk generation true s.impl).result = .ok (todo, summary)) :
    Inv { s with
      impl := (dispatchBegin clk generation true s.impl).impl
      calls := Function.update s.calls n (some { todo := todo, summary := summary }) } := by
  obtain ⟨hnodup, hplanned, hleft⟩ := takes_dispatchBegin h.keyed hfirst hok
  have hnew : ∀ id ∈ todo.map (·.id), ¬ LeftPlanned id s.impl ∧
      LeftPlanned id (dispatchBegin clk generation true s.impl).impl := by
    intro id hid
    obtain ⟨a, ha, rfl⟩ := List.mem_map.mp hid
    exact ⟨hplanned a ha, hleft a ha⟩
  have hmoved := h.moves (moves_dispatchBegin clk generation true s.impl)
  refine ⟨hmoved.keyed, h.handed, hmoved.handedLeft, fun m => ?_, fun m id => ?_, fun m id => ?_, fun l m hlm id => ?_⟩
  · rw [todo_update]
    split_ifs
    · exact hnodup
    · exact h.todo m
  · rw [todo_update]
    split_ifs
    · exact fun hid => (hnew id hid).2
    · exact hmoved.todoLeft m id
  · rw [todo_update]
    split_ifs
    · exact fun hid hhanded => (hnew id hid).1 (h.handedLeft id hhanded)
    · exact h.fresh m id
  · rw [todo_update, todo_update]
    split_ifs with hl hm hm
    · exact absurd (hl.trans hm.symm) hlm
    · exact fun hid hother => (hnew id hid).1 (h.todoLeft m id hother)
    · exact fun hother hid => (hnew id hid).1 (h.todoLeft l id hother)
    · exact h.apart l m hlm id

/-- a call hands over the first action of its list -/
theorem Inv.handOff {s : System} (h : Inv s) {n : ℕ} {a : ContainmentAction} {todo : List ContainmentAction}
    {attempts : List Attempt} {summary : DispatchSummary} (hcall : s.calls n = some ⟨a :: todo, attempts, summary⟩)
    (outcome : Except Error Text) :
    Inv { s with
      calls := Function.update s.calls n (some ⟨todo, attempts ++ [(a, outcome)], summary⟩)
      handed := s.handed ++ [a.id] } := by
  have htodo : s.todo n = a.id :: todo.map (·.id) := by
    unfold System.todo
    rw [hcall]
    rfl
  have hhead : a.id ∈ s.todo n := by
    rw [htodo]
    exact List.mem_cons_self
  have hrest : ∀ id ∈ todo.map (·.id), id ∈ s.todo n := by
    intro id hid
    rw [htodo]
    exact List.mem_cons_of_mem _ hid
  obtain ⟨hnotin, htail⟩ := List.nodup_cons.mp (htodo ▸ h.todo n)
  refine ⟨h.keyed, ?_, fun id hid => ?_, fun m => ?_, fun m id => ?_, fun m id => ?_, fun l m hlm id => ?_⟩
  · exact List.nodup_append.mpr ⟨h.handed, by simp, fun x hx y hy => by
      obtain rfl := List.mem_singleton.mp hy
      rintro rfl
      exact h.fresh n _ hhead hx⟩
  · rcases List.mem_append.mp hid with hid | hid
    · exact h.handedLeft id hid
    · rw [List.mem_singleton.mp hid]
      exact h.todoLeft n _ hhead
  · rw [todo_update]
    split_ifs
    · exact htail
    · exact h.todo m
  · rw [todo_update]
    split_ifs
    · exact fun hid => h.todoLeft n id (hrest id hid)
    · exact h.todoLeft m id
  · rw [todo_update]
    split_ifs with hm
    · intro hid hhanded
      rcases List.mem_append.mp hhanded with hhanded | hhanded
      · exact h.fresh n id (hrest id hid) hhanded
      · exact hnotin (List.mem_singleton.mp hhanded ▸ hid)
    · intro hid hhanded
      rcases List.mem_append.mp hhanded with hhanded | hhanded
      · exact h.fresh m id hid hhanded
      · exact h.apart m n hm id hid (List.mem_singleton.mp hhanded ▸ hhead)
  · rw [todo_update, todo_update]
    split_ifs with hl hm hm
    · exact absurd (hl.trans hm.symm) hlm
    · exact fun hid => h.apart n m (fun he => hm he.symm) id (hrest id hid)
    · exact fun hother hid => h.apart l n hl id hother (hrest id hid)
    · exact h.apart l m hlm id

/-- a call is over -/
theorem Inv.finish {s : System} (h : Inv s) (n : ℕ) {i : Impl} (hm : Moves s.impl i) :
    Inv { s with impl := i, calls := Function.update s.calls n none } := by
  have hmoved := h.moves hm
  refine ⟨hmoved.keyed, h.handed, hmoved.handedLeft, fun m => ?_, fun m id => ?_, fun m id => ?_, fun l m hlm id => ?_⟩
  · rw [todo_update]
    split_ifs
    · exact List.nodup_nil
    · exact h.todo m
  · rw [todo_update]
    split_ifs
    · simp
    · exact hmoved.todoLeft m id
  · rw [todo_update]
    split_ifs
    · simp
    · exact h.fresh m id
  · rw [todo_update, todo_update]
    split_ifs
    · simp
    · simp
    · simp
    · exact h.apart l m hlm id

/-- **Step.** A step keeps the invariant, provided a first section takes planned actions only. -/
theorem inv_after (e : Event) (s : System) (hfirst : FirstTake e s) (h : Inv s) : Inv (e.after s) := by
  cases e with
  | operation c =>
    simp only [Event.after]
    split_ifs
    · exact h
    · exact h.engine (actionsKeyed_after c h.keyed) fun _ hid => leftPlanned_after c hid
  | start n clk generation =>
    simp only [Event.after]
    split
    · exact h
    · next hfree =>
      split
      · exact h.moves (moves_dispatchBegin clk generation true s.impl)
      · next todo summary hok => exact h.start (hfirst hfree) hok
  | handOff n outcome =>
    simp only [Event.after]
    split
    · next hcall => exact h.handOff hcall outcome
    · exact h
  | finish n clk =>
    simp only [Event.after]
    split
    · next attempts summary _ => exact h.finish n (moves_dispatchEnd clk attempts summary s.impl)
    · exact h

/-! ## Where runs start -/

theorem actionsKeyed_applyEvent (e : DurableEvent.Event) {i : Impl} (h : ActionsKeyed i) :
    ActionsKeyed (applyEvent e i) := by
  obtain ⟨kind, body, history⟩ := e
  cases kind
  case actionUpsert => exact OrderedMap.Keyed.insert h rfl
  case history => cases history <;> exact h
  all_goals exact h

theorem actionsKeyed_loadSnapshot {r : Persistence.Recovery} {i j : Impl} (h : loadSnapshot r i = some j)
    (hi : ActionsKeyed i) : ActionsKeyed j := by
  unfold loadSnapshot at h
  split_ifs at h
  · split at h
    · next s hread =>
      rw [← Option.some.inj h]
      exact (StateDocument.readStateDocument_sound hread).1.actions.1
    · simp at h
  · rwa [← Option.some.inj h]

theorem actionsKeyed_construct (clk : Clock) (config : Config) : ActionsKeyed (construct clk config) := by
  intro id a ha
  have hnone : (construct clk config).state.actions.find id = none := OrderedMap.find_empty id
  rw [hnone] at ha
  simp at ha

theorem actionsKeyed_start (start : Start) (h : start.succeeds) : ActionsKeyed start.impl := by
  cases start with
  | fresh clk config => exact actionsKeyed_construct clk config
  | recovered clk io nowMs s =>
    obtain ⟨r, loaded, j, last, -, hload, hreplay, hkeeps⟩ := recoverFromStore_keeps (P := ActionsKeyed)
      (fun _ _ h => h) (fun _ _ _ h => h) (fun _ _ _ h => h)
      (fun clk nowMs reason i h => actionsKeyed_after ⟨clk, .beginEpoch nowMs reason⟩ h) h
    have hreset : ActionsKeyed (resetForRecovery s.impl) := by
      intro id a ha
      have hnone : (resetForRecovery s.impl).state.actions.find id = none := OrderedMap.find_empty id
      rw [hnone] at ha
      simp at ha
    have hreplayed := replay_keeps (fun e _ h => actionsKeyed_applyEvent e h) r.journalRecords 0 r.snapshotSequence
      (actionsKeyed_loadSnapshot hload hreset)
    rw [hreplay] at hreplayed
    exact hkeeps hreplayed

/-- nothing was handed over yet, and no call is in progress -/
theorem Inv.init {i : Impl} (h : ActionsKeyed i) : Inv { impl := i } where
  keyed := h
  handed := List.nodup_nil
  handedLeft id hid := absurd hid (by simp)
  todo n := List.nodup_nil
  todoLeft n id hid := absurd hid (by simp [System.todo])
  fresh n id hid := absurd hid (by simp [System.todo])
  apart m n _ id hid := absurd hid (by simp [System.todo])

/-- **At-most-once hand-off.** In every interleaving of dispatches and other operations in which no first section takes an
action that is already authorised, no action is handed to the executor twice. -/
theorem handOff_run (start : Start) (hstart : start.succeeds) (events : List Event)
    (h : Runs.Along Event.after FirstTake events { impl := start.impl }) (id : ActionId) :
    (Runs.run Event.after events { impl := start.impl }).handed.count id ≤ 1 :=
  List.nodup_iff_count_le_one.mp
    (Runs.run_inv (fun e s hfirst hinv => inv_after e s hfirst hinv) h
      (Inv.init (actionsKeyed_start start hstart))).handed id

/-- one dispatch of the planned action, from end to end -/
def oneDispatch : List Event :=
  planning.map .operation ++ [.start 0 ticks ⟨1⟩, .handOff 0 (.ok []), .finish 0 ticks]

/-- one dispatch hands the action over once -/
theorem handOff_run_oneDispatch :
    (Runs.run Event.after oneDispatch { impl := (Start.fresh ticks {}).impl }).handed = [⟨1⟩] ∧
    (Runs.run Event.after oneDispatch { impl := (Start.fresh ticks {}).impl }).handed.count ⟨1⟩ ≤ 1 := by
  have hfirst : Runs.Along Event.after FirstTake oneDispatch { impl := (Start.fresh ticks {}).impl } := by
    decide +kernel
  exact ⟨by decide +kernel, handOff_run (.fresh ticks {}) trivial oneDispatch hfirst ⟨1⟩⟩

/-- two dispatches of the planned action, the second begun before the first hands anything over -/
def twoDispatches : List Event :=
  planning.map .operation ++ [.start 0 ticks ⟨1⟩, .start 1 ticks ⟨1⟩, .handOff 0 (.ok []), .handOff 1 (.ok [])]

/-- two dispatches hand the action over twice -/
theorem handOff_twice :
    ¬ ∀ (start : Start) (events : List Event) (id : ActionId), start.succeeds →
      (Runs.run Event.after events { impl := start.impl }).handed.count id ≤ 1 := by
  intro h
  have htwice : (Runs.run Event.after twoDispatches { impl := (Start.fresh ticks {}).impl }).handed = [⟨1⟩, ⟨1⟩] := by
    decide +kernel
  have hle := h (.fresh ticks {}) twoDispatches ⟨1⟩ trivial
  rw [htwice] at hle
  exact absurd hle (by decide)

end FaultContainment.Dispatching
