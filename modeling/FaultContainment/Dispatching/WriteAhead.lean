/-
Write-ahead of a dispatch.

The first section of `dispatch_containment` stages one record for each action it refuses or authorises; the flush appends
them in order and stops at the first failure, and then the executor is called for every authorised action, whatever the
flush returned.

- `handOffs_eq`: the hand-off list is the list of AUTHORIZED records staged.
- `durableThrough_iff`: when the records up to a position of the batch are all appended.
- `durable_before_dispatch_iff`: the executor sees durable actions only, exactly when those appends succeed.
-/
import FaultContainment.Dispatching.Lifecycle

namespace FaultContainment.Dispatching

open FaultContainment.Lib FaultContainment.Ids FaultContainment.Enums FaultContainment.Records
open FaultContainment.DurableEvent FaultContainment.Engine FaultContainment.Persistence

/-! ## The hand-off list -/

/-- the actions a call of `dispatch_containment` hands to its executor -/
def handOffs (clk : Clock) (generation : ContainmentGeneration) (i : Impl) : List ContainmentAction :=
  match (dispatchBegin clk generation true i).result with
  | .ok (toDispatch, _) => toDispatch
  | .error _ => []

/-- the records the first section stages -/
def batch (clk : Clock) (generation : ContainmentGeneration) (i : Impl) : List DurableEvent.Event :=
  (dispatchBegin clk generation true i).staged

/-- the action a record moves to AUTHORIZED -/
def authorizedBy : DurableEvent.Event → Option ContainmentAction
  | ⟨.actionUpsert, a, _⟩ => if a.status = .authorized then some a else none
  | _ => none

theorem authorizedBy_dispatchOne (clk : Clock) (record : ContainmentRecord) {d : Dispatch}
    (h : d.staged.filterMap authorizedBy = d.toDispatch) (id : ActionId) :
    (dispatchOne clk record d id).staged.filterMap authorizedBy = (dispatchOne clk record d id).toDispatch := by
  unfold dispatchOne
  split
  · exact h
  · split_ifs
    · exact h
    · simp [Dispatch.reject, Dispatch.stage, authorizedBy, h]
    · simp [Dispatch.authorize, Dispatch.stage, authorizedBy, h]

/-- what is handed to the executor is what was staged as AUTHORIZED -/
theorem handOffs_eq (clk : Clock) (generation : ContainmentGeneration) (i : Impl) :
    handOffs clk generation i = (batch clk generation i).filterMap authorizedBy := by
  unfold handOffs batch dispatchBegin
  cases admitDispatch generation true i with
  | error e => rfl
  | ok record =>
    have hloop : ∀ (ids : List ActionId) (d : Dispatch), d.staged.filterMap authorizedBy = d.toDispatch →
        (ids.foldl (dispatchOne clk record) d).staged.filterMap authorizedBy =
          (ids.foldl (dispatchOne clk record) d).toDispatch := by
      intro ids
      induction ids with
      | nil => exact fun _ h => h
      | cons id ids ih => exact fun d h => ih _ (authorizedBy_dispatchOne clk record h id)
    dsimp only
    rw [List.filterMap_append, hloop record.actions _ rfl]
    exact (List.append_nil _).symm

/-! ## Appends -/

/-- the records whose append returned success -/
def appended (outcome : ℕ → WriteOutcome) : ℕ → Store → List (ℕ × Bytes) → List (ℕ × Bytes)
  | _, _, [] => []
  | k, st, (n, bytes) :: ws =>
    match appendRecord st n bytes (outcome k) with
    | (st, .ok ()) => (n, bytes) :: appended outcome (k + 1) st ws
    | (_, .error _) => []

/-- an append of an encoded event succeeds exactly when its write does -/
theorem appendRecord_ok_iff (st : Store) (n : ℕ) {bytes : Bytes} (h : bytes.length ≤ kMaxJournalRecordBytes)
    (o : WriteOutcome) : (appendRecord st n bytes o).2 = .ok () ↔ o = .complete := by
  unfold appendRecord
  rw [if_neg (by omega)]
  cases o <;> simp

/-- the first records of a batch are appended exactly when none of their writes fails -/
theorem prefix_appended_iff (outcome : ℕ → WriteOutcome) {ws rest : List (ℕ × Bytes)}
    (h : ∀ w ∈ ws, w.2.length ≤ kMaxJournalRecordBytes) (k : ℕ) (st : Store) :
    ws <+: appended outcome k st (ws ++ rest) ↔ ∀ q < ws.length, outcome (k + q) = .complete := by
  induction ws generalizing k st with
  | nil => simp
  | cons w ws ih =>
    obtain ⟨n, bytes⟩ := w
    have hone := appendRecord_ok_iff st n (h (n, bytes) List.mem_cons_self) (outcome k)
    rw [List.cons_append, appended]
    rcases hr : appendRecord st n bytes (outcome k) with ⟨st', e | ⟨⟩⟩
    · rw [hr] at hone
      constructor
      · intro hp
        simp at hp
      · intro hall
        exact absurd (hone.mpr (hall 0 (by simp))) (by simp)
    · rw [hr] at hone
      dsimp only
      rw [List.prefix_cons_inj, ih (fun w hw => h w (List.mem_cons_of_mem _ hw))]
      constructor
      · rintro hall (_ | q) hq
        · exact hone.mp rfl
        · rw [show k + (q + 1) = k + 1 + q by omega]
          exact hall q (by simpa using hq)
      · intro hall q hq
        rw [show k + 1 + q = k + (q + 1) by omega]
        exact hall (q + 1) (by simpa using hq)

theorem encodeStaged_append (n : ℕ) (es es' : List DurableEvent.Event) :
    encodeStaged n (es ++ es') = encodeStaged n es ++ encodeStaged (n + (encodeStaged n es).length) es' := by
  induction es generalizing n with
  | nil => rfl
  | cons e es ih =>
    rw [List.cons_append, encodeStaged, encodeStaged]
    split
    · exact ih n
    · rw [ih, List.cons_append, List.length_cons, Nat.add_right_comm n 1, Nat.add_assoc n]

/-! ## The write-ahead rule -/

/-- the record at position `j` of the batch and every earlier one were encoded and appended successfully -/
def DurableThrough (clk : Clock) (io : Io) (generation : ContainmentGeneration) (s : Sys) (j : ℕ) : Prop :=
  s.attached = true ∧
    (encodeStaged s.impl.durableSequence ((batch clk generation s.impl).take (j + 1))).length = j + 1 ∧
    encodeStaged s.impl.durableSequence ((batch clk generation s.impl).take (j + 1)) <+:
      appended io.outcome 0 s.store (encodeStaged s.impl.durableSequence (batch clk generation s.impl))

/-- the record at position `j` of the batch moves an action to AUTHORIZED -/
def AuthorizesAt (clk : Clock) (generation : ContainmentGeneration) (i : Impl) (j : ℕ) (a : ContainmentAction) : Prop :=
  (batch clk generation i)[j]?.bind authorizedBy = some a

/-- a store is attached, every record up to position `j` can be encoded, and no write up to there fails -/
def WritesThrough (clk : Clock) (io : Io) (generation : ContainmentGeneration) (s : Sys) (j : ℕ) : Prop :=
  s.attached = true ∧ (∀ e ∈ (batch clk generation s.impl).take (j + 1), (encodeEvent e).isSome = true) ∧
    ∀ k ≤ j, io.outcome k = .complete

theorem durableThrough_iff (clk : Clock) (io : Io) (generation : ContainmentGeneration) (s : Sys) {j : ℕ}
    (hj : j < (batch clk generation s.impl).length) :
    DurableThrough clk io generation s j ↔ WritesThrough clk io generation s j := by
  unfold DurableThrough WritesThrough
  generalize batch clk generation s.impl = es at hj ⊢
  have htake : (es.take (j + 1)).length = j + 1 := List.length_take_of_le hj
  have hencoded := encodeStaged_length_iff s.impl.durableSequence (es.take (j + 1))
  rw [htake] at hencoded
  rw [hencoded]
  refine and_congr_right fun _ => and_congr_right fun hall => ?_
  have hsplit := encodeStaged_append s.impl.durableSequence (es.take (j + 1)) (es.drop (j + 1))
  rw [List.take_append_drop] at hsplit
  rw [hsplit, prefix_appended_iff _ (fun _ => encodeStaged_short), hencoded.mpr hall]
  simp only [Nat.zero_add, Nat.lt_succ_iff]

/-- the write-ahead rule for one call: an action is handed over only if its AUTHORIZED record and every earlier record of
the batch were appended; otherwise nothing is, and the call returns an error -/
structure DurableBeforeDispatch (clk : ℕ → Clock) (io : ℕ → Io) (generation : ContainmentGeneration)
    (executor : ContainmentAction → Except Error Text) (s : Sys) : Prop where
  handed : ∀ a ∈ handOffs (clk 0) generation s.impl, ∃ j, AuthorizesAt (clk 0) generation s.impl j a ∧
    DurableThrough (clk 0) (io 0) generation s j
  refused : ∀ j a, AuthorizesAt (clk 0) generation s.impl j a → ¬ DurableThrough (clk 0) (io 0) generation s j →
    handOffs (clk 0) generation s.impl = [] ∧ ∃ e, (dispatchContainment clk io generation (some executor) s).2 = .error e

theorem mem_handOffs_iff (clk : Clock) (generation : ContainmentGeneration) (i : Impl) (a : ContainmentAction) :
    a ∈ handOffs clk generation i ↔ ∃ j, AuthorizesAt clk generation i j a := by
  rw [handOffs_eq, List.mem_filterMap]
  unfold AuthorizesAt
  constructor
  · rintro ⟨e, he, ha⟩
    obtain ⟨j, hj⟩ := List.mem_iff_getElem?.mp he
    exact ⟨j, by rw [hj, Option.bind_some, ha]⟩
  · rintro ⟨j, hj⟩
    obtain ⟨e, he, ha⟩ := Option.bind_eq_some_iff.mp hj
    exact ⟨e, List.mem_of_getElem? he, ha⟩

theorem authorizesAt_lt {clk : Clock} {generation : ContainmentGeneration} {i : Impl} {j : ℕ} {a : ContainmentAction}
    (h : AuthorizesAt clk generation i j a) : j < (batch clk generation i).length := by
  obtain ⟨e, he, -⟩ := Option.bind_eq_some_iff.mp h
  exact (List.getElem?_eq_some_iff.mp he).1

/-- **Durable before dispatch.** Whatever the state and the outcome of every write, the executor is called for durable
actions only exactly when, for each action the batch authorises, the writes up to its record succeed. -/
theorem durable_before_dispatch_iff (clk : ℕ → Clock) (io : ℕ → Io) (generation : ContainmentGeneration)
    (executor : ContainmentAction → Except Error Text) (s : Sys) :
    DurableBeforeDispatch clk io generation executor s ↔
      ∀ j a, AuthorizesAt (clk 0) generation s.impl j a → WritesThrough (clk 0) (io 0) generation s j := by
  constructor
  · intro h j a hj
    rw [← durableThrough_iff _ _ _ _ (authorizesAt_lt hj)]
    by_contra hnot
    have hmem := (mem_handOffs_iff _ _ _ _).mpr ⟨j, hj⟩
    rw [(h.refused j a hj hnot).1] at hmem
    simp at hmem
  · intro h
    refine ⟨fun a ha => ?_, fun j a hj hnot => ?_⟩
    · obtain ⟨j, hj⟩ := (mem_handOffs_iff _ _ _ _).mp ha
      exact ⟨j, hj, (durableThrough_iff _ _ _ _ (authorizesAt_lt hj)).mpr (h j a hj)⟩
    · exact absurd ((durableThrough_iff _ _ _ _ (authorizesAt_lt hj)).mpr (h j a hj)) hnot

/-- the first append of a dispatch fails, and the action is handed over all the same -/
theorem handed_over_without_record :
    ¬ ∀ (start : Start) (pre : List Call) (clk : ℕ → Clock) (io : ℕ → Io) (generation : ContainmentGeneration)
      (executor : ContainmentAction → Except Error Text) (store : Store), start.succeeds →
      DurableBeforeDispatch clk io generation executor
        { impl := Runs.run Call.after pre start.impl, store := store, attached := true } := by
  intro h
  let s : Sys := { impl := Runs.run Call.after planning (Start.fresh ticks {}).impl }
  have hone := h (.fresh ticks {}) planning (fun _ => ticks) (fun _ => { outcome := fun _ => .failed 0 }) ⟨1⟩
    (fun _ => .ok []) {} trivial
  have hhanded : ((batch ticks ⟨1⟩ s.impl)[0]?.bind authorizedBy).isSome = true := by decide +kernel
  obtain ⟨a, ha⟩ := Option.isSome_iff_exists.mp hhanded
  by_cases hd : DurableThrough ticks { outcome := fun _ => .failed 0 } ⟨1⟩ s 0
  · obtain ⟨-, -, hall⟩ := (durableThrough_iff ticks _ ⟨1⟩ s (authorizesAt_lt ha)).mp hd
    exact absurd (hall 0 le_rfl) (by simp)
  · have hmem := (mem_handOffs_iff ticks ⟨1⟩ s.impl a).mpr ⟨0, ha⟩
    rw [(hone.refused 0 a ha hd).1] at hmem
    simp at hmem

end FaultContainment.Dispatching
