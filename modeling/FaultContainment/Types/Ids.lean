/-
Strongly typed identities (`ids.hpp`) and byte texts.

An identity is a 64-bit value under a domain tag; 0 is the invalid sentinel. Identity sets are vectors the program keeps
sorted: `idSetContains`, `idSetInsert` and `idSetErase` stop at the first larger entry, as the C++ loops do, so on an
unsorted vector they may miss an entry. Generations saturate at 2^64 - 1.

- `mem_idSetInsert`, `sorted_idSetInsert`, `mem_idSetErase`: the set operations on a sorted vector.
- `nextGeneration_le`: a generation never goes back.
-/
import Mathlib.Tactic
import FaultContainment.Lib.Codec

namespace FaultContainment.Ids

open FaultContainment.Lib

/-! ## Texts -/

/-- a C++ string: bytes, not necessarily valid UTF-8 -/
abbrev Text := Bytes

/-- the UTF-8 bytes of a sequence of characters -/
def ofChars (cs : List Char) : Text := cs.flatMap String.utf8EncodeChar

/-- a string literal of the source -/
def lit (s : String) : Text := ofChars s.toList

/-- a decimal rendering -/
def decimal (n : ℕ) : Text := ofChars (Nat.toDigits 10 n)

/-- the decimal rendering, digit by digit -/
theorem decimal_eq (n : ℕ) :
    decimal n = if n < 10 then [UInt8.ofNat (48 + n)] else decimal (n / 10) ++ [UInt8.ofNat (48 + n % 10)] := by
  have hdigit : ∀ d < 10, String.utf8EncodeChar (Nat.digitChar d) = [UInt8.ofNat (48 + d)] := by decide
  unfold decimal ofChars
  rw [Nat.toDigits_eq_if (by decide)]
  split_ifs with h
  · rw [List.flatMap_cons, List.flatMap_nil, List.append_nil, hdigit n h]
  · rw [List.flatMap_append, List.flatMap_cons, List.flatMap_nil, List.append_nil, hdigit _ (Nat.mod_lt _ (by decide))]

theorem length_decimal_le (k : ℕ) : ∀ n < 10 ^ (k + 1), (decimal n).length ≤ k + 1 := by
  induction k with
  | zero =>
    intro n hn
    rw [decimal_eq, if_pos (by omega)]
    exact le_refl 1
  | succ k ih =>
    intro n hn
    rw [decimal_eq]
    split_ifs with hdigit
    · exact Nat.le_add_left 1 _
    · have hrest := ih (n / 10) (by omega)
      rw [List.length_append]
      exact Nat.add_le_add_right hrest 1

/-- the order of the images under an injection, with the type's own decidable equality -/
abbrev orderBy {α β : Type} [DecidableEq α] [LinearOrder β] (f : α → β) (hf : Function.Injective f) : LinearOrder α :=
  let o := LinearOrder.lift' f hf
  { o with
    toDecidableEq := inferInstance
    compare_eq_compareOfLessAndEq := fun a b => by
      rw [o.compare_eq_compareOfLessAndEq]; congr }

/-! ## Identities -/

/-- identity domains -/
inductive IdTag where
  | coordinatorEpoch | workerId | workerBootId | workerIncarnation | nodeId | hostId | processId | deviceId | acceleratorId
  | resourceId | workloadId | serviceId | attemptId | executionId | containmentDomainId | isolationDomainId
  | failureDomainId | dependencyId | faultId | faultGeneration | topologyGeneration | policyGeneration
  | resourceGeneration | dependencyGeneration | containmentGeneration | actionId | actionGeneration
  | verificationGeneration | releaseGeneration | degradedModeId | reservationId | leaseId | evidenceSequence
  | historySequence
  deriving DecidableEq, Repr

/-- `kName` -/
def IdTag.name : IdTag → Text
  | .coordinatorEpoch => lit "CoordinatorEpoch"
  | .workerId => lit "WorkerId"
  | .workerBootId => lit "WorkerBootId"
  | .workerIncarnation => lit "WorkerIncarnation"
  | .nodeId => lit "NodeId"
  | .hostId => lit "HostId"
  | .processId => lit "ProcessId"
  | .deviceId => lit "DeviceId"
  | .acceleratorId => lit "AcceleratorId"
  | .resourceId => lit "ResourceId"
  | .workloadId => lit "WorkloadId"
  | .serviceId => lit "ServiceId"
  | .attemptId => lit "AttemptId"
  | .executionId => lit "ExecutionId"
  | .containmentDomainId => lit "ContainmentDomainId"
  | .isolationDomainId => lit "IsolationDomainId"
  | .failureDomainId => lit "FailureDomainId"
  | .dependencyId => lit "DependencyId"
  | .faultId => lit "FaultId"
  | .faultGeneration => lit "FaultGeneration"
  | .topologyGeneration => lit "TopologyGeneration"
  | .policyGeneration => lit "PolicyGeneration"
  | .resourceGeneration => lit "ResourceGeneration"
  | .dependencyGeneration => lit "DependencyGeneration"
  | .containmentGeneration => lit "ContainmentGeneration"
  | .actionId => lit "ActionId"
  | .actionGeneration => lit "ActionGeneration"
  | .verificationGeneration => lit "VerificationGeneration"
  | .releaseGeneration => lit "ReleaseGeneration"
  | .degradedModeId => lit "DegradedModeId"
  | .reservationId => lit "ReservationId"
  | .leaseId => lit "LeaseId"
  | .evidenceSequence => lit "EvidenceSequence"
  | .historySequence => lit "HistorySequence"

/-- a 64-bit identity of one domain; the default is the invalid sentinel -/
structure Id (t : IdTag) where
  value : UInt64 := 0
  deriving DecidableEq, Repr

namespace Id

variable {t : IdTag}

instance : Inhabited (Id t) := ⟨{}⟩

/-- the sentinel 0 names nothing -/
def valid (i : Id t) : Bool := i.value != 0

theorem value_toNat_injective : Function.Injective fun i : Id t => i.value.toNat := by
  rintro ⟨a⟩ ⟨b⟩ h
  simpa [UInt64.toNat_inj] using h

instance : LinearOrder (Id t) := orderBy (fun i : Id t => i.value.toNat) value_toNat_injective

theorem lt_iff (a b : Id t) : a < b ↔ a.value.toNat < b.value.toNat := Iff.rfl
theorem le_iff (a b : Id t) : a ≤ b ↔ a.value.toNat ≤ b.value.toNat := Iff.rfl

/-- `to_string`: the domain name, a colon, and the decimal value or "invalid" -/
def text (i : Id t) : Text := t.name ++ lit ":" ++ if i.valid then decimal i.value.toNat else lit "invalid"

end Id

abbrev CoordinatorEpoch := Id .coordinatorEpoch
abbrev WorkerId := Id .workerId
abbrev WorkerBootId := Id .workerBootId
abbrev WorkerIncarnation := Id .workerIncarnation
abbrev NodeId := Id .nodeId
abbrev HostId := Id .hostId
abbrev ProcessId := Id .processId
abbrev DeviceId := Id .deviceId
abbrev AcceleratorId := Id .acceleratorId
abbrev ResourceId := Id .resourceId
abbrev WorkloadId := Id .workloadId
abbrev ServiceId := Id .serviceId
abbrev AttemptId := Id .attemptId
abbrev ExecutionId := Id .executionId
abbrev ContainmentDomainId := Id .containmentDomainId
abbrev IsolationDomainId := Id .isolationDomainId
abbrev FailureDomainId := Id .failureDomainId
abbrev DependencyId := Id .dependencyId
abbrev FaultId := Id .faultId
abbrev FaultGeneration := Id .faultGeneration
abbrev TopologyGeneration := Id .topologyGeneration
abbrev PolicyGeneration := Id .policyGeneration
abbrev ResourceGeneration := Id .resourceGeneration
abbrev DependencyGeneration := Id .dependencyGeneration
abbrev ContainmentGeneration := Id .containmentGeneration
abbrev ActionId := Id .actionId
abbrev ActionGeneration := Id .actionGeneration
abbrev VerificationGeneration := Id .verificationGeneration
abbrev ReleaseGeneration := Id .releaseGeneration
abbrev DegradedModeId := Id .degradedModeId
abbrev ReservationId := Id .reservationId
abbrev LeaseId := Id .leaseId
abbrev EvidenceSequence := Id .evidenceSequence
abbrev HistorySequence := Id .historySequence

/-! ## Generations -/

variable {t : IdTag}

/-- the next value of a monotonic counter, saturating instead of wrapping -/
def nextGeneration (current : Id t) : Id t :=
  if current.value.toNat = 2 ^ 64 - 1 then current else ⟨current.value + 1⟩

theorem nextGeneration_toNat (i : Id t) (h : i.value.toNat ≠ 2 ^ 64 - 1) :
    (nextGeneration i).value.toNat = i.value.toNat + 1 := by
  have hlt : i.value.toNat < 2 ^ 64 := i.value.toNat_lt
  have h1 : (1 : UInt64).toNat = 1 := rfl
  simp only [nextGeneration, if_neg h, UInt64.toNat_add, h1]
  omega

theorem nextGeneration_le (i : Id t) : i ≤ nextGeneration i := by
  by_cases h : i.value.toNat = 2 ^ 64 - 1
  · simp [nextGeneration, h]
  · rw [Id.le_iff, nextGeneration_toNat i h]; omega

theorem nextGeneration_valid (i : Id t) : (nextGeneration i).valid = true := by
  have h0 : ∀ j : Id t, j.value.toNat ≠ 0 → j.valid = true := by
    intro j hj
    simp only [Id.valid, bne_iff_ne, ne_eq]
    intro h; apply hj; rw [h]; rfl
  by_cases h : i.value.toNat = 2 ^ 64 - 1
  · apply h0; simp [nextGeneration, h]
  · apply h0; rw [nextGeneration_toNat i h]; omega

/-- an identity above a valid one is valid -/
theorem valid_of_le {a b : Id t} (ha : a.valid = true) (h : a ≤ b) : b.valid = true := by
  rw [Id.le_iff] at h
  simp only [Id.valid, bne_iff_ne, ne_eq] at ha ⊢
  rintro hb
  apply ha
  apply UInt64.toNat_inj.mp
  rw [hb] at h
  exact Nat.le_zero.mp h

/-! ## Identity sets -/

/-- a sorted, duplicate-free vector by convention only: nothing in the type enforces it -/
abbrev IdSet (t : IdTag) := List (Id t)

/-- what the convention says -/
abbrev SortedSet (s : IdSet t) : Prop := s.Pairwise (· < ·)

theorem sortedSet_ext {s s' : IdSet t} (hs : SortedSet s) (hs' : SortedSet s') (h : ∀ i, i ∈ s ↔ i ∈ s') :
    s = s' := by
  have hperm : s.Perm s' :=
    (List.perm_ext_iff_of_nodup (hs.imp fun hlt => ne_of_lt hlt) (hs'.imp fun hlt => ne_of_lt hlt)).mpr h
  exact hperm.eq_of_pairwise (fun a b _ _ hab hba => absurd hab (lt_asymm hba)) hs hs'

/-- `id_set_contains`: gives up at the first larger entry -/
def idSetContains : IdSet t → Id t → Bool
  | [], _ => false
  | e :: s, i => if e = i then true else if i < e then false else idSetContains s i

/-- `id_set_insert`, the vector it leaves -/
def idSetInsert : IdSet t → Id t → IdSet t
  | [], i => [i]
  | e :: s, i => if e < i then e :: idSetInsert s i else if e = i then e :: s else i :: e :: s

/-- `id_set_erase`, the vector it leaves -/
def idSetErase : IdSet t → Id t → IdSet t
  | [], _ => []
  | e :: s, i => if e = i then s else if i < e then e :: s else e :: idSetErase s i

theorem mem_of_idSetContains {s : IdSet t} {i : Id t} (h : idSetContains s i = true) : i ∈ s := by
  induction s with
  | nil => simp [idSetContains] at h
  | cons e s ih =>
    unfold idSetContains at h
    split_ifs at h with h1 h2
    · simp [h1]
    · exact List.mem_cons_of_mem _ (ih h)

theorem idSetContains_iff {s : IdSet t} (hs : SortedSet s) (i : Id t) : idSetContains s i = true ↔ i ∈ s := by
  refine ⟨mem_of_idSetContains, fun h => ?_⟩
  induction s with
  | nil => simp at h
  | cons e s ih =>
    have hs' := List.pairwise_cons.mp hs
    unfold idSetContains
    rcases List.mem_cons.mp h with rfl | h
    · simp
    · have hlt := hs'.1 i h
      simp [hlt.ne, hlt.not_gt, ih hs'.2 h]

@[simp] theorem mem_idSetInsert (s : IdSet t) (i j : Id t) : j ∈ idSetInsert s i ↔ j = i ∨ j ∈ s := by
  induction s with
  | nil => simp [idSetInsert]
  | cons e s ih =>
    unfold idSetInsert
    split_ifs with h1 h2
    · rw [List.mem_cons, ih, List.mem_cons]; tauto
    · subst h2; simp
    · simp

theorem idSetInsert_ne_nil (s : IdSet t) (i : Id t) : idSetInsert s i ≠ [] := by
  intro h
  have hmem : i ∈ idSetInsert s i := (mem_idSetInsert s i i).mpr (.inl rfl)
  rw [h] at hmem
  cases hmem

theorem sorted_idSetInsert {s : IdSet t} (hs : SortedSet s) (i : Id t) : SortedSet (idSetInsert s i) := by
  induction s with
  | nil => simp [idSetInsert, SortedSet]
  | cons e s ih =>
    have hs' := List.pairwise_cons.mp hs
    unfold idSetInsert
    split_ifs with h1 h2
    · refine List.pairwise_cons.mpr ⟨fun j hj => ?_, ih hs'.2⟩
      rcases (mem_idSetInsert s i j).mp hj with rfl | hj
      · exact h1
      · exact hs'.1 j hj
    · exact hs
    · have hlt : i < e := lt_of_le_of_ne (not_lt.mp h1) (Ne.symm h2)
      refine List.pairwise_cons.mpr ⟨fun j hj => ?_, hs⟩
      rcases List.mem_cons.mp hj with rfl | hj
      · exact hlt
      · exact hlt.trans (hs'.1 j hj)

theorem mem_of_mem_idSetErase {s : IdSet t} {i j : Id t} (h : j ∈ idSetErase s i) : j ∈ s := by
  induction s with
  | nil => simp [idSetErase] at h
  | cons e s ih =>
    unfold idSetErase at h
    split_ifs at h with h1 h2
    · exact List.mem_cons_of_mem _ h
    · exact h
    · rcases List.mem_cons.mp h with rfl | h
      · simp
      · exact List.mem_cons_of_mem _ (ih h)

theorem idSetErase_sublist (s : IdSet t) (i : Id t) : (idSetErase s i).Sublist s := by
  induction s with
  | nil => simp [idSetErase]
  | cons e s ih =>
    unfold idSetErase
    split_ifs with h1 h2
    · exact List.sublist_cons_self e s
    · exact List.Sublist.refl _
    · exact ih.cons_cons e

theorem sorted_idSetErase {s : IdSet t} (hs : SortedSet s) (i : Id t) : SortedSet (idSetErase s i) :=
  hs.sublist (idSetErase_sublist s i)

theorem mem_idSetErase {s : IdSet t} (hs : SortedSet s) (i j : Id t) : j ∈ idSetErase s i ↔ j ∈ s ∧ j ≠ i := by
  induction s with
  | nil => simp [idSetErase]
  | cons e s ih =>
    have hs' := List.pairwise_cons.mp hs
    unfold idSetErase
    split_ifs with h1 h2
    · subst h1
      constructor
      · intro hj; exact ⟨List.mem_cons_of_mem _ hj, (hs'.1 j hj).ne'⟩
      · rintro ⟨hj, hne⟩
        exact (List.mem_cons.mp hj).resolve_left hne
    · constructor
      · intro hj
        refine ⟨hj, ?_⟩
        rcases List.mem_cons.mp hj with rfl | hj
        · exact h2.ne'
        · exact (h2.trans (hs'.1 j hj)).ne'
      · exact fun h => h.1
    · rw [List.mem_cons, ih hs'.2, List.mem_cons]
      constructor
      · rintro (rfl | ⟨hj, hne⟩)
        · exact ⟨Or.inl rfl, h1⟩
        · exact ⟨Or.inr hj, hne⟩
      · rintro ⟨rfl | hj, hne⟩
        · exact Or.inl rfl
        · exact Or.inr ⟨hj, hne⟩

theorem mem_idSetErase_ne {s : IdSet t} {i j : Id t} (h : j ≠ i) : j ∈ idSetErase s i ↔ j ∈ s := by
  refine ⟨mem_of_mem_idSetErase, fun hj => ?_⟩
  induction s with
  | nil => simp at hj
  | cons e s ih =>
    unfold idSetErase
    split_ifs with h1 h2
    · obtain rfl | hj := List.mem_cons.mp hj
      · exact absurd h1 h
      · exact hj
    · exact hj
    · obtain rfl | hj := List.mem_cons.mp hj
      · exact List.mem_cons_self
      · exact List.mem_cons_of_mem _ (ih hj)

theorem idSetErase_of_not_mem {s : IdSet t} {i : Id t} (h : i ∉ s) : idSetErase s i = s := by
  induction s with
  | nil => rfl
  | cons e s ih =>
    obtain ⟨hne, hs⟩ := not_or.mp (mt List.mem_cons.mpr h)
    unfold idSetErase
    rw [if_neg (Ne.symm hne)]
    split_ifs
    · rfl
    · rw [ih hs]

theorem mem_foldl_erase (ids : List (Id t)) {s : IdSet t} (hs : SortedSet s) (d : Id t) :
    d ∈ ids.foldl idSetErase s ↔ d ∈ s ∧ d ∉ ids := by
  induction ids generalizing s with
  | nil => simp
  | cons i ids ih =>
    rw [List.foldl_cons, ih (sorted_idSetErase hs i), mem_idSetErase hs, List.mem_cons, not_or, and_assoc]

/-- erasing changes nothing exactly when there is nothing to erase -/
theorem foldl_erase_eq_iff (ids : List (Id t)) {s : IdSet t} (hs : SortedSet s) :
    ids.foldl idSetErase s = s ↔ ∀ d ∈ ids, d ∉ s := by
  constructor
  · intro h d hd hds
    rw [← h, mem_foldl_erase ids hs] at hds
    exact hds.2 hd
  · intro h
    induction ids with
    | nil => rfl
    | cons i ids ih =>
      rw [List.foldl_cons, idSetErase_of_not_mem (h i List.mem_cons_self)]
      exact ih fun d hd => h d (List.mem_cons_of_mem i hd)

/-- building a set one identity at a time -/
def idSetOf (ids : List (Id t)) : IdSet t := ids.foldl idSetInsert []

theorem foldl_idSetInsert_spec (ids : List (Id t)) (s : IdSet t) (hs : SortedSet s) :
    SortedSet (ids.foldl idSetInsert s) ∧ ∀ j, j ∈ ids.foldl idSetInsert s ↔ j ∈ ids ∨ j ∈ s := by
  induction ids generalizing s with
  | nil => exact ⟨hs, by simp⟩
  | cons i ids ih =>
    obtain ⟨h1, h2⟩ := ih (idSetInsert s i) (sorted_idSetInsert hs i)
    refine ⟨h1, fun j => ?_⟩
    rw [List.foldl_cons, h2, mem_idSetInsert, List.mem_cons]
    tauto

theorem sorted_idSetOf (ids : List (Id t)) : SortedSet (idSetOf ids) :=
  (foldl_idSetInsert_spec ids [] List.Pairwise.nil).1

theorem mem_idSetOf (ids : List (Id t)) (id : Id t) : id ∈ idSetOf ids ↔ id ∈ ids := by
  rw [idSetOf, (foldl_idSetInsert_spec ids [] List.Pairwise.nil).2]
  simp

end FaultContainment.Ids
