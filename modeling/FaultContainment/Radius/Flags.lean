/-
The flags of the classifications.

Each operation on the accumulator writes one entry. What the radius reads of an entry are three flags; here is what each
operation does to them, and to the identities that have an entry.

- `has_includeIn`, `included_includeIn`, `flagged_markUnresolved`, …: one lemma for each flag and operation.
- `mem_includedIds`: the identities read off as included.
-/
import FaultContainment.Radius.Spec

namespace FaultContainment.Radius

open FaultContainment.Lib FaultContainment.Ids FaultContainment.Enums FaultContainment.Records
open FaultContainment.BlastRadius

/-- the entry of a resource has the inclusion flag -/
def included (acc : Classifications) (id : ResourceId) : Prop := ((acc.find id).getD {}).hasInclusion = true

/-- the entry of a resource has the exclusion flag -/
def excluded (acc : Classifications) (id : ResourceId) : Prop := ((acc.find id).getD {}).hasExclusion = true

/-- the entry of a resource is flagged unresolved -/
def flagged (acc : Classifications) (id : ResourceId) : Prop := ((acc.find id).getD {}).hasUnresolved = true

section

variable (acc : Classifications) (id d : ResourceId) (g : ResourceGeneration) (detail : Text)

@[simp] theorem not_included_empty : ¬ included ∅ d := by simp [included]
@[simp] theorem not_excluded_empty : ¬ excluded ∅ d := by simp [excluded]
@[simp] theorem not_flagged_empty : ¬ flagged ∅ d := by simp [flagged]

theorem has_insert (c : ClassifiedResource) : (acc.insert id c).has d = true ↔ acc.has d = true ∨ id = d := by
  rw [OrderedMap.has, OrderedMap.find_insert]
  split_ifs with h
  · simp [h]
  · simp [h, OrderedMap.has]

/-! ## Including -/

theorem has_includeIn (r : InclusionReason) :
    (includeIn acc id g r detail).has d = true ↔ acc.has d = true ∨ id = d := has_insert acc id d _

theorem included_includeIn (r : InclusionReason) :
    included (includeIn acc id g r detail) d ↔ included acc d ∨ id = d := by
  unfold included includeIn
  rw [OrderedMap.find_insert]
  by_cases h : id = d
  · subst h
    cases hi : ((acc.find id).getD {}).hasInclusion <;> simp [entryOf, hi]
  · simp [h]

theorem excluded_includeIn (r : InclusionReason) : excluded (includeIn acc id g r detail) d ↔ excluded acc d := by
  unfold excluded includeIn
  rw [OrderedMap.find_insert]
  by_cases h : id = d
  · subst h
    cases hi : ((acc.find id).getD {}).hasInclusion <;> simp [entryOf, hi]
  · simp [h]

theorem flagged_includeIn (r : InclusionReason) : flagged (includeIn acc id g r detail) d ↔ flagged acc d := by
  unfold flagged includeIn
  rw [OrderedMap.find_insert]
  by_cases h : id = d
  · subst h
    cases hi : ((acc.find id).getD {}).hasInclusion <;> simp [entryOf, hi]
  · simp [h]

/-! ## Marking unresolved -/

theorem has_markUnresolved (r : UnresolvedReason) :
    (markUnresolved acc id g r detail).has d = true ↔ acc.has d = true ∨ id = d := has_insert acc id d _

theorem included_markUnresolved (r : UnresolvedReason) :
    included (markUnresolved acc id g r detail) d ↔ included acc d := by
  unfold included markUnresolved
  rw [OrderedMap.find_insert]
  by_cases h : id = d
  · subst h
    cases hi : ((acc.find id).getD {}).hasInclusion <;> cases hx : ((acc.find id).getD {}).hasExclusion <;>
      cases hu : ((acc.find id).getD {}).hasUnresolved <;> simp [entryOf, hi, hx, hu]
  · simp [h]

theorem excluded_markUnresolved (r : UnresolvedReason) :
    excluded (markUnresolved acc id g r detail) d ↔ excluded acc d := by
  unfold excluded markUnresolved
  rw [OrderedMap.find_insert]
  by_cases h : id = d
  · subst h
    cases hi : ((acc.find id).getD {}).hasInclusion <;> cases hx : ((acc.find id).getD {}).hasExclusion <;>
      cases hu : ((acc.find id).getD {}).hasUnresolved <;> simp [entryOf, hi, hx, hu]
  · simp [h]

theorem flagged_markUnresolved (r : UnresolvedReason) :
    flagged (markUnresolved acc id g r detail) d ↔
      flagged acc d ∨ (id = d ∧ ¬ included acc d ∧ ¬ excluded acc d) := by
  unfold flagged included excluded markUnresolved
  rw [OrderedMap.find_insert]
  by_cases h : id = d
  · subst h
    cases hi : ((acc.find id).getD {}).hasInclusion <;> cases hx : ((acc.find id).getD {}).hasExclusion <;>
      cases hu : ((acc.find id).getD {}).hasUnresolved <;> simp [entryOf, hi, hx, hu]
  · simp [h]

/-! ## Excluding -/

theorem has_excludeFrom (r : ExclusionReason) :
    (excludeFrom acc id g r detail).has d = true ↔ acc.has d = true ∨ id = d := has_insert acc id d _

theorem included_excludeFrom (r : ExclusionReason) :
    included (excludeFrom acc id g r detail) d ↔ included acc d := by
  unfold included excludeFrom
  rw [OrderedMap.find_insert]
  by_cases h : id = d
  · subst h
    cases hi : ((acc.find id).getD {}).hasInclusion <;> cases hx : ((acc.find id).getD {}).hasExclusion <;>
      simp [entryOf, hi, hx]
  · simp [h]

theorem flagged_excludeFrom (r : ExclusionReason) : flagged (excludeFrom acc id g r detail) d ↔ flagged acc d := by
  unfold flagged excludeFrom
  rw [OrderedMap.find_insert]
  by_cases h : id = d
  · subst h
    cases hi : ((acc.find id).getD {}).hasInclusion <;> cases hx : ((acc.find id).getD {}).hasExclusion <;>
      simp [entryOf, hi, hx]
  · simp [h]

/-! ## Writing through the entry -/

theorem has_subscript (f : ClassifiedResource → ClassifiedResource) :
    (acc.subscript id f).has d = true ↔ acc.has d = true ∨ id = d := has_insert acc id d _

theorem getD_subscript (f : ClassifiedResource → ClassifiedResource) :
    ((acc.subscript id f).find d).getD {} = if id = d then f ((acc.find d).getD {}) else (acc.find d).getD {} := by
  rw [OrderedMap.find_subscript]
  split_ifs with h
  · subst h; rfl
  · rfl

/-! ## Reading the flags off -/

theorem mem_includedIds : id ∈ includedIds acc ↔ included acc id := by
  unfold includedIds included
  constructor
  · intro h
    obtain ⟨⟨k, c⟩, hm, rfl⟩ := List.mem_map.mp h
    obtain ⟨hc, hi⟩ := List.mem_filter.mp hm
    rw [(OrderedMap.mem_toList _ _ _).mp hc]
    exact hi
  · intro h
    cases hf : acc.find id with
    | none => simp [hf] at h
    | some c =>
      rw [hf] at h
      exact List.mem_map.mpr ⟨(id, c), List.mem_filter.mpr ⟨(OrderedMap.mem_toList _ _ _).mpr hf, h⟩, rfl⟩

theorem included.has {acc : Classifications} {id : ResourceId} (h : included acc id) : acc.has id = true := by
  cases hf : acc.find id with
  | none => simp [included, hf] at h
  | some c => exact (OrderedMap.has_iff _ _).mpr ⟨c, hf⟩

theorem flagged.has {acc : Classifications} {id : ResourceId} (h : flagged acc id) : acc.has id = true := by
  cases hf : acc.find id with
  | none => simp [flagged, hf] at h
  | some c => exact (OrderedMap.has_iff _ _).mpr ⟨c, hf⟩

end

end FaultContainment.Radius
