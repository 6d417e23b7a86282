/-
Writes to an ordered map, one after the other: an entry is stored or removed, and the last write to a key decides.

- `find_writeAll`: an entry after a list of writes is what the last write to its key left, and the old one without any.
-/
import FaultContainment.Lib.OrderedMap

namespace FaultContainment.Lib.OrderedMap

variable {κ ν : Type} [LinearOrder κ]

/-- an entry stored, or removed -/
def write (m : OrderedMap κ ν) (w : κ × Option ν) : OrderedMap κ ν :=
  match w.2 with
  | some v => m.insert w.1 v
  | none => m.erase w.1

/-- the writes in order -/
def writeAll (m : OrderedMap κ ν) (ws : List (κ × Option ν)) : OrderedMap κ ν := ws.foldl write m

/-- what the last write to a key left there -/
def lastWrite (ws : List (κ × Option ν)) (k : κ) : Option (Option ν) := (ws.reverse.find? fun w => w.1 = k).map Prod.snd

theorem find_write (m : OrderedMap κ ν) (w : κ × Option ν) (k : κ) :
    (m.write w).find k = if w.1 = k then w.2 else m.find k := by
  obtain ⟨a, v | v⟩ := w
  · exact find_erase m a k
  · exact find_insert m a k v

theorem writeAll_cons (m : OrderedMap κ ν) (w : κ × Option ν) (ws : List (κ × Option ν)) :
    m.writeAll (w :: ws) = (m.write w).writeAll ws := rfl

theorem lastWrite_cons (w : κ × Option ν) (ws : List (κ × Option ν)) (k : κ) :
    lastWrite (w :: ws) k = (lastWrite ws k).or (if w.1 = k then some w.2 else none) := by
  unfold lastWrite
  rw [List.reverse_cons, List.find?_append, Option.map_or]
  by_cases hk : w.1 = k <;> simp [hk]

/-- The last write to a key decides. -/
theorem find_writeAll (ws : List (κ × Option ν)) (m : OrderedMap κ ν) (k : κ) :
    (m.writeAll ws).find k = (lastWrite ws k).getD (m.find k) := by
  induction ws generalizing m with
  | nil => rfl
  | cons w ws ih =>
    rw [writeAll_cons, ih, lastWrite_cons, find_write]
    cases lastWrite ws k with
    | some v => rfl
    | none =>
      rw [Option.none_or]
      split_ifs <;> rfl

/-- what the last write left is one of the writes -/
theorem mem_of_lastWrite {ws : List (κ × Option ν)} {k : κ} {v : Option ν} (h : lastWrite ws k = some v) : (k, v) ∈ ws := by
  obtain ⟨w, hw, rfl⟩ := Option.map_eq_some_iff.mp h
  have hk := List.find?_some hw
  rw [← of_decide_eq_true hk]
  exact List.mem_reverse.mp (List.mem_of_find?_eq_some hw)

end FaultContainment.Lib.OrderedMap
