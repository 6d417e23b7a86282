/-
Explanations (`explain.cpp`): lines in category rank order, sorted, without adjacent repetitions.
-/
import Mathlib.Data.List.Sort
import Mathlib.Data.List.Destutter
import FaultContainment.Types.Records

namespace FaultContainment.Explanation

open FaultContainment.Ids FaultContainment.Records

/-- `kCategoryOrder` -/
def kCategoryOrder : List Text :=
  [lit "AUTHORITY", lit "FAULT", lit "MANDATORY", lit "PRECAUTIONARY", lit "UNAFFECTED", lit "UNKNOWN", lit "DEGRADED",
   lit "REJECTED", lit "VERIFICATION"]

/-- `explanation_category_rank`: unknown categories come last -/
def explanationCategoryRank (category : Text) : ℕ :=
  if category ∈ kCategoryOrder then kCategoryOrder.idxOf category else kCategoryOrder.length + 1000

/-- `operator<` on byte strings -/
def textLt : Text → Text → Bool
  | [], [] => false
  | [], _ :: _ => true
  | _ :: _, [] => false
  | a :: s, b :: t => if a.toNat < b.toNat then true else if b.toNat < a.toNat then false else textLt s t

/-- the order of `finalize`: rank, category, sort key, text -/
def lineLt (a b : ExplanationLine) : Bool :=
  if explanationCategoryRank a.category ≠ explanationCategoryRank b.category then
    explanationCategoryRank a.category < explanationCategoryRank b.category
  else if a.category ≠ b.category then textLt a.category b.category
  else if a.sortKey ≠ b.sortKey then textLt a.sortKey b.sortKey
  else textLt a.text b.text

/-- `ContainmentExplanation::finalize`: a stable sort, then `std::unique` -/
def finalize (lines : ContainmentExplanation) : ContainmentExplanation :=
  (lines.insertionSort fun a b => lineLt b a = false).destutter (· ≠ ·)

/-- `ContainmentExplanation::add` -/
def line (category : String) (sortKey text : Text) : ExplanationLine :=
  { category := lit category, sortKey := sortKey, text := text }

end FaultContainment.Explanation
