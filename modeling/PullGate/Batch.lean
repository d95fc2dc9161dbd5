import PullGate.Finding

/-!
The order and the batches in which annotations are sent, and the ceiling on their number.
-/

namespace PullGate

/-- How many annotations one request may carry, and how many a commit may have. -/
structure UploadLimit where
  batchSize : Int
  total : Int
  deriving DecidableEq

namespace Batch

/-- Most severe first; items of one severity keep their order. -/
def bySeverity {α : Type} (severity : α → Severity) (items : List α) : List α :=
  items.mergeSort fun a b => (severity b).rank ≤ (severity a).rank

/-- Slices of `size + 1` items, the last of them shorter if need be. -/
def slices {α : Type} (size : Nat) : List α → List (List α)
  | [] => []
  | item :: items => (item :: items.take size) :: slices size (items.drop size)
termination_by items => items.length
decreasing_by simp only [List.length_drop, List.length_cons]; omega

structure BadSize where
  size : Int
  deriving DecidableEq

def BadSize.message (e : BadSize) : Text := "Batch size must be positive, got " ++ Text.ofInt e.size

def partition {α : Type} (items : List α) (size : Int) : Except BadSize (List (List α)) :=
  if size ≤ 0 then .error ⟨size⟩ else .ok (slices (size.toNat - 1) items)

/-- Whether the batch of this number, counted from one, would pass the ceiling. -/
def exceeds (number : Int) (limit : UploadLimit) : Bool := limit.total < number * limit.batchSize

end Batch

end PullGate
