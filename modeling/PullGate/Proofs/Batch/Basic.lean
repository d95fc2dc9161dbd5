import PullGate.Batch

/-! The order in which annotations are sent, and the slices they are sent in.  The order is total
once every item is taken with its place, so it is the only one that puts the more severe first and
keeps the rest as it was. -/

namespace PullGate.Batch

section Order

variable {α : Type} (severity : α → Severity)

/-- Of two items with their places: the first is more severe, or as severe and placed before. -/
def Precedes (x y : α × Nat) : Prop :=
  (severity y.1).rank < (severity x.1).rank ∨
    (severity x.1).rank = (severity y.1).rank ∧ x.2 < y.2

variable {severity}

theorem Precedes.of_zipIdxLE {x y : α × Nat} (hplace : x.2 ≠ y.2)
    (h : List.zipIdxLE (fun a b => decide ((severity b).rank ≤ (severity a).rank)) x y = true) :
    Precedes severity x y := by
  unfold List.zipIdxLE at h
  unfold Precedes
  simp only [decide_eq_true_iff] at h
  split at h
  · split at h
    · have hle : x.2 ≤ y.2 := by simpa using h
      omega
    · omega
  · simp at h

/-- Whether an item may stand in front of another. -/
def atLeast (severity : α → Severity) (a b : α) : Bool :=
  decide ((severity b).rank ≤ (severity a).rank)

theorem perm_bySeverity (severity : α → Severity) (items : List α) :
    (bySeverity severity items).Perm items :=
  List.mergeSort_perm items (atLeast severity)

theorem atLeast_trans (severity : α → Severity) (a b c : α) (hab : atLeast severity a b = true)
    (hbc : atLeast severity b c = true) : atLeast severity a c = true := by
  simp only [atLeast, decide_eq_true_iff] at hab hbc ⊢
  omega

theorem atLeast_total (severity : α → Severity) (a b : α) :
    (atLeast severity a b || atLeast severity b a) = true := by
  simp only [atLeast, Bool.or_eq_true, decide_eq_true_iff]
  omega

/-- Sorting puts every item with its place in order. -/
theorem exists_order (severity : α → Severity) (items : List α) :
    ∃ ordered : List (α × Nat), ordered.map Prod.fst = bySeverity severity items ∧
      ordered.Perm items.zipIdx ∧ ordered.Pairwise (Precedes severity) := by
  have hperm := List.mergeSort_perm items.zipIdx (List.zipIdxLE (atLeast severity))
  have hplaces : (items.zipIdx.mergeSort (List.zipIdxLE (atLeast severity))).Pairwise
      fun x y => x.2 ≠ y.2 := by
    have hnodup : (items.zipIdx.map Prod.snd).Nodup := by
      rw [List.zipIdx_map_snd]
      exact List.nodup_range'
    exact (hperm.pairwise_iff fun h => Ne.symm h).mpr (List.pairwise_map.mp hnodup)
  have hsorted := List.pairwise_mergeSort (List.zipIdxLE_trans (atLeast_trans severity))
    (List.zipIdxLE_total (atLeast_total severity)) items.zipIdx
  refine ⟨_, List.mergeSort_zipIdx, hperm, ?_⟩
  exact (hsorted.and hplaces).imp fun h => .of_zipIdxLE h.2 h.1

end Order

section Slices

variable {α β : Type} (size : Nat) (items : List α)

theorem flatten_take_slices (count : Nat) :
    ((slices size items).take count).flatten = items.take (count * (size + 1)) := by
  induction count generalizing items with
  | zero => simp
  | succ count ih =>
    cases items with
    | nil => simp [slices]
    | cons item items =>
      rw [slices, List.take_succ_cons, List.flatten_cons, ih (items.drop size), List.cons_append]
      have hcount : (count + 1) * (size + 1) = (size + count * (size + 1)) + 1 := by
        rw [Nat.succ_mul]; omega
      rw [hcount, List.take_succ_cons, List.take_add]

theorem lt_length_slices (count : Nat) :
    count < (slices size items).length ↔ count * (size + 1) < items.length := by
  induction count generalizing items with
  | zero => cases items <;> simp [slices]
  | succ count ih =>
    cases items with
    | nil => simp [slices]
    | cons item items =>
      rw [slices, List.length_cons, Nat.add_lt_add_iff_right, ih (items.drop size),
        List.length_drop, List.length_cons, Nat.succ_mul]
      omega

theorem length_le_of_mem_slices {slice : List α} (h : slice ∈ slices size items) :
    slice ≠ [] ∧ slice.length ≤ size + 1 := by
  induction items using slices.induct size with
  | case1 => simp [slices] at h
  | case2 item items ih =>
    rw [slices, List.mem_cons] at h
    rcases h with rfl | h
    · refine ⟨List.cons_ne_nil _ _, ?_⟩
      rw [List.length_cons, List.length_take]
      omega
    · exact ih h

theorem slices_map (f : α → β) :
    slices size (items.map f) = (slices size items).map (List.map f) := by
  induction items using slices.induct size with
  | case1 => simp [slices]
  | case2 item items ih => rw [List.map_cons, slices, slices, ← List.map_drop, ih]; simp

variable {size items} in
/-- What fits in one slice is not cut. -/
theorem slices_of_length_le (hne : items ≠ []) (h : items.length ≤ size + 1) :
    slices size items = [items] := by
  obtain ⟨item, rest, rfl⟩ := List.exists_cons_of_ne_nil hne
  have hrest : rest.length ≤ size := Nat.succ_le_succ_iff.mp h
  rw [slices, List.take_of_length_le hrest, List.drop_eq_nil_of_le hrest, slices]

/-- How many batches the ceiling leaves room for. -/
def allowed (limit : UploadLimit) : Nat := (limit.total / limit.batchSize).toNat

theorem exceeds_iff {limit : UploadLimit} (h : 0 < limit.batchSize) (before : Nat) :
    exceeds (before + 1 : Nat) limit = true ↔ allowed limit ≤ before := by
  have hdiv := Int.ediv_lt_iff_lt_mul (a := limit.total) (b := (before + 1 : Nat)) h
  unfold exceeds allowed
  rw [decide_eq_true_iff, ← hdiv]
  omega

end Slices

end PullGate.Batch
