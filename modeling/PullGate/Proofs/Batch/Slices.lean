import Mathlib.Data.Rat.Floor
import PullGate.Proofs.Batch.Basic

/-! Items cut into slices; a text is cut as the list of its code points.  Put together the slices
are the items, and all but the last are full, which settles where the cuts are and how many slices
there are.  The ceiling lets the first slices pass, as many full ones as it has room for. -/

namespace PullGate.Batch

variable {α : Type} {items : List α} {cut : List (List α)} {size : Int}

/-- What it is for items to be cut into slices of a size. -/
structure Slicing (size : Int) (items : List α) (cut : List (List α)) : Prop where
  flatten : cut.flatten = items
  ne_nil : ∀ slice ∈ cut, slice ≠ []
  full : ∀ slice ∈ cut.dropLast, slice.length = size
  length_le : ∀ slice ∈ cut, slice.length ≤ size

/-- The slices that do not pass the ceiling, each with its number, counted from one. -/
def admitted (limit : UploadLimit) (cut : List (List α)) : List (List α × Nat) :=
  (cut.zipIdx 1).filter fun x => !exceeds x.2 limit

theorem exists_width (h : 0 < size) : ∃ width : Nat, size = (width + 1 : Nat) :=
  ⟨size.toNat - 1, by omega⟩

section Cuts

variable {width : Nat} {slice : List α}

theorem slices_append (h : slice.length = width + 1) (items : List α) :
    slices width (slice ++ items) = slice :: slices width items := by
  obtain ⟨item, rest, rfl⟩ := List.exists_cons_of_length_eq_add_one h
  have hrest : rest.length = width := Nat.succ_inj.mp h
  rw [List.cons_append, slices, List.take_left' hrest, List.drop_left' hrest]

theorem flatten_slices (width : Nat) (items : List α) : (slices width items).flatten = items := by
  induction items using slices.induct width with
  | case1 => simp [slices]
  | case2 item items ih =>
    rw [slices, List.flatten_cons, ih, List.cons_append, List.take_append_drop]

/-- A slice with another behind it is full, for there were items left when it was cut off. -/
theorem length_of_mem_dropLast_slices (h : slice ∈ (slices width items).dropLast) :
    slice.length = width + 1 := by
  induction items using slices.induct width with
  | case1 => simp [slices] at h
  | case2 item items ih =>
    rw [slices] at h
    by_cases hrest : items.length ≤ width
    · rw [List.drop_eq_nil_of_le hrest, slices] at h
      simp at h
    · have hmore : slices width (items.drop width) ≠ [] := by
        rw [← List.length_pos_iff, lt_length_slices, List.length_drop]
        omega
      rw [List.dropLast_cons_of_ne_nil hmore, List.mem_cons] at h
      rcases h with rfl | h
      · rw [List.length_cons, List.length_take]
        omega
      · exact ih h

theorem slicing_slices (width : Nat) (items : List α) :
    Slicing (width + 1 : Nat) items (slices width items) where
  flatten := flatten_slices width items
  ne_nil := fun _ h => (length_le_of_mem_slices width items h).1
  full := fun _ h => Int.natCast_inj.mpr (length_of_mem_dropLast_slices h)
  length_le := fun _ h => Int.ofNat_le.mpr (length_le_of_mem_slices width items h).2

/-- There is one way only to cut items into slices: the first slice is full or it is the last. -/
theorem Slicing.eq_slices (h : Slicing (width + 1 : Nat) items cut) : cut = slices width items := by
  induction cut generalizing items with
  | nil =>
    obtain rfl : [] = items := h.flatten
    rw [slices]
  | cons slice rest ih =>
    obtain rfl : slice ++ rest.flatten = items := h.flatten
    have hle : slice.length ≤ width + 1 := Int.ofNat_le.mp (h.length_le slice List.mem_cons_self)
    cases rest with
    | nil =>
      rw [List.flatten_nil, List.append_nil,
        slices_of_length_le (h.ne_nil slice List.mem_cons_self) hle]
    | cons next rest =>
      have hfull : slice.length = width + 1 := Int.natCast_inj.mp (h.full slice List.mem_cons_self)
      have hrest : Slicing (width + 1 : Nat) (next :: rest).flatten (next :: rest) :=
        ⟨rfl, fun s hs => h.ne_nil s (List.mem_cons_of_mem slice hs),
          fun s hs => h.full s (List.mem_cons_of_mem slice hs),
          fun s hs => h.length_le s (List.mem_cons_of_mem slice hs)⟩
      rw [slices_append hfull, ← ih hrest]

/-- There are as many slices as the size goes into the number of items, rounded up. -/
theorem length_slices (width : Nat) (items : List α) :
    (slices width items).length = ⌈(items.length : ℚ) / (width + 1 : Nat)⌉ := by
  have hwidth : (0 : ℚ) < (width + 1 : Nat) := Nat.cast_pos.mpr width.succ_pos
  have hceil : (slices width items).length = ⌈(items.length : ℚ) / (width + 1 : Nat)⌉₊ := by
    refine eq_of_forall_ge_iff fun count => ?_
    rw [Nat.ceil_le, div_le_iff₀ hwidth, ← Nat.not_lt, lt_length_slices, Nat.not_lt]
    exact_mod_cast Iff.rfl
  rw [hceil, Int.natCast_ceil_eq_ceil (by positivity)]

end Cuts

section Ceiling

variable {limit : UploadLimit}

theorem allowed_eq (h : 0 < size) (total : Int) :
    (allowed ⟨size, total⟩ : Int) = max 0 ⌊(total : ℚ) / size⌋ := by
  lift size to Nat using Int.le_of_lt h
  rw [allowed, Int.toNat_eq_max, Int.cast_natCast, Rat.floor_intCast_div_natCast, max_comm]

/-- Slices that have `before` others in front of them: once one is past the ceiling, so are all
behind it. -/
theorem filter_exceeds (h : 0 < limit.batchSize) (cut : List (List α)) (before : Nat) :
    ((cut.zipIdx (before + 1)).filter fun x => !exceeds x.2 limit) =
      (cut.zipIdx (before + 1)).take (allowed limit - before) := by
  induction cut generalizing before with
  | nil => rw [List.zipIdx_nil, List.filter_nil, List.take_nil]
  | cons slice rest ih =>
    rw [List.zipIdx_cons]
    by_cases hpast : allowed limit ≤ before
    · have hexceeds := (exceeds_iff h before).mpr hpast
      have hnone : allowed limit - before = 0 := by omega
      have hlater : allowed limit - (before + 1) = 0 := by omega
      rw [List.filter_cons_of_neg (by simpa using hexceeds), ih, hnone, hlater, List.take_zero,
        List.take_zero]
    · have hpass := (exceeds_iff h before).not.mpr hpast
      have hmore : allowed limit - before = allowed limit - (before + 1) + 1 := by omega
      rw [List.filter_cons_of_pos (by simpa using hpass), ih, hmore, List.take_succ_cons]

theorem admitted_eq (h : 0 < limit.batchSize) (cut : List (List α)) :
    admitted limit cut = (cut.zipIdx 1).take (allowed limit) :=
  filter_exceeds h cut 0

/-- What passes is full slices, except for a last one that ends the items. -/
theorem length_admitted (h : 0 < size) (hcut : Slicing size items cut) (total : Int) :
    (((admitted ⟨size, total⟩ cut).map Prod.fst).flatten.length : Int) =
      min (items.length : Int) (max 0 ⌊(total : ℚ) / size⌋ * size) := by
  obtain ⟨width, rfl⟩ := exists_width h
  have hfirst : (admitted ⟨(width + 1 : Nat), total⟩ cut).map Prod.fst =
      (slices width items).take (allowed ⟨(width + 1 : Nat), total⟩) := by
    rw [admitted_eq h, List.map_take, List.zipIdx_map_fst, hcut.eq_slices]
  rw [hfirst, flatten_take_slices, List.length_take, ← allowed_eq h]
  push_cast
  rw [min_comm]

end Ceiling

theorem partition_eq_error_iff {e : BadSize} :
    partition items size = .error e ↔ size ≤ 0 ∧ e = ⟨size⟩ := by
  unfold partition
  split <;> rename_i hsize
  · rw [Except.error.injEq, and_iff_right hsize, eq_comm]
  · simp [hsize]

theorem partition_eq_ok_iff :
    partition items size = .ok cut ↔ 0 < size ∧ Slicing size items cut := by
  unfold partition
  split <;> rename_i hsize
  · simp [Int.not_lt.mpr hsize]
  · obtain ⟨width, rfl⟩ := exists_width (Int.not_le.mp hsize)
    rw [Except.ok.injEq, and_iff_right (Int.not_le.mp hsize)]
    constructor
    · rintro rfl
      exact slicing_slices width items
    · intro h
      exact h.eq_slices.symm

/-- A size that is not positive is refused, whatever there is to cut.  For any other there is one
way to cut, with as many slices as the size goes into the items, rounded up; and the ceiling lets
the first of them pass, as far as it goes in whole slices. -/
theorem slicing_partition (items : List α) (size : Int) :
    (∀ e, partition items size = .error e ↔ size ≤ 0 ∧ e = ⟨size⟩) ∧
    (∀ cut, partition items size = .ok cut ↔ 0 < size ∧ Slicing size items cut) ∧
    (0 < size → ∃ cut, partition items size = .ok cut ∧
      cut.length = ⌈(items.length : ℚ) / size⌉ ∧
      ∀ total : Int, admitted ⟨size, total⟩ cut <+: cut.zipIdx 1 ∧
        (((admitted ⟨size, total⟩ cut).map Prod.fst).flatten.length : Int) =
          min (items.length : Int) (max 0 ⌊(total : ℚ) / size⌋ * size)) := by
  refine ⟨fun _ => partition_eq_error_iff, fun _ => partition_eq_ok_iff, fun hsize => ?_⟩
  obtain ⟨width, rfl⟩ := exists_width hsize
  have hcut := slicing_slices width items
  refine ⟨slices width items, partition_eq_ok_iff.mpr ⟨hsize, hcut⟩, ?count,
    fun total => ⟨?first, ?room⟩⟩
  case count => exact length_slices width items
  case first =>
    rw [admitted_eq hsize]
    exact List.take_prefix _ _
  case room => exact length_admitted hsize hcut total

/-- Five items in pairs, and the pairs that a ceiling of five lets pass. -/
theorem slicing_partition_pairs :
    0 < (2 : Int) ∧ partition [1, 2, 3, 4, 5] 2 = .ok [[1, 2], [3, 4], [5]] ∧
    admitted ⟨2, 5⟩ [[1, 2], [3, 4], [5]] = [([1, 2], 1), ([3, 4], 2)] ∧
    ∃ cut, partition [1, 2, 3, 4, 5] 2 = .ok cut ∧
      cut.length = ⌈(5 : ℚ) / 2⌉ ∧
      ∀ total : Int, admitted ⟨2, total⟩ cut <+: cut.zipIdx 1 ∧
        (((admitted ⟨2, total⟩ cut).map Prod.fst).flatten.length : Int) =
          min 5 (max 0 ⌊(total : ℚ) / 2⌋ * 2) := by
  refine ⟨by decide, by cbv, by decide, ?_⟩
  simpa using (slicing_partition [1, 2, 3, 4, 5] 2).2.2 (by decide)

end PullGate.Batch
