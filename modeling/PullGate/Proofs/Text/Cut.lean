import PullGate.Text.Basic

/-! Cutting text: in two, where the cut lies when more text follows; in pieces, which are found
again when a joined text is split; and the prefixes that are left alone. -/

namespace PullGate.Text

variable {sep : CodePoint} {s t a b : Text}

theorem cut?_append (sep : CodePoint) (t u : Text) :
    cut? sep (t ++ u) = match cut? sep t with
      | some (a, b) => some (a, b ++ u)
      | none => (cut? sep u).map fun (a, b) => (t ++ a, b) := by
  induction t with
  | nil => cases h : cut? sep u <;> simp [cut?, h]
  | cons c t ih =>
    by_cases hc : c = sep
    · simp [cut?, hc]
    · simp only [List.cons_append, cut?, hc, ↓reduceIte, ih]
      cases cut? sep t with
      | none => simp [Function.comp_def]
      | some cut => rfl

theorem cut?_eq_some (h : cut? sep t = some (a, b)) : t = a ++ sep :: b ∧ sep ∉ a := by
  induction t generalizing a b with
  | nil => cases h
  | cons c t ih =>
    by_cases hc : c = sep
    · simp only [cut?, hc, ↓reduceIte, Option.some.injEq, Prod.mk.injEq] at h
      obtain ⟨rfl, rfl⟩ := h
      exact ⟨by rw [hc]; rfl, List.not_mem_nil⟩
    · simp only [cut?, hc, ↓reduceIte, Option.map_eq_some_iff, Prod.mk.injEq] at h
      obtain ⟨⟨a', b'⟩, hcut, rfl, rfl⟩ := h
      obtain ⟨rfl, hnot⟩ := ih hcut
      refine ⟨rfl, ?_⟩
      rw [List.mem_cons, not_or]
      exact ⟨fun h => hc h.symm, hnot⟩

theorem cut?_eq_none : cut? sep t = none ↔ sep ∉ t := by
  induction t with
  | nil => simp [cut?]
  | cons c t ih =>
    by_cases hc : c = sep
    · simp [cut?, hc]
    · have hne : sep ≠ c := fun h => hc h.symm
      simp [cut?, hc, hne, ih]

theorem cut?_append_cons (h : sep ∉ a) (b : Text) : cut? sep (a ++ sep :: b) = some (a, b) := by
  rw [cut?_append, cut?_eq_none.mpr h]
  simp [cut?]

theorem exists_split (sep : CodePoint) (t : Text) :
    ∃ piece pieces, split sep t = piece :: pieces := by
  induction t with
  | nil => exact ⟨[], [], rfl⟩
  | cons c t ih =>
    obtain ⟨piece, pieces, h⟩ := ih
    unfold split
    split
    · exact ⟨_, _, rfl⟩
    · exact ⟨c :: piece, pieces, by rw [h]⟩

theorem split_cons_sep (sep : CodePoint) (t : Text) : split sep (sep :: t) = [] :: split sep t := by
  rw [split, if_pos rfl]

theorem split_cons {c : CodePoint} {piece : Text} {pieces : List Text} (hc : c ≠ sep)
    (h : split sep t = piece :: pieces) : split sep (c :: t) = (c :: piece) :: pieces := by
  rw [split, if_neg hc, h]

theorem split_append {piece : Text} {pieces : List Text} (ha : sep ∉ a)
    (h : split sep t = piece :: pieces) : split sep (a ++ t) = (a ++ piece) :: pieces := by
  induction a with
  | nil => exact h
  | cons c a ih =>
    rw [List.mem_cons, not_or] at ha
    exact split_cons (Ne.symm ha.1) (ih ha.2)

theorem split_of_not_mem (h : sep ∉ t) : split sep t = [t] := by
  have hsplit := split_append h (show split sep [] = [] :: [] from rfl)
  rwa [List.append_nil] at hsplit

theorem split_append_sep (sep : CodePoint) (s t : Text) :
    split sep (s ++ sep :: t) = split sep s ++ split sep t := by
  induction s with
  | nil => exact split_cons_sep sep t
  | cons c s ih =>
    by_cases hc : c = sep
    · rw [hc, List.cons_append, split_cons_sep, split_cons_sep, ih]
      rfl
    · obtain ⟨first, pieces, h⟩ := exists_split sep s
      rw [split_cons hc h, List.cons_append]
      rw [h] at ih
      exact split_cons hc ih

theorem join_cons {piece : Text} {pieces : List Text} (h : pieces ≠ []) :
    join s (piece :: pieces) = piece ++ s ++ join s pieces := by
  cases pieces with
  | nil => exact absurd rfl h
  | cons next pieces => rfl

/-- What holds of every piece, and is kept when texts are put together around the separator, holds
of the pieces joined. -/
theorem join_induction {P : Text → Prop} (hnil : P [])
    (happend : ∀ a b, P a → P b → P (a ++ s ++ b)) {pieces : List Text}
    (h : ∀ piece ∈ pieces, P piece) : P (join s pieces) := by
  induction pieces with
  | nil => exact hnil
  | cons piece pieces ih =>
    obtain ⟨hpiece, hpieces⟩ := List.forall_mem_cons.mp h
    by_cases hlast : pieces = []
    · subst hlast
      exact hpiece
    · rw [join_cons hlast]
      exact happend piece _ hpiece (ih hpieces)

theorem join_append {xs ys : List Text} (hxs : xs ≠ []) (hys : ys ≠ []) :
    join s (xs ++ ys) = join s xs ++ s ++ join s ys := by
  induction xs with
  | nil => exact absurd rfl hxs
  | cons x xs ih =>
    cases xs with
    | nil => exact join_cons hys
    | cons x' xs =>
      have hmore : x' :: xs ++ ys ≠ [] := List.cons_ne_nil _ _
      rw [List.cons_append, join_cons hmore, ih (List.cons_ne_nil _ _),
        join_cons (List.cons_ne_nil x' xs)]
      simp only [List.append_assoc]

theorem join_split (sep : CodePoint) (t : Text) : join [sep] (split sep t) = t := by
  induction t with
  | nil => rfl
  | cons c t ih =>
    obtain ⟨first, pieces, h⟩ := exists_split sep t
    by_cases hc : c = sep
    · rw [hc, split_cons_sep, join_cons (by simp [h]), ih]
      rfl
    · rw [split_cons hc h]
      rw [h] at ih
      rw [← ih]
      cases pieces with
      | nil => rfl
      | cons next pieces => rfl

/-- Behind a piece that is joined to others comes the separator, or nothing. -/
theorem exists_join_eq {piece : Text} {pieces : List Text} (h : piece ∈ pieces) :
    ∃ before after, join s pieces = before ++ (piece ++ after) ∧ (after = [] ∨ s <+: after) := by
  induction pieces with
  | nil => cases h
  | cons first pieces ih =>
    cases pieces with
    | nil =>
      obtain rfl := List.mem_singleton.mp h
      exact ⟨[], [], by simp [join], .inl rfl⟩
    | cons next pieces =>
      have hjoin : join s (first :: next :: pieces) = first ++ s ++ join s (next :: pieces) :=
        join_cons (List.cons_ne_nil _ _)
      rcases List.mem_cons.mp h with rfl | h
      · exact ⟨[], s ++ join s (next :: pieces), by simp [hjoin], .inr (List.prefix_append _ _)⟩
      · obtain ⟨before, after, hpiece, hafter⟩ := ih h
        exact ⟨first ++ s ++ before, after, by simp [hjoin, hpiece], hafter⟩

theorem exists_of_mem_split {piece : Text} (h : piece ∈ split sep t) :
    ∃ before after, t = before ++ (piece ++ after) ∧ (after = [] ∨ [sep] <+: after) := by
  obtain ⟨before, after, hjoin, hafter⟩ := exists_join_eq (s := [sep]) h
  exact ⟨before, after, by rw [← join_split sep t, hjoin], hafter⟩

theorem mem_of_mem_split {c : CodePoint} {piece : Text} (hpiece : piece ∈ split sep t)
    (hc : c ∈ piece) : c ∈ t := by
  obtain ⟨before, after, rfl, -⟩ := exists_of_mem_split hpiece
  simp [hc]

/-- Pieces without the separator are found again. -/
theorem split_join {pieces : List Text} (hne : pieces ≠ []) (h : ∀ piece ∈ pieces, sep ∉ piece) :
    split sep (join [sep] pieces) = pieces := by
  induction pieces with
  | nil => exact absurd rfl hne
  | cons piece pieces ih =>
    obtain ⟨hpiece, hpieces⟩ := List.forall_mem_cons.mp h
    cases pieces with
    | nil => exact split_of_not_mem hpiece
    | cons next pieces =>
      have hmore : next :: pieces ≠ [] := List.cons_ne_nil _ _
      rw [join_cons hmore, List.append_assoc, List.singleton_append, split_append_sep,
        split_of_not_mem hpiece, ih hmore hpieces, List.singleton_append]

theorem dropPrefix?_append (start t : Text) : dropPrefix? start (start ++ t) = some t := by
  induction start with
  | nil => rfl
  | cons s start ih => simpa [dropPrefix?] using ih

theorem dropPrefix?_isSome {start t : Text} :
    (dropPrefix? start t).isSome = true ↔ start <+: t := by
  induction start generalizing t with
  | nil => simp [dropPrefix?]
  | cons s start ih =>
    cases t with
    | nil => simp [dropPrefix?]
    | cons c t =>
      by_cases hc : s = c
      · simp [dropPrefix?, hc, ih]
      · simp [dropPrefix?, hc]

end PullGate.Text
