import PullGate.Proofs.Batch.Basic

/-! Sorting by severity.  The result is settled by three things: it has the same items, none of them
stands behind a less severe one, and those of one severity are as they were.  So it is the most
severe items, the middling ones and the least severe ones, in this order. -/

namespace PullGate.Batch

variable {α : Type} {severity : α → Severity} {items sorted : List α}

/-- The items of one severity, in their order. -/
def band (severity : α → Severity) (s : Severity) (items : List α) : List α :=
  items.filter fun item => severity item = s

/-- The items of all severities, band after band. -/
def bands (severity : α → Severity) (items : List α) : List α :=
  band severity .high items ++ (band severity .medium items ++ band severity .low items)

/-- What a stable sort by severity makes of items. -/
structure StablySorted (severity : α → Severity) (items sorted : List α) : Prop where
  perm : sorted.Perm items
  descending : sorted.Pairwise fun before after => ¬(severity before).rank < (severity after).rank
  stable : ∀ s, band severity s sorted = band severity s items

theorem band_cons_self {item : α} {s : Severity} (h : severity item = s) (items : List α) :
    band severity s (item :: items) = item :: band severity s items :=
  List.filter_cons_of_pos (decide_eq_true h)

theorem band_cons_of_ne {item : α} {s : Severity} (h : severity item ≠ s) (items : List α) :
    band severity s (item :: items) = band severity s items :=
  List.filter_cons_of_neg fun htrue => h (of_decide_eq_true htrue)

/-- A band that would have to stand further in front is empty. -/
theorem band_eq_nil {item : α} {s : Severity}
    (h : ∀ later ∈ items, ¬(severity item).rank < (severity later).rank)
    (hs : (severity item).rank < s.rank) : band severity s items = [] := by
  refine List.filter_eq_nil_iff.mpr fun later hlater hband => h later hlater ?_
  rw [of_decide_eq_true hband]
  exact hs

/-- A sorted list is its own bands: what is behind an item of one band is in no band in front. -/
theorem eq_bands_self
    (h : sorted.Pairwise fun before after => ¬(severity before).rank < (severity after).rank) :
    sorted = bands severity sorted := by
  induction sorted with
  | nil => rfl
  | cons item rest ih =>
    obtain ⟨hitem, hrest⟩ := List.pairwise_cons.mp h
    have htail := ih hrest
    unfold bands at htail ⊢
    cases hs : severity item with
    | high =>
      rw [band_cons_self hs, band_cons_of_ne (by simp [hs]), band_cons_of_ne (by simp [hs]),
        List.cons_append, ← htail]
    | medium =>
      have hhigh : band severity .high rest = [] := band_eq_nil hitem (by rw [hs]; decide)
      rw [hhigh, List.nil_append] at htail
      rw [band_cons_of_ne (by simp [hs]), band_cons_self hs, band_cons_of_ne (by simp [hs]), hhigh,
        List.nil_append, List.cons_append, ← htail]
    | low =>
      have hhigh : band severity .high rest = [] := band_eq_nil hitem (by rw [hs]; decide)
      have hmedium : band severity .medium rest = [] := band_eq_nil hitem (by rw [hs]; decide)
      rw [hhigh, hmedium, List.nil_append, List.nil_append] at htail
      rw [band_cons_of_ne (by simp [hs]), band_cons_of_ne (by simp [hs]), band_cons_self hs, hhigh,
        hmedium, List.nil_append, List.nil_append, ← htail]

theorem StablySorted.eq_bands (h : StablySorted severity items sorted) :
    sorted = bands severity items := by
  rw [eq_bands_self h.descending]
  simp only [bands, h.stable]

theorem severity_of_mem_band {item : α} {s : Severity} (h : item ∈ band severity s items) :
    severity item = s :=
  of_decide_eq_true (List.mem_filter.mp h).2

theorem pairwise_band (severity : α → Severity) (s : Severity) (items : List α) :
    (band severity s items).Pairwise fun a b => atLeast severity a b = true := by
  refine List.pairwise_of_forall_sublist fun {a b} hpair => ?_
  have ha : severity a = s := severity_of_mem_band (hpair.subset (by simp))
  have hb : severity b = s := severity_of_mem_band (hpair.subset (by simp))
  rw [atLeast, ha, hb]
  exact decide_eq_true (Nat.le_refl _)

/-- A band is in order as it stands, so sorting keeps it, and there is nothing else of its severity
that sorting could put in. -/
theorem band_bySeverity (severity : α → Severity) (items : List α) (s : Severity) :
    band severity s (bySeverity severity items) = band severity s items := by
  have hkept : (band severity s items).Sublist (bySeverity severity items) :=
    List.sublist_mergeSort (atLeast_trans severity) (atLeast_total severity)
      (pairwise_band severity s items) List.filter_sublist
  have hwithin : (band severity s items).Sublist (band severity s (bySeverity severity items)) := by
    have hself : band severity s (band severity s items) = band severity s items :=
      List.filter_eq_self.mpr fun item h => decide_eq_true (severity_of_mem_band h)
    rw [← hself]
    exact hkept.filter _
  have hlength := ((perm_bySeverity severity items).filter fun item => severity item = s).length_eq
  exact (hwithin.eq_of_length hlength.symm).symm

theorem stablySorted_bySeverity (severity : α → Severity) (items : List α) :
    StablySorted severity items (bySeverity severity items) where
  perm := perm_bySeverity severity items
  descending := by
    refine (List.pairwise_mergeSort (atLeast_trans severity) (atLeast_total severity) items).imp ?_
    intro before after h
    exact Nat.not_lt.mpr (of_decide_eq_true h)
  stable := band_bySeverity severity items

/-- Sorting by severity is the stable sort, and the only one: the items band after band.  What is
sorted stays as it is. -/
theorem order_bySeverity (severity : α → Severity) (items : List α) :
    (Severity.low.rank < Severity.medium.rank ∧ Severity.medium.rank < Severity.high.rank) ∧
    (∀ sorted, StablySorted severity items sorted ↔ sorted = bySeverity severity items) ∧
    bySeverity severity items = bands severity items ∧
    bySeverity severity (bySeverity severity items) = bySeverity severity items := by
  have hsorted := stablySorted_bySeverity severity items
  have hunique (sorted : List α) :
      StablySorted severity items sorted ↔ sorted = bySeverity severity items := by
    constructor
    · intro h
      rw [h.eq_bands, hsorted.eq_bands]
    · rintro rfl
      exact hsorted
  have hagain : bySeverity severity (bySeverity severity items) = bySeverity severity items := by
    rw [(stablySorted_bySeverity severity (bySeverity severity items)).eq_bands]
    exact (eq_bands_self hsorted.descending).symm
  exact ⟨⟨by decide, by decide⟩, hunique, hsorted.eq_bands, hagain⟩

end PullGate.Batch
