import PullGate.Proofs.Batch.Order
import PullGate.Proofs.Decoration.Batches

/-! The upload of annotations.  Whatever the answers are, an upload that comes to an end has put the
most severe annotations on the host, as many as it reports, and tells whether any were left out. -/

namespace PullGate.Decoration

open Batch

/-- The account of an upload that ended: `ordered` are the findings with their places, most severe
first, and `sent` are the batches with the answers to them. A batch may have `size` findings, and
all of them together `total`. -/
structure Account (s : Setup) (a : Analysis) (size total : Nat) (p : Played (Except Failure Upload))
    (upload : Upload) (ordered : List (Finding × Nat))
    (sent : List (List (Finding × Nat) × Answer)) : Prop where
  perm : ordered.Perm a.annotations.zipIdx
  pairwise : ordered.Pairwise (Precedes Finding.severity)
  said : p.said = sent.map fun x =>
    ((Errand.postBatch (x.1.map fun y => .ofFinding y.1)).call s a, x.2)
  taken_eq : (taken sent).flatten = ordered.take upload.count
  count_le : upload.count ≤ a.annotations.length
  length_le : ∀ batch ∈ taken sent, batch.length ≤ size
  nodup : ((sent.map Prod.fst).flatten.map Prod.snd).Nodup
  total_le : (sent.map Prod.fst).flatten.length ≤ total
  left_out : ∀ x ∈ ordered.drop upload.count, ∀ y ∈ (taken sent).flatten,
    Precedes Finding.severity y x
  truncated : upload.truncated = true ↔ upload.count < a.annotations.length
  count_eq : (∀ x ∈ sent, reception x.2 ≠ .tooLarge) →
    upload.count = min a.annotations.length (total / size * size)
  count_cloud : s.capabilities = .cloud → (∀ x ∈ sent, reception x.2 ≠ .tooLarge) →
    upload.count = if a.annotations.length ≤ 1000 then a.annotations.length else 1000
  warned : warnings p.logged =
    if upload.truncated then
      if ∃ x ∈ sent, reception x.2 = .tooLarge then [fullWarning]
      else [ceilingWarning s.capabilities.limit (a.annotations.length - upload.count)]
    else []

theorem taken_map {β γ : Type} (f : β → γ) (sent : List (β × Answer)) :
    taken (sent.map fun x => (f x.1, x.2)) = (taken sent).map f := by
  simp [taken, List.filter_map, Function.comp_def]

theorem mem_slices_of_mem_exchanges {β : Type} {size room : Nat} {items : List β} {q : List Answer}
    {x : List β × Answer} (h : x ∈ exchanges ((slices size items).take room) q) :
    x.1 ∈ slices size items :=
  List.mem_of_mem_take (mem_of_mem_exchanges h)

/-- Slices that are sent in order cover a first part of the items, and those that are taken a first
part of that, which is all there is room for unless one is not taken. -/
theorem exchanges_slices {β : Type} (size : Nat) (items : List β) (room : Nat) (q : List Answer) :
    ∃ count ≤ items.length,
      (taken (exchanges ((slices size items).take room) q)).flatten = items.take count ∧
      (∃ most ≤ room * (size + 1),
        ((exchanges ((slices size items).take room) q).map Prod.fst).flatten = items.take most) ∧
      ((∃ x ∈ exchanges ((slices size items).take room) q, reception x.2 ≠ .taken) →
        count < items.length) ∧
      ((∀ x ∈ exchanges ((slices size items).take room) q, reception x.2 = .taken) →
        count = min items.length (room * (size + 1))) := by
  obtain ⟨number, hnumber, htaken, hsent, hless⟩ :=
    exchanges_prefix ((slices size items).take room) q
  have hpieces := lt_length_slices size items
  rw [List.length_take] at hnumber hless
  have hfit : number ≤ room := by omega
  rw [List.take_take, Nat.min_eq_left hfit] at htaken
  rw [List.take_take] at hsent
  refine ⟨min items.length (number * (size + 1)), Nat.min_le_left _ _, ?_, ?_, ?_, ?_⟩
  · rw [htaken, flatten_take_slices, Nat.min_comm, List.take_eq_take_min]
  · refine ⟨min (number + 1) room * (size + 1), ?_, ?_⟩
    · exact Nat.mul_le_mul_right _ (Nat.min_le_right _ _)
    · rw [hsent, flatten_take_slices]
  · intro h
    have hstop := hless.mpr h
    have hfew : number * (size + 1) < items.length := (hpieces number).mp (by omega)
    omega
  · intro h
    have hall : ¬number < min room (slices size items).length := by
      rw [hless]
      rintro ⟨x, hx, hr⟩
      exact hr (h x hx)
    by_cases hroom : room < (slices size items).length
    · have hnum : number = room := by omega
      rw [hnum]
    · have hnum : ¬number < (slices size items).length := by omega
      have hmany : ¬room < (slices size items).length := hroom
      rw [hpieces] at hnum hmany
      omega

variable {s : Setup} {a : Analysis} {q : List Answer} {upload : Upload} {size total : Nat}

theorem allowed_natCast (h : s.capabilities.limit = ⟨size, total⟩) :
    allowed s.capabilities.limit = total / size := by
  rw [h, allowed, ← Int.natCast_ediv, Int.toNat_natCast]

/-- The batches of findings with their places that there is room for. -/
def placedBatches (size total : Nat) (ordered : List (Finding × Nat)) :
    List (List (Finding × Nat)) :=
  (slices (size - 1) ordered).take (total / size)

section Placed

variable {ordered : List (Finding × Nat)}

theorem payloads_eq (h : ordered.map Prod.fst = bySeverity Finding.severity a.annotations) :
    payloads a = ordered.map fun y => .ofFinding y.1 := by
  rw [payloads, ← h, List.map_map]
  rfl

theorem cut_eq (hlimit : s.capabilities.limit = ⟨size, total⟩)
    (h : ordered.map Prod.fst = bySeverity Finding.severity a.annotations) :
    cut s a = (slices (size - 1) ordered).map (List.map fun y => .ofFinding y.1) := by
  rw [cut, payloads_eq h, hlimit]
  exact slices_map (size - 1) ordered _

theorem exchanges_batches (hlimit : s.capabilities.limit = ⟨size, total⟩)
    (h : ordered.map Prod.fst = bySeverity Finding.severity a.annotations) (q : List Answer) :
    exchanges (batches s a) q = (exchanges (placedBatches size total ordered) q).map fun x =>
      (x.1.map fun y => .ofFinding y.1, x.2) := by
  rw [batches, cut_eq hlimit h, allowed_natCast hlimit, ← List.map_take]
  exact exchanges_map _ _ q

theorem allowed_lt_length_cut (hsize : 0 < size) (hlimit : s.capabilities.limit = ⟨size, total⟩) :
    allowed s.capabilities.limit < (cut s a).length ↔
      total / size * size < a.annotations.length := by
  obtain ⟨ordered, hordered, hperm, -⟩ := exists_order Finding.severity a.annotations
  have hlength : ordered.length = a.annotations.length := by
    rw [hperm.length_eq, List.length_zipIdx]
  have hsucc : size - 1 + 1 = size := by omega
  rw [allowed_natCast hlimit, cut_eq hlimit hordered, List.length_map, lt_length_slices, hsucc,
    hlength]

theorem ending_uploadAnnotations (hsize : 0 < size) (hlimit : s.capabilities.limit = ⟨size, total⟩)
    (h : ordered.map Prod.fst = bySeverity Finding.severity a.annotations)
    (hposting : Posting s a (payloads a).length 0 (batches s a)
      (allowed s.capabilities.limit < (cut s a).length) q (uploadAnnotations s a))
    (hvalue : ((uploadAnnotations s a).play q).value = .ok upload) :
    ((∀ x ∈ exchanges (placedBatches size total ordered) q, reception x.2 = .taken) ∧
      upload.truncated = decide (total / size * size < a.annotations.length) ∧
      warnings ((uploadAnnotations s a).play q).logged =
        if total / size * size < a.annotations.length then
          [ceilingWarning s.capabilities.limit (a.annotations.length - upload.count)]
        else []) ∨
    (∃ x ∈ exchanges (placedBatches size total ordered) q, reception x.2 = .tooLarge) ∧
      upload.truncated = true ∧
      warnings ((uploadAnnotations s a).play q).logged = [fullWarning] := by
  have hcount : (payloads a).length = a.annotations.length := by
    rw [payloads, List.length_map, bySeverity, List.length_mergeSort]
  have hpast := allowed_lt_length_cut (a := a) hsize hlimit
  rcases hposting.ending hvalue with ⟨hall, hend⟩ | ⟨⟨x, hx, hlarge⟩, hend⟩
  · rw [exchanges_batches hlimit h, List.forall_mem_map] at hall
    exact .inl ⟨hall, by simpa [hpast, hcount] using hend⟩
  · rw [exchanges_batches hlimit h] at hx
    obtain ⟨y, hy, rfl⟩ := List.mem_map.mp hx
    exact .inr ⟨⟨y, hy, hlarge⟩, hend⟩

theorem count_uploadAnnotations {count : Nat} (hlimit : s.capabilities.limit = ⟨size, total⟩)
    (h : ordered.map Prod.fst = bySeverity Finding.severity a.annotations)
    (hposting : Posting s a (payloads a).length 0 (batches s a)
      (allowed s.capabilities.limit < (cut s a).length) q (uploadAnnotations s a))
    (hvalue : ((uploadAnnotations s a).play q).value = .ok upload)
    (htaken : (taken (exchanges (placedBatches size total ordered) q)).flatten =
      ordered.take count) (hcount : count ≤ ordered.length) : upload.count = count := by
  have hposted := hposting.count_eq hvalue
  rw [exchanges_batches hlimit h, taken_map, ← List.map_flatten, List.length_map, htaken,
    List.length_take] at hposted
  omega

/-- One warning at most is logged, and none if nothing is left out. -/
theorem warnings_uploadAnnotations (hsize : 0 < size)
    (hlimit : s.capabilities.limit = ⟨size, total⟩)
    (h : ordered.map Prod.fst = bySeverity Finding.severity a.annotations)
    (hposting : Posting s a (payloads a).length 0 (batches s a)
      (allowed s.capabilities.limit < (cut s a).length) q (uploadAnnotations s a))
    (hvalue : ((uploadAnnotations s a).play q).value = .ok upload) :
    warnings ((uploadAnnotations s a).play q).logged =
      if upload.truncated then
        if ∃ x ∈ exchanges (placedBatches size total ordered) q, reception x.2 = .tooLarge then
          [fullWarning]
        else [ceilingWarning s.capabilities.limit (a.annotations.length - upload.count)]
      else [] := by
  rcases ending_uploadAnnotations hsize hlimit h hposting hvalue with
    ⟨htakenAll, htrunc, hwarned⟩ | ⟨hlarge, htrunc, hwarned⟩
  · have hnone : ¬∃ x ∈ exchanges (placedBatches size total ordered) q,
        reception x.2 = .tooLarge := by
      rintro ⟨x, hx, hr⟩
      simp [htakenAll x hx] at hr
    rw [hwarned, htrunc, if_neg hnone]
    simp
  · rw [hwarned, htrunc, if_pos rfl, if_pos hlarge]

end Placed

/-- An upload that ends has an account: the most severe findings are on the host, as many as it
reports, and whether any were left out is told. -/
theorem uploadAnnotations_account (hsize : 0 < size)
    (hlimit : s.capabilities.limit = ⟨size, total⟩)
    (hvalue : ((uploadAnnotations s a).play q).value = .ok upload) :
    ∃ ordered sent,
      Account s a size total ((uploadAnnotations s a).play q) upload ordered sent := by
  obtain ⟨ordered, hordered, hperm, hpairwise⟩ := exists_order Finding.severity a.annotations
  have hpositive : 0 < s.capabilities.limit.batchSize := by
    rw [hlimit]
    exact Int.natCast_pos.mpr hsize
  have hposting := posting_uploadAnnotations (a := a) hpositive q
  have hexchanges := exchanges_batches hlimit hordered q
  have hending := ending_uploadAnnotations hsize hlimit hordered hposting hvalue
  -- what was taken is a first part of the order, and the fields are read off its length
  obtain ⟨count, hcount, htaken, ⟨most, hmost, hsent⟩, hless, hall⟩ :=
    exchanges_slices (size - 1) ordered (total / size) q
  have hlength : ordered.length = a.annotations.length := by
    rw [hperm.length_eq, List.length_zipIdx]
  have hsucc : size - 1 + 1 = size := by omega
  rw [hsucc] at hmost hall
  have hupload : upload.count = count :=
    count_uploadAnnotations hlimit hordered hposting hvalue htaken hcount
  rw [hlength] at hcount hless hall
  have hcounted : (∀ x ∈ exchanges (placedBatches size total ordered) q,
      reception x.2 ≠ .tooLarge) →
      upload.count = min a.annotations.length (total / size * size) := by
    intro hsmall
    rcases hending with ⟨htakenAll, -⟩ | ⟨⟨x, hx, hlarge⟩, -⟩
    · rw [hupload, hall htakenAll]
    · exact absurd hlarge (hsmall x hx)
  refine ⟨ordered, exchanges (placedBatches size total ordered) q, hperm, hpairwise, ?said,
    ?takenEq, ?countLe, ?lengthLe, ?nodup, ?totalLe, ?leftOut, ?truncated, hcounted, ?cloud,
    ?warned⟩
  case said =>
    rw [hposting.follows.calls, untilFatal_posts, hexchanges, List.map_map, List.map_map]
    rfl
  case takenEq =>
    rw [hupload]
    exact htaken
  case countLe => omega
  case lengthLe =>
    intro batch hbatch
    obtain ⟨x, hx, rfl⟩ := List.mem_map.mp hbatch
    have hslice := mem_slices_of_mem_exchanges (List.mem_filter.mp hx).1
    have := (length_le_of_mem_slices _ _ hslice).2
    omega
  case nodup =>
    have hnodup : (ordered.map Prod.snd).Nodup := by
      rw [(hperm.map Prod.snd).nodup_iff, List.zipIdx_map_snd]
      exact List.nodup_range'
    rw [placedBatches, hsent, List.map_take]
    exact hnodup.sublist (List.take_sublist _ _)
  case totalLe =>
    rw [placedBatches, hsent, List.length_take]
    have := Nat.div_mul_le_self total size
    omega
  case leftOut =>
    intro x hx y hy
    rw [placedBatches, htaken] at hy
    rw [hupload] at hx
    rw [← List.take_append_drop count ordered, List.pairwise_append] at hpairwise
    exact hpairwise.2.2 y hy x hx
  case truncated =>
    rcases hending with ⟨htakenAll, htrunc, -⟩ | ⟨⟨x, hx, hlarge⟩, htrunc, -⟩
    · rw [htrunc, decide_eq_true_iff, hupload, hall htakenAll]
      omega
    · have hfew := hless ⟨x, hx, by simp [hlarge]⟩
      rw [htrunc, hupload]
      exact iff_of_true rfl hfew
  case cloud =>
    intro hcloud hsmall
    rw [hcloud] at hlimit
    simp only [Capabilities.cloud, UploadLimit.mk.injEq] at hlimit
    obtain rfl : size = 100 := by omega
    obtain rfl : total = 1000 := by omega
    rw [hcounted hsmall]
    split <;> omega
  case warned => exact warnings_uploadAnnotations hsize hlimit hordered hposting hvalue

def Sample.narrow : Setup where
  client := Sample.client
  repository := Sample.client.configuration.target
  capabilities := ⟨true, ⟨1, 1⟩⟩

theorem Sample.cut_narrow : cut Sample.narrow Sample.analysis =
    Sample.analysis.annotations.reverse.map fun finding => [.ofFinding finding] := by
  unfold cut payloads
  rw [(stablySorted_bySeverity Finding.severity Sample.analysis.annotations).eq_bands]
  simp [slices, bands, band, Sample.narrow, Sample.analysis]

/-- A host that takes one annotation is sent the more severe of two. -/
theorem uploadAnnotations_account_sample :
    ((uploadAnnotations Sample.narrow Sample.analysis).play [.ok (Sample.response 200)]).value =
      .ok ⟨1, true⟩ ∧
    ∃ ordered sent, Account Sample.narrow Sample.analysis 1 1
      ((uploadAnnotations Sample.narrow Sample.analysis).play [.ok (Sample.response 200)]) ⟨1, true⟩
      ordered sent := by
  have hvalue : ((uploadAnnotations Sample.narrow Sample.analysis).play
      [.ok (Sample.response 200)]).value = .ok ⟨1, true⟩ := by
    rw [uploadAnnotations_eq (by decide), Sample.cut_narrow]
    rfl
  have hlimit : Sample.narrow.capabilities.limit = ⟨(1 : Nat), (1 : Nat)⟩ := rfl
  exact ⟨hvalue, uploadAnnotations_account (by decide) hlimit hvalue⟩

end PullGate.Decoration
