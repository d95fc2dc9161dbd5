import PullGate.Proofs.Batch.Basic
import PullGate.Proofs.Decoration.Operations

/-! Batches on their way.  The batches that the ceiling leaves room for are sent one after the other
while each is taken; the first that is not taken is the last that is sent. -/

namespace PullGate

open Batch

namespace Decoration

/-- Batches that there is room for, as far as they are sent, each with the answer to it: those that
are taken, and the first that is not. -/
def exchanges {β : Type} : List β → List Answer → List (β × Answer)
  | [], _ => []
  | batch :: room, answers =>
    (batch, Answer.next answers) ::
      if reception (Answer.next answers) = .taken then exchanges room answers.tail else []

def taken {β : Type} (sent : List (β × Answer)) : List β :=
  (sent.filter fun x => reception x.2 = .taken).map Prod.fst

/-- The errands for batches that there is room for. -/
def posts (room : List (List AnnotationPayload)) (answers : List Answer) : List Errand :=
  (exchanges room answers).map fun x => .postBatch x.1

section Exchanges

variable {β γ : Type} {b : β} {room : List β} {q : List Answer}

theorem exchanges_of_taken (h : reception (Answer.next q) = .taken) :
    exchanges (b :: room) q = (b, Answer.next q) :: exchanges room q.tail := by
  simp [exchanges, h]

theorem exchanges_of_not_taken (h : reception (Answer.next q) ≠ .taken) :
    exchanges (b :: room) q = [(b, Answer.next q)] := by
  simp [exchanges, h]

theorem taken_cons_of_taken {x : β × Answer} {sent : List (β × Answer)}
    (h : reception x.2 = .taken) : taken (x :: sent) = x.1 :: taken sent := by
  simp [taken, h]

theorem exchanges_map (f : β → γ) (room : List β) (q : List Answer) :
    exchanges (room.map f) q = (exchanges room q).map fun x => (f x.1, x.2) := by
  induction room generalizing q with
  | nil => rfl
  | cons b room ih =>
    by_cases h : reception (Answer.next q) = .taken
    · simp [exchanges, h, ih]
    · simp [exchanges, h]

/-- The batches that are taken are the first ones, and at most one more is sent. -/
theorem exchanges_prefix (room : List β) (q : List Answer) :
    ∃ count ≤ room.length, taken (exchanges room q) = room.take count ∧
      (exchanges room q).map Prod.fst = room.take (count + 1) ∧
      (count < room.length ↔ ∃ x ∈ exchanges room q, reception x.2 ≠ .taken) := by
  induction room generalizing q with
  | nil => exact ⟨0, Nat.le_refl 0, rfl, rfl, by simp [exchanges]⟩
  | cons b room ih =>
    by_cases h : reception (Answer.next q) = .taken
    · obtain ⟨count, hcount, htaken, hsent, hless⟩ := ih q.tail
      rw [exchanges_of_taken h]
      refine ⟨count + 1, Nat.succ_le_succ hcount, ?_, ?_, ?_⟩
      · rw [taken_cons_of_taken h, htaken, List.take_succ_cons]
      · rw [List.map_cons, hsent, List.take_succ_cons]
      · rw [List.length_cons, Nat.add_lt_add_iff_right, hless]
        simp [h]
    · rw [exchanges_of_not_taken h]
      exact ⟨0, Nat.zero_le _, by simp [taken, h], by simp, by simp [h]⟩

/-- Only batches that there is room for are sent. -/
theorem mem_of_mem_exchanges {x : β × Answer} (h : x ∈ exchanges room q) : x.1 ∈ room := by
  obtain ⟨count, -, -, hsent, -⟩ := exchanges_prefix room q
  have hmem : x.1 ∈ room.take (count + 1) := hsent ▸ List.mem_map_of_mem h
  exact List.mem_of_mem_take hmem

end Exchanges

variable {s : Setup} {a : Analysis} {batch : List AnnotationPayload} {q : List Answer}

theorem untilFatal_posts (room : List (List AnnotationPayload)) (q : List Answer) :
    untilFatal (posts room q) q = (exchanges room q).map fun x => (.postBatch x.1, x.2) := by
  unfold posts
  induction room generalizing q with
  | nil => rfl
  | cons batch room ih =>
    by_cases h : reception (Answer.next q) = .taken
    · simp [exchanges, untilFatal, Errand.isFatal, h, ih]
    · simp [exchanges, untilFatal, h]

/-- The entry that tells how many annotations a ceiling leaves out. -/
def ceilingWarning (limit : UploadLimit) (left : Nat) : Log.Entry :=
  ⟨.warning, .decorator, "This project has too many issues. The provider only supports "
    ++ Text.ofInt limit.total ++ ". The remaining " ++ Text.ofNat left
    ++ " annotation(s) will be truncated."⟩

def fullWarning : Log.Entry :=
  ⟨.warning, .decorator, "The annotations will be truncated since the maximum number of annotations"
    ++ " for this report has been reached."⟩

def warnings (entries : List Log.Entry) : List Log.Entry := entries.filter (·.level = .warning)

def creating (batch : List AnnotationPayload) : Log.Entry :=
  ⟨.info, .client, "Creating " ++ Text.ofNat batch.length ++ " annotation(s) on Bitbucket Cloud"⟩

/-- A batch that cannot be sent is excused or fails, without a call or an entry. -/
theorem play_handled {r : Run Unit} {p : Played (Except Failure Unit)} {q : List Answer}
    (hp : r.play q = p) : (tryCatch (do r; return true) fun
      | .stop (.provider status body) =>
        if status = tooLarge then pure false else Run.stop (.provider status body)
      | failure => throw failure : Run Bool).play q =
      { p with value := match p.value with
          | .ok () => .ok true
          | .error e => excused e } := by
  subst hp
  rw [Run.play_tryCatch, Run.play_bind]
  cases hv : (r.play q).value with
  | ok v => simp [Run.play_pure, Played.andThen]
  | error e =>
    unfold excused
    cases e with
    | breakdown cause => simp [Run.play_throw, Played.andThen]
    | stop cause =>
      cases cause with
      | provider status body =>
        by_cases ht : status = tooLarge <;>
          simp [ht, Run.play_pure, Run.play_stop, Played.andThen]
      | _ => simp [Run.play_throw, Played.andThen]

/-- A batch takes one call, and no warning. -/
theorem play_sendBatch (hne : batch ≠ []) (q : List Answer) :
    (sendBatch s a.commit batch).play q =
      ⟨[((Errand.postBatch batch).call s a, Answer.next q)], [creating batch], q.tail,
        received (Answer.next q)⟩ := by
  have hnonempty : batch.isEmpty = false := by simpa using hne
  have hupload : (s.client.uploadAnnotations s.repository a.commit batch).play q =
      ⟨[((Errand.postBatch batch).call s a, Answer.next q)], [creating batch], q.tail,
        (Answer.next q).bind fun r => (Client.rejection? r).elim (.ok ()) .error⟩ := by
    unfold Client.uploadAnnotations Client.requireSuccess
    simp only [hnonempty, Bool.false_eq_true, ↓reduceIte, Run.play_bind, Client.inform,
      Run.play_log, Client.send, Run.play_call]
    cases Answer.next q with
    | error e => rfl
    | ok r =>
      simp only [Except.bind]
      cases Client.rejection? r <;> rfl
  refine (play_handled hupload).trans ?_
  unfold received
  cases Answer.next q with
  | error e => rfl
  | ok r =>
    simp only [Except.bind]
    cases Client.rejection? r <;> rfl

/-- What a loop over batches comes to on the answers `q`: `total` annotations are to be sent,
`count` have been, there is room for the batches of `room`, and `past` tells whether some lie past
that. -/
structure Posting (s : Setup) (a : Analysis) (total count : Nat)
    (room : List (List AnnotationPayload)) (past : Bool) (q : List Answer) (r : Run Upload) : Prop
    where
  follows : r.Follows s a q (posts room q)
  count_eq : ∀ {upload}, (r.play q).value = .ok upload →
    upload.count = count + (taken (exchanges room q)).flatten.length
  ending : ∀ {upload}, (r.play q).value = .ok upload →
    (∀ x ∈ exchanges room q, reception x.2 = .taken) ∧ upload.truncated = past ∧
      warnings (r.play q).logged =
        (if past then [ceilingWarning s.capabilities.limit (total - upload.count)] else []) ∨
    (∃ x ∈ exchanges room q, reception x.2 = .tooLarge) ∧ upload.truncated = true ∧
      warnings (r.play q).logged = [fullWarning]

theorem posting_nil {total count : Nat} {past : Bool} {r : Run Upload} (logged : List Log.Entry)
    (hplay : r.play q = ⟨[], logged, q, .ok ⟨count, past⟩⟩)
    (hwarn : warnings logged =
      if past then [ceilingWarning s.capabilities.limit (total - count)] else []) :
    Posting s a total count [] past q r := by
  refine ⟨⟨?_, ?_⟩, fun h => ?_, fun h => ?_⟩
  · rw [Run.Calls, hplay]
    simp [posts, exchanges, untilFatal]
  · rw [hplay]
    simp [posts, exchanges, untilFatal]
  · rw [hplay] at h
    obtain rfl := Except.ok.inj h
    rfl
  · rw [hplay] at h ⊢
    obtain rfl := Except.ok.inj h
    exact .inl ⟨by simp [exchanges], rfl, hwarn⟩

section Cons

variable {total count : Nat} {past : Bool} {room : List (List AnnotationPayload)}
  {next r : Run Upload}

theorem posting_taken (hq : reception (Answer.next q) = .taken)
    (hnext : Posting s a total (count + batch.length) room past q.tail next)
    (hsaid : (r.play q).said =
      ((Errand.postBatch batch).call s a, Answer.next q) :: (next.play q.tail).said)
    (hlogged : (r.play q).logged = creating batch :: (next.play q.tail).logged)
    (hvalue : (r.play q).value = (next.play q.tail).value) :
    Posting s a total count (batch :: room) past q r := by
  have hfatal : (Errand.postBatch batch).isFatal (Answer.next q) = false := by
    simp [Errand.isFatal, hq]
  have hwarn : warnings (r.play q).logged = warnings (next.play q.tail).logged := by
    rw [hlogged]
    rfl
  refine ⟨⟨?_, ?_⟩, fun h => ?_, fun h => ?_⟩
  · rw [Run.Calls, hsaid, hnext.follows.calls, untilFatal_posts, untilFatal_posts,
      exchanges_of_taken hq]
    rfl
  · rw [hvalue, hnext.follows.succeeds, untilFatal_posts, untilFatal_posts, exchanges_of_taken hq,
      List.map_cons, allWell_cons]
    exact ⟨fun h => ⟨hfatal, h⟩, And.right⟩
  · rw [hvalue] at h
    rw [hnext.count_eq h, exchanges_of_taken hq, taken_cons_of_taken hq, List.flatten_cons,
      List.length_append, Nat.add_assoc]
  · rw [hvalue] at h
    rw [hwarn, exchanges_of_taken hq]
    rcases hnext.ending h with ⟨hall, hover, hlog⟩ | ⟨hlarge, htrunc, hlog⟩
    · exact .inl ⟨by simpa [hq] using hall, hover, hlog⟩
    · obtain ⟨x, hx, hr⟩ := hlarge
      exact .inr ⟨⟨x, .tail _ hx, hr⟩, htrunc, hlog⟩

theorem posting_refused (hq : reception (Answer.next q) ≠ .taken)
    (hsaid : (r.play q).said = [((Errand.postBatch batch).call s a, Answer.next q)])
    (hvalue : ∀ {upload}, (r.play q).value = .ok upload →
      reception (Answer.next q) = .tooLarge ∧ upload = ⟨count, true⟩ ∧
        warnings (r.play q).logged = [fullWarning])
    (hok : reception (Answer.next q) = .tooLarge → ∃ upload, (r.play q).value = .ok upload) :
    Posting s a total count (batch :: room) past q r := by
  have hfatal : (Errand.postBatch batch).isFatal (Answer.next q) = false ↔
      reception (Answer.next q) = .tooLarge := by
    cases h : reception (Answer.next q) with
    | taken => exact absurd h hq
    | tooLarge => simp [Errand.isFatal, h]
    | failed => simp [Errand.isFatal, h]
  refine ⟨⟨?_, ?_⟩, fun h => ?_, fun h => ?_⟩
  · rw [Run.Calls, hsaid, untilFatal_posts, exchanges_of_not_taken hq]
    rfl
  · rw [untilFatal_posts, exchanges_of_not_taken hq]
    simp only [List.map_cons, List.map_nil, allWell_cons, allWell_nil, and_true, hfatal]
    refine ⟨?_, hok⟩
    rintro ⟨upload, h⟩
    exact (hvalue h).1
  · obtain ⟨-, rfl, -⟩ := hvalue h
    rw [exchanges_of_not_taken hq]
    simp [taken, hq]
  · obtain ⟨hlarge, rfl, hlog⟩ := hvalue h
    rw [exchanges_of_not_taken hq]
    exact .inr ⟨⟨_, .head _, hlarge⟩, rfl, hlog⟩

end Cons

def giveUp (count : Nat) : Run Upload := do
  warn ("The annotations will be truncated since the maximum number of annotations"
    ++ " for this report has been reached.")
  return ⟨count, true⟩

theorem play_giveUp (count : Nat) (q : List Answer) :
    (giveUp count).play q = ⟨[], [fullWarning], q, .ok ⟨count, true⟩⟩ := rfl

/-- A batch, and what comes after it: other batches if it was taken, and else the end. -/
theorem posting_cons (hne : batch ≠ []) {total count : Nat} {past : Bool}
    {room : List (List AnnotationPayload)} {next : Run Upload}
    (hnext : Posting s a total (count + batch.length) room past q.tail next) :
    Posting s a total count (batch :: room) past q
      (sendBatch s a.commit batch >>= fun went => if went then next else giveUp count) := by
  have hplay := Run.play_bind (sendBatch s a.commit batch)
    (fun went => if went then next else giveUp count) q
  rw [play_sendBatch hne] at hplay
  rcases reception_cases (Answer.next q) with ⟨hq, hr⟩ | ⟨hq, hr⟩ | ⟨hq, e, hr⟩
  · simp only [hr, ↓reduceIte] at hplay
    refine posting_taken hq hnext ?_ ?_ ?_ <;>
      rw [hplay] <;> rfl
  · simp only [hr, Bool.false_eq_true, ↓reduceIte, play_giveUp] at hplay
    refine posting_refused (by simp [hq]) ?_ (fun h => ⟨hq, ?_, ?_⟩) fun _ => ⟨⟨count, true⟩, ?_⟩
    · rw [hplay]
      rfl
    · rw [hplay] at h
      exact (Except.ok.inj h).symm
    · rw [hplay]
      rfl
    · rw [hplay]
      rfl
  · simp only [hr] at hplay
    refine posting_refused (by simp [hq]) ?_ (fun h => ?_) fun h => ?_
    · rw [hplay]
    · rw [hplay] at h
      cases h
    · rw [hq] at h
      cases h

theorem posting_sendBatches (hlimit : 0 < s.capabilities.limit.batchSize) (total : Nat)
    (batches : List (List AnnotationPayload)) (hne : ∀ batch ∈ batches, batch ≠ [])
    (before count : Nat) (q : List Answer) :
    Posting s a total count (batches.take (allowed s.capabilities.limit - before))
      (allowed s.capabilities.limit - before < batches.length) q
      (sendBatches s a.commit total (before + 1) count batches) := by
  -- `before` batches went already, and take so much of the room that the ceiling leaves
  induction batches generalizing before count q with
  | nil =>
    have hplay : (sendBatches s a.commit total (before + 1) count []).play q =
        ⟨[], [], q, .ok ⟨count, false⟩⟩ := rfl
    simpa using posting_nil [] hplay rfl
  | cons batch batches ih =>
    have hexceeds := exceeds_iff hlimit before
    rw [sendBatches]
    by_cases hroom : allowed s.capabilities.limit ≤ before
    · have hnone : allowed s.capabilities.limit - before = 0 := by omega
      simp only [hexceeds.mpr hroom, hnone, List.take_zero, ↓reduceIte]
      exact posting_nil [ceilingWarning s.capabilities.limit (total - count)] rfl rfl
    · have hmore : allowed s.capabilities.limit - before =
          allowed s.capabilities.limit - (before + 1) + 1 := by omega
      have hfits : exceeds (before + 1 : Nat) s.capabilities.limit = false :=
        Bool.eq_false_iff.mpr fun h => hroom (hexceeds.mp h)
      simp only [hfits, hmore, List.take_succ_cons, Bool.false_eq_true, ↓reduceIte,
        List.length_cons, Nat.add_lt_add_iff_right]
      have hnext := ih (fun b hb => hne b (.tail _ hb)) (before + 1) (count + batch.length) q.tail
      exact posting_cons (hne batch (.head _)) hnext

/-- The annotations of an analysis as they are sent, most severe first. -/
def payloads (a : Analysis) : List AnnotationPayload :=
  (bySeverity Finding.severity a.annotations).map AnnotationPayload.ofFinding

def cut (s : Setup) (a : Analysis) : List (List AnnotationPayload) :=
  slices (s.capabilities.limit.batchSize.toNat - 1) (payloads a)

def batches (s : Setup) (a : Analysis) : List (List AnnotationPayload) :=
  (cut s a).take (allowed s.capabilities.limit)

theorem ne_nil_of_mem_cut {batch : List AnnotationPayload} (h : batch ∈ cut s a) : batch ≠ [] :=
  (length_le_of_mem_slices _ _ h).1

/-- An upload is the loop over all batches. -/
theorem uploadAnnotations_eq (hlimit : 0 < s.capabilities.limit.batchSize) :
    uploadAnnotations s a = sendBatches s a.commit (payloads a).length 1 0 (cut s a) := by
  have hsize : ¬s.capabilities.limit.batchSize ≤ 0 := by omega
  unfold uploadAnnotations partition
  simp only [hsize, ↓reduceIte]
  rfl

theorem posting_uploadAnnotations (hlimit : 0 < s.capabilities.limit.batchSize) (q : List Answer) :
    Posting s a (payloads a).length 0 (batches s a)
      (allowed s.capabilities.limit < (cut s a).length) q (uploadAnnotations s a) := by
  rw [uploadAnnotations_eq hlimit]
  exact posting_sendBatches hlimit (payloads a).length (cut s a)
    (fun _ => ne_nil_of_mem_cut) 0 0 q

end Decoration

end PullGate
