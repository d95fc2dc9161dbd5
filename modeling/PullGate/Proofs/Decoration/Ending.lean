import PullGate.Proofs.Decoration.Service

/-! How a run ends.  The failure of a run is that of its first errand that fails; from this and from
the batches that the host took, follow the outcome of a run and the number of annotations in it. -/

namespace PullGate.Decoration

variable {s : Setup} {a : Analysis} {approval : Bool} {q : List Answer}

theorem failure?_posts_cons (batch : List AnnotationPayload) (room : List (List AnnotationPayload))
    (q : List Answer) : failure? (untilFatal (posts (batch :: room) q) q) =
      match received (Answer.next q) with
      | .ok true => failure? (untilFatal (posts room q.tail) q.tail)
      | .ok false => none
      | .error e => some e := by
  rw [untilFatal_posts, untilFatal_posts]
  rcases reception_cases (Answer.next q) with ⟨hq, hr⟩ | ⟨hq, hr⟩ | ⟨hq, e, hr⟩
  · rw [exchanges_of_taken hq]
    simp [failure?, Errand.failure?, Except.failure?, hr]
  · rw [exchanges_of_not_taken (by simp [hq])]
    simp [failure?, Errand.failure?, Except.failure?, hr]
  · rw [exchanges_of_not_taken (by simp [hq])]
    simp [failure?, Errand.failure?, Except.failure?, hr]

theorem failure_sendBatches (hlimit : 0 < s.capabilities.limit.batchSize) (total : Nat)
    (batches : List (List AnnotationPayload)) (hne : ∀ batch ∈ batches, batch ≠ [])
    (before count : Nat) (q : List Answer) :
    Except.failure? ((sendBatches s a.commit total (before + 1) count batches).play q).value =
      failure? (untilFatal (posts (batches.take (Batch.allowed s.capabilities.limit - before)) q) q)
      := by
  induction batches generalizing before count q with
  | nil => rw [List.take_nil]; rfl
  | cons batch batches ih =>
    have hexceeds := Batch.exceeds_iff hlimit before
    rw [sendBatches]
    by_cases hroom : Batch.allowed s.capabilities.limit ≤ before
    · have hnone : Batch.allowed s.capabilities.limit - before = 0 := by omega
      simp only [hexceeds.mpr hroom, hnone, List.take_zero, ↓reduceIte]
      rfl
    · have hmore : Batch.allowed s.capabilities.limit - before =
          Batch.allowed s.capabilities.limit - (before + 1) + 1 := by omega
      have hfits : Batch.exceeds (before + 1 : Nat) s.capabilities.limit = false :=
        Bool.eq_false_iff.mpr fun h => hroom (hexceeds.mp h)
      have hnext := ih (fun b hb => hne b (.tail _ hb)) (before + 1) (count + batch.length) q.tail
      rw [hmore, List.take_succ_cons, failure?_posts_cons, ← hnext]
      simp only [hfits, Bool.false_eq_true, ↓reduceIte]
      rw [Run.play_bind, play_sendBatch (hne batch (.head _))]
      cases hr : received (Answer.next q) with
      | error e => rfl
      | ok went => cases went <;> rfl

theorem ends_uploadAnnotations (hlimit : 0 < s.capabilities.limit.batchSize) (q : List Answer) :
    (uploadAnnotations s a).Ends s a q (posts (batches s a) q) := by
  refine ⟨(posting_uploadAnnotations hlimit q).follows, ?_⟩
  rw [uploadAnnotations_eq hlimit]
  exact failure_sendBatches hlimit (payloads a).length (cut s a) (fun _ => ne_nil_of_mem_cut) 0 0 q

/-! ### The batches of a course -/

def Errand.batch? : Errand → Option (List AnnotationPayload)
  | .postBatch batch => some batch
  | _ => none

/-- The batches that were sent in a course, each with the answer to it. -/
def posted (course : List (Errand × Answer)) : List (List AnnotationPayload × Answer) :=
  course.filterMap fun x => x.1.batch?.map fun batch => (batch, x.2)

/-- Whether a batch was neither taken nor too large. -/
def IsBroken (sent : List (List AnnotationPayload × Answer)) : Prop :=
  ∃ x ∈ sent, reception x.2 = .failed

instance (sent : List (List AnnotationPayload × Answer)) : Decidable (IsBroken sent) :=
  inferInstanceAs (Decidable (∃ x ∈ sent, reception x.2 = .failed))

/-- How many annotations a run reports: those that the host took, but none if a batch failed. -/
def reported (sent : List (List AnnotationPayload × Answer)) : Nat :=
  if IsBroken sent then 0 else (taken sent).flatten.length

theorem mem_of_mem_untilFatal {errands : List Errand} {x : Errand × Answer}
    (h : x ∈ untilFatal errands q) : x.1 ∈ errands := by
  induction errands generalizing q with
  | nil => cases h
  | cons e errands ih =>
    unfold untilFatal at h
    rcases List.mem_cons.mp h with rfl | h
    · exact .head _
    · split at h
      · cases h
      · exact .tail _ (ih h)

theorem posted_append (first second : List (Errand × Answer)) :
    posted (first ++ second) = posted first ++ posted second :=
  List.filterMap_append

theorem posted_eq_nil {errands : List Errand} (h : ∀ e ∈ errands, e.batch? = none)
    (q : List Answer) : posted (untilFatal errands q) = [] := by
  apply List.filterMap_eq_nil_iff.mpr
  intro x hx
  rw [h x.1 (mem_of_mem_untilFatal hx)]
  rfl

theorem posted_posts (room : List (List AnnotationPayload)) (q : List Answer) :
    posted (untilFatal (posts room q) q) = exchanges room q := by
  rw [untilFatal_posts, posted, List.filterMap_map]
  exact List.filterMap_some

theorem batch?_closing (q : List Answer) : ∀ e ∈ closing approval a q, e.batch? = none := by
  intro e he
  simp only [closing, settlement, List.mem_append, List.mem_cons, List.not_mem_nil, or_false] at he
  rcases he with he | rfl | rfl
  · split at he
    · obtain rfl := List.mem_singleton.mp he
      split <;> rfl
    · cases he
  · rfl
  · rfl

/-! ### The end -/

/-- What a run comes to that has uploaded annotations, and then fails or not. -/
def conclusion (upload : Upload) : Option Failure → Except Breakdown Outcome
  | none => .ok (.decorated upload)
  | some (.stop cause) => .ok (.stopped upload cause)
  | some (.breakdown cause) => .error cause

theorem eq_none_of_conclusion {upload upload' : Upload} {failure : Option Failure}
    (h : conclusion upload failure = .ok (.decorated upload')) : failure = none := by
  unfold conclusion at h
  split at h
  · rfl
  · cases h
  · cases h

/-- What a run comes to whose steps came to something; a failure among them is one before the
annotations were uploaded. -/
def settle : Except Failure Outcome → Except Breakdown Outcome
  | .ok outcome => .ok outcome
  | .error e => conclusion ⟨0, false⟩ (some e)

theorem value_run_of_steps (q : List Answer) :
    ((run s approval a).play q).value = settle ((steps s approval a).play q).value := by
  unfold run Run.play
  rw [Dialogue.play_bind, Played.andThen_value]
  cases ((steps s approval a).run.play q).value with
  | ok outcome => exact value_close a outcome _
  | error e =>
    cases e with
    | stop cause => exact value_close a _ _
    | breakdown cause => rfl

theorem value_conclude {upload : Upload} {outcome : Outcome} {q : List Answer}
    (h : ((conclude s approval a upload).play q).value = .ok outcome) :
    outcome = .decorated upload := by
  have hpublish : ∀ {α : Type} {r : Run α} {q : List Answer},
      ((r >>= fun _ => pure (.decorated upload) : Run Outcome).play q).value = .ok outcome →
        outcome = .decorated upload := by
    intro α r q h
    rw [Run.play_bind] at h
    cases hv : (r.play q).value with
    | error e => simp [hv] at h
    | ok v =>
      rw [hv] at h
      exact (Except.ok.inj h).symm
  unfold conclude at h
  cases approval with
  | false => exact hpublish h
  | true =>
    rw [if_pos rfl, Run.play_bind] at h
    cases hv : ((settleApproval s a).play q).value with
    | error e => simp [hv] at h
    | ok v =>
      rw [hv] at h
      exact hpublish h

/-- What comes after the upload: a failure keeps the annotations that were uploaded. -/
theorem settle_stoppable (upload : Upload) (q : List Answer) :
    settle ((stoppable upload (conclude s approval a upload)).play q).value =
      conclusion upload (Except.failure? ((conclude s approval a upload).play q).value) := by
  unfold stoppable
  rw [Run.play_tryCatch]
  cases hv : ((conclude s approval a upload).play q).value with
  | ok outcome =>
    obtain rfl := value_conclude hv
    rfl
  | error e => cases e <;> rfl

/-- An upload that fails is broken: a batch was neither taken nor too large. -/
theorem isBroken_of_failure {room : List (List AnnotationPayload)} {q : List Answer} {e : Failure}
    (h : failure? (untilFatal (posts room q) q) = some e) : IsBroken (exchanges room q) := by
  rw [untilFatal_posts, failure?, List.findSome?_map] at h
  obtain ⟨x, hx, hfailed⟩ := List.exists_of_findSome?_eq_some h
  refine ⟨x, hx, ?_⟩
  rcases reception_cases x.2 with ⟨-, hr⟩ | ⟨-, hr⟩ | ⟨hq, -⟩
  · simp [Errand.failure?, Except.failure?, hr] at hfailed
  · simp [Errand.failure?, Except.failure?, hr] at hfailed
  · exact hq

theorem not_isBroken_of_allWell {course : List (Errand × Answer)} (h : AllWell course) :
    ¬IsBroken (posted course) := by
  rintro ⟨x, hx, hfailed⟩
  obtain ⟨y, hy, hbatch⟩ := List.mem_filterMap.mp hx
  obtain ⟨e, answer⟩ := y
  cases e <;> simp only [Errand.batch?, Option.map_some, Option.map_none, Option.some.injEq,
    reduceCtorEq] at hbatch
  subst hbatch
  have hwell := h _ hy
  simp [Errand.isFatal, hfailed] at hwell

/-- What comes after the report: the annotations, and the rest. -/
theorem settle_upload (s : Setup) (approval : Bool) (a : Analysis)
    (hlimit : 0 < s.capabilities.limit.batchSize) (q : List Answer) :
    ∃ upload, upload.count = reported (posted (untilFatal (posts (batches s a) q ++
        closing approval a (q.drop (posts (batches s a) q).length)) q)) ∧
      settle ((uploadAnnotations s a >>= fun upload =>
          stoppable upload (conclude s approval a upload)).play q).value =
        conclusion upload (failure? (untilFatal (posts (batches s a) q ++
          closing approval a (q.drop (posts (batches s a) q).length)) q)) := by
  have hends := ends_uploadAnnotations (s := s) (a := a) hlimit q
  by_cases hw : AllWell (untilFatal (posts (batches s a) q) q)
  · obtain ⟨upload, hv, hplay⟩ := hends.follows.play_bind_of_allWell
      (fun upload => stoppable upload (conclude s approval a upload)) hw
    have hcount := (posting_uploadAnnotations hlimit q).count_eq hv
    refine ⟨upload, ?_, ?_⟩
    · have hbroken := not_isBroken_of_allWell hw
      rw [posted_posts] at hbroken
      rw [untilFatal_append_of_allWell hw, posted_append, posted_eq_nil (batch?_closing _),
        List.append_nil, posted_posts, reported, if_neg hbroken, hcount, Nat.zero_add]
    · rw [hplay, Played.andThen_value, settle_stoppable, untilFatal_append_of_allWell hw,
        failure?_append, allWell_iff.mp hw, Option.none_or, (ends_conclude upload _).failure]
  · rw [untilFatal_append_of_not_allWell hw, ← hends.failure]
    cases hv : ((uploadAnnotations s a).play q).value with
    | ok upload => exact absurd (hends.follows.succeeds.mp ⟨upload, hv⟩) hw
    | error e =>
      have hfailed := hends.failure
      rw [hv] at hfailed
      refine ⟨⟨0, false⟩, ?_, ?_⟩
      · rw [posted_posts, reported, if_pos (isBroken_of_failure hfailed.symm)]
      · rw [Run.play_bind, hv]
        rfl

/-- What a run comes to: the failure of its course ends it, if there is one, and it reports the
annotations of the batches that were taken, but none if a batch failed. -/
theorem value_run (s : Setup) (approval : Bool) (a : Analysis)
    (hinsights : s.capabilities.insights = true)
    (hlimit : 0 < s.capabilities.limit.batchSize) (q : List Answer) :
    ∃ upload, upload.count = reported (posted (untilFatal (schedule s approval a q) q)) ∧
      ((run s approval a).play q).value =
        conclusion upload (failure? (untilFatal (schedule s approval a q) q)) := by
  have hnone : ∀ e ∈ [Errand.clearReport, .putReport], e.batch? = none := by simp [Errand.batch?]
  have hends := Client.ends_uploadReport (s := s) (a := a) q
  rw [value_run_of_steps, steps_eq hinsights, schedule_eq]
  by_cases hw : AllWell (untilFatal [.clearReport, .putReport] q)
  · obtain ⟨v, -, hplay⟩ := hends.follows.play_bind_of_allWell (fun _ => uploadAnnotations s a >>=
      fun upload => stoppable upload (conclude s approval a upload)) hw
    obtain ⟨upload, hcount, hvalue⟩ := settle_upload s approval a hlimit (q.drop 2)
    refine ⟨upload, ?_, ?_⟩
    · rw [hcount, untilFatal_append_of_allWell hw, posted_append, posted_eq_nil hnone]
      rfl
    · rw [hplay, Played.andThen_value, untilFatal_append_of_allWell hw, failure?_append,
        allWell_iff.mp hw, Option.none_or]
      exact hvalue
  · rw [untilFatal_append_of_not_allWell hw, ← hends.failure]
    cases hv : ((s.client.uploadReport s.repository a.commit (.ofAnalysis a)).play q).value with
    | ok v => exact absurd (hends.follows.succeeds.mp ⟨v, hv⟩) hw
    | error e =>
      refine ⟨⟨0, false⟩, ?_, ?_⟩
      · rw [posted_eq_nil hnone]
        rfl
      · rw [Run.play_bind, hv]
        rfl

end PullGate.Decoration

namespace PullGate.Client

open Decoration

/-- A decoration has made the calls of its errands, up to the first that is fatal, and comes to what
these come to. -/
theorem exists_conclusion (c : Client) (approval : Bool) (a : Analysis) (w : Wire) :
    ∃ (q : List Answer) (upload : Upload),
      c.session.Serves w.token
        ((untilFatal (schedule c.setup approval a q) q).map fun x => (x.1.call c.setup a, x.2))
        (c.traffic approval a w) (c.decorate approval a w).2.token ∧
      (c.decorate approval a w).1 =
        conclusion upload (failure? (untilFatal (schedule c.setup approval a q) q)) := by
  obtain ⟨said, hserves, -, hsaid, hvalue⟩ := serves_decorate c approval a w
  obtain ⟨upload, -, hrun⟩ :=
    value_run c.setup approval a rfl c.batchSize_pos (said.map Prod.snd)
  rw [said_decorate] at hsaid
  rw [← hsaid] at hserves
  exact ⟨said.map Prod.snd, upload, hserves, hvalue.symm.trans hrun⟩

end PullGate.Client
