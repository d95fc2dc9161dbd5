import PullGate.Proofs.Decoration.Ending
import PullGate.Proofs.Decoration.Service
import PullGate.Proofs.Session.Breakdown

/-! The number of annotations that a decoration reports, and the number that the host took.  They
are the same unless a batch failed; a run that is stopped by a batch reports none. -/

namespace PullGate

open Decoration

namespace Client

variable {c : Client} {approval : Bool} {a : Analysis} {w : Wire}

/-- The errands behind the requests of a decoration, each with the answer to it. -/
def Course (c : Client) (approval : Bool) (a : Analysis) (w : Wire)
    (course : List (Errand × Answer)) : Prop :=
  List.Forall₂ (fun x hop => x.2 = hop.answer ∧ (x.1.call c.setup a).Makes hop.request) course
    (c.traffic approval a w)

/-- A report that is answered shows that every call of a decoration can be made. -/
theorem able_of_answered {token token' : Json} {H : List Hop} {response : Http.Response}
    (hplain : c.session.bearer = none)
    (h : Session.Handling c.session (Errand.clearReport.call c.setup a) token H (.ok response)
      token') : c.session.HeaderFits ∧ ∀ e : Errand, (e.call c.setup a).Able := by
  obtain ⟨address, haddress, hsendable, hcredentials⟩ := h.reachable_of_ok hplain
  refine ⟨?_, able_call ⟨address, haddress, hcredentials⟩ ⟨address, haddress, hsendable⟩⟩
  cases h with
  | bearer _ hbearer _ => rw [hplain] at hbearer; cases hbearer
  | plain h _ _ =>
    obtain ⟨-, -, hheader, -⟩ := Session.prepare_eq_ok.mp h
    exact hheader

/-- If every call can be made, the course is the schedule up to the first fatal errand. -/
theorem course_of_able (hplain : c.session.bearer = none) (hheader : c.session.HeaderFits)
    (hable : ∀ e : Errand, (e.call c.setup a).Able) (approval : Bool) (w : Wire) :
    c.Course approval a w (untilFatal
        (schedule c.setup approval a (w.replies.map Answer.ofReply))
        (w.replies.map Answer.ofReply)) ∧
      (c.decorate approval a w).1 =
        ((run c.setup approval a).play (w.replies.map Answer.ofReply)).value := by
  have hwithin : (run c.setup approval a).Within Call.Able := by
    intro q x hx
    rw [said_decorate] at hx
    obtain ⟨y, -, rfl⟩ := List.mem_map.mp hx
    exact hable y.1
  obtain ⟨hvalue, H, hmoves, hanswered⟩ :=
    Session.carryOut_answered hplain hheader (run c.setup approval a) hwithin w
  have htraffic : c.traffic approval a w = H := by
    unfold traffic decorate
    rw [hmoves.sent, List.drop_left, ← hmoves.heard]
  rw [said_decorate] at hanswered
  refine ⟨?_, hvalue⟩
  rw [Course, htraffic]
  exact List.forall₂_map_left_iff.mp hanswered

theorem untilFatal_schedule_of_error {s : Setup} {e : Failure} {q : List Answer}
    (h : Answer.next q = .error e) :
    untilFatal (schedule s approval a q) q = [(.clearReport, .error e)] := by
  rw [schedule_eq]
  simp [untilFatal, h, Errand.isFatal]

/-- The traffic of a decoration without tokens has a course that tells what the decoration reports.
A call that could not be made is the first one, and then nothing was sent. -/
theorem exists_course (c : Client) (hplain : c.configuration.isOauth2 = false) (approval : Bool)
    (a : Analysis) (w : Wire) : ∃ course upload failure, c.Course approval a w course ∧
      upload.count = reported (posted course) ∧
      (c.decorate approval a w).1 = conclusion upload failure := by
  have hbearer := bearer_of_plain hplain
  obtain ⟨said, hserves, -, hsaid, hvalue⟩ := serves_decorate c approval a w
  obtain ⟨more, hcons, hlast⟩ := said_decorate_eq_cons c approval a (said.map Prod.snd)
  rw [hsaid] at hcons
  rw [hcons] at hserves
  obtain ⟨first, later, between, htraffic, hhandling, hlater⟩ := hserves.cons_inv
  cases hnext : Answer.next (said.map Prod.snd) with
  | ok response =>
    rw [hnext] at hhandling
    obtain ⟨hheader, hable⟩ := able_of_answered hbearer hhandling
    obtain ⟨hcourse, hplayed⟩ := course_of_able hbearer hheader hable approval w
    obtain ⟨upload, hcount, hrun⟩ := value_run c.setup approval a rfl c.batchSize_pos
      (w.replies.map Answer.ofReply)
    exact ⟨_, upload, _, hcourse, hcount, hplayed.trans hrun⟩
  | error e =>
    obtain ⟨upload, hcount, hrun⟩ := value_run c.setup approval a rfl c.batchSize_pos
      (said.map Prod.snd)
    rw [untilFatal_schedule_of_error hnext] at hcount
    rw [hvalue] at hrun
    obtain rfl := hlast (by rw [hnext]; rfl)
    obtain ⟨rfl, -⟩ := hlater.nil_inv
    rw [List.append_nil] at htraffic
    rcases hhandling.plain_cases hbearer with rfl | ⟨hop, rfl, hanswer, hmakes⟩
    · refine ⟨[], upload, _, ?_, hcount, hrun⟩
      rw [Course, htraffic]
      exact List.Forall₂.nil
    · refine ⟨[(.clearReport, .error e)], upload, _, ?_, hcount, hrun⟩
      rw [Course, htraffic]
      exact List.Forall₂.cons ⟨hnext ▸ hanswer, hmakes⟩ List.Forall₂.nil

/-- A decoration without tokens that has an outcome reports as many annotations as were in the
requests that were answered with a success, unless a batch failed: then it reports none. -/
theorem count_decorate (c : Client) (hplain : c.configuration.isOauth2 = false) (approval : Bool)
    (a : Analysis) (w : Wire) {outcome : Outcome} (h : (c.decorate approval a w).1 = .ok outcome) :
    ∃ course, c.Course approval a w course ∧
      outcome.upload.count =
        if ∃ x ∈ posted course, reception x.2 = .failed then 0
        else (taken (posted course)).flatten.length := by
  obtain ⟨course, upload, failure, hcourse, hcount, hvalue⟩ := exists_course c hplain approval a w
  refine ⟨course, hcourse, ?_⟩
  have hupload : outcome.upload = upload := by
    rw [hvalue] at h
    cases failure with
    | none =>
      obtain rfl := Except.ok.inj h
      rfl
    | some e =>
      cases e with
      | stop cause =>
        obtain rfl := Except.ok.inj h
        rfl
      | breakdown cause => cases h
  rw [hupload, hcount]
  rfl

end Client

namespace Decoration.Sample

def finding : Finding := ⟨"issue", "src/app.py", 1, [], "Low", .low, .codeSmell⟩

/-- An analysis with one finding more than a batch has. -/
def crowded : Analysis := { analysis with annotations := List.replicate 101 finding }

/-- Replies on which the second batch is refused. -/
def refusal : Wire where
  replies := [.ok (response 404), .ok (response 200), .ok (response 201), .ok (response 500)]

theorem payloads_crowded : payloads crowded = List.replicate 101 (.ofFinding finding) := by
  have hperm := List.mergeSort_perm (List.replicate 101 finding)
    fun a b => decide ((Finding.severity b).rank ≤ (Finding.severity a).rank)
  have hsorted : Batch.bySeverity Finding.severity crowded.annotations =
      List.replicate 101 finding := List.perm_replicate.mp hperm
  rw [payloads, hsorted, List.map_replicate]

theorem batches_crowded : batches client.setup crowded =
    [List.replicate 100 (.ofFinding finding), List.replicate 1 (.ofFinding finding)] := by
  have hcut : cut client.setup crowded =
      [List.replicate 100 (.ofFinding finding), List.replicate 1 (.ofFinding finding)] := by
    have hslices : ∀ p : AnnotationPayload, Batch.slices 99 (List.replicate 101 p) =
        [List.replicate 100 p, List.replicate 1 p] := by
      intro p
      rw [List.replicate_succ, Batch.slices, List.take_replicate, List.drop_replicate]
      simp [Batch.slices, List.replicate_succ]
    rw [cut, payloads_crowded]
    exact hslices _
  rw [batches, hcut]
  rfl

/-- The course on these replies: the second batch ends it. -/
theorem course_crowded : untilFatal
      (schedule client.setup false crowded (refusal.replies.map Answer.ofReply))
      (refusal.replies.map Answer.ofReply) =
    [(.clearReport, .ok (response 404)), (.putReport, .ok (response 200)),
      (.postBatch (List.replicate 100 (.ofFinding finding)), .ok (response 201)),
      (.postBatch (List.replicate 1 (.ofFinding finding)), .ok (response 500))] := by
  have hposts : posts (batches client.setup crowded)
      [.ok (response 201), .ok (response 500)] =
        [.postBatch (List.replicate 100 (.ofFinding finding)),
          .postBatch (List.replicate 1 (.ofFinding finding))] := by
    rw [batches_crowded]
    rfl
  rw [schedule_eq, show (refusal.replies.map Answer.ofReply).drop 2 =
    [.ok (response 201), .ok (response 500)] from rfl, hposts]
  rfl

theorem decorate_crowded : ∃ upload cause, upload.count = 0 ∧
    client.Course false crowded refusal (untilFatal
      (schedule client.setup false crowded (refusal.replies.map Answer.ofReply))
      (refusal.replies.map Answer.ofReply)) ∧
    (client.decorate false crowded refusal).1 = .ok (.stopped upload cause) := by
  obtain ⟨hcourse, hplayed⟩ := Client.course_of_able rfl headerFits
    (Client.able_call (a := crowded) preparable sendable) false refusal
  obtain ⟨upload, hcount, hrun⟩ := value_run client.setup false crowded rfl (by decide)
    (refusal.replies.map Answer.ofReply)
  refine ⟨upload, .provider 500 Client.noBody, ?_, hcourse, ?_⟩
  · rw [hcount, course_crowded]
    rfl
  · rw [hplayed, hrun, course_crowded]
    rfl

end Decoration.Sample

namespace Client

/-- The sample has an outcome, and so a course. -/
theorem count_decorate_sample : ∃ outcome,
    (Sample.client.decorate false Sample.crowded Sample.refusal).1 = .ok outcome ∧
    ∃ course, Sample.client.Course false Sample.crowded Sample.refusal course ∧
      outcome.upload.count =
        if ∃ x ∈ posted course, reception x.2 = .failed then 0
        else (taken (posted course)).flatten.length := by
  obtain ⟨upload, cause, -, -, hvalue⟩ := Sample.decorate_crowded
  exact ⟨_, hvalue, count_decorate Sample.client rfl false Sample.crowded Sample.refusal hvalue⟩

/-- A run that the second batch stops reports no annotation, where the host took a hundred. -/
theorem decorate_crowded_count : ∃ outcome course,
    (Sample.client.decorate false Sample.crowded Sample.refusal).1 = .ok outcome ∧
      Sample.client.Course false Sample.crowded Sample.refusal course ∧
      outcome.upload.count = 0 ∧ (taken (posted course)).flatten.length = 100 := by
  obtain ⟨upload, cause, hcount, hcourse, hvalue⟩ := Sample.decorate_crowded
  refine ⟨_, _, hvalue, hcourse, hcount, ?_⟩
  rw [Sample.course_crowded]
  rfl

end Client

end PullGate
