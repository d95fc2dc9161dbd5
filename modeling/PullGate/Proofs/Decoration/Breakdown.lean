import PullGate.Proofs.Decoration.Service
import PullGate.Proofs.Session.Breakdown

/-! When a decoration breaks down: on an answer without a value for its charset, on an exchange
whose answer states a lifetime of the wrong kind or is nested too deep, on a refusal of which no
text can be made, on a search for comments whose answer is no listing, and on an address whose
credentials do not fit into a header.  On everything else it has an outcome. -/

namespace PullGate

open Decoration Run

theorem Json.write_object_cons_ne (member : Text × Json) (members : List (Text × Json)) :
    (Json.object (member :: members)).write ≠ (Json.object []).write := by
  obtain ⟨key, value⟩ := member
  cases members <;> simp [Json.write, Json.writeMembers, Json.writeString, Text.ofString]

theorem Json.write_array_ne (items : List Json) :
    (Json.array items).write ≠ (Json.object []).write := by
  simp [Json.write]

namespace Client

theorem play_requireSuccess (r : Http.Response) (q : List Answer) :
    ((requireSuccess r).play q).said = [] ∧ ∀ cause,
      ((requireSuccess r).play q).value = .error (.breakdown cause) ↔
        rejection? r = some (.breakdown cause) := by
  unfold requireSuccess
  cases rejection? r <;> simp [play_pure, play_throw]

variable (c : Client) (r : Repository)

/-- A deletion goes well whatever the answer is. -/
theorem sound_delete (url : Text) {judge : Http.Response → Run Unit}
    (hjudge : ∀ response q, ((judge response).play q).said = [] ∧
      ((judge response).play q).value = .ok ()) :
    (c.send "DELETE" url none >>= judge).Sound := by
  refine sound_call fun response q => ⟨(hjudge response q).1, fun cause => ?_⟩
  have hget : Text.ofString "DELETE" ≠ Text.ofString "GET" := by decide
  rw [(hjudge response q).2]
  simp [Call.breakdown?, Answer.breakdown?, Answer.isOverlooked, hget]

/-- A request that needs a success breaks down on a refusal that cannot be read. -/
theorem sound_require {method : Text} (hget : method ≠ "GET") (hdelete : method ≠ "DELETE")
    (url : Text) {body : Json} (hbody : body.write ≠ (Json.object []).write) :
    (c.send method url (some body) >>= requireSuccess).Sound := by
  refine sound_call fun response q => ?_
  obtain ⟨hsaid, hvalue⟩ := play_requireSuccess response q
  refine ⟨hsaid, fun cause => ?_⟩
  rw [hvalue, rejection?_eq_breakdown]
  cases hs : response.isSuccess <;>
    simp [Call.breakdown?, Answer.breakdown?, Answer.isOverlooked, hs, hget, hdelete, hbody]

theorem sound_uploadReport (commit : Text) (report : ReportPayload) :
    (c.uploadReport r commit report).Sound := by
  have hdelete : (c.deleteReport r commit).Sound :=
    (sound_log _ _ _).bind fun _ => sound_delete c _ fun _ _ => ⟨rfl, rfl⟩
  exact hdelete.bind fun _ => (sound_log _ _ _).bind fun _ =>
    sound_require c (by decide) (by decide) _ (Json.write_object_cons_ne _ _)

theorem sound_uploadAnnotations (commit : Text) (annotations : List AnnotationPayload) :
    (c.uploadAnnotations r commit annotations).Sound := by
  unfold uploadAnnotations
  split
  · exact sound_pure ()
  · exact (sound_log _ _ _).bind fun _ =>
      sound_require c (by decide) (by decide) _ (Json.write_array_ne _)

/-- An approval that is there already goes well; any other refusal has to be read. -/
theorem sound_approve (id : Int) : (c.approve r id).Sound := by
  refine (sound_log _ _ _).bind fun _ => sound_call fun response q => ?_
  by_cases hconflict : response.status = conflict
  · have hs : response.isSuccess = false := by simp [Http.Response.isSuccess, hconflict, conflict]
    simp [hconflict, play_pure, Call.breakdown?, Answer.breakdown?, Answer.isOverlooked, hs]
  · obtain ⟨hsaid, hvalue⟩ := play_requireSuccess response q
    simp only [hconflict, ↓reduceIte]
    refine ⟨hsaid, fun cause => ?_⟩
    have hget : Text.ofString "POST" ≠ Text.ofString "GET" := by decide
    have hdelete : Text.ofString "POST" ≠ Text.ofString "DELETE" := by decide
    rw [hvalue, rejection?_eq_breakdown]
    cases hs : response.isSuccess <;>
      simp [Call.breakdown?, Answer.breakdown?, Answer.isOverlooked, hs, hconflict, hget, hdelete]

theorem sound_unapprove (id : Int) : (c.unapprove r id).Sound := by
  refine (sound_log _ _ _).bind fun _ => sound_delete c _ fun response q => ?_
  split <;> exact ⟨rfl, rfl⟩

theorem sound_findComment (id : Int) : (c.findComment r id).Sound := by
  have hdelete : Text.ofString "GET" ≠ Text.ofString "DELETE" := by decide
  apply sound_call
  intro response q
  have hsome := isSome_rejection? response
  have hbreaks : ∀ cause, rejection? response = some (.breakdown cause) ↔
      response.isSuccess = false ∧ response.unreadable? = some cause :=
    fun _ => rejection?_eq_breakdown
  unfold requireSuccess
  cases hrejected : rejection? response with
  | some failure =>
    have hs : response.isSuccess = false := by simpa [hrejected] using hsome
    simp only [hrejected, Option.some.injEq, hs, true_and] at hbreaks
    simp [play_bind, play_throw, Call.breakdown?, Answer.breakdown?, Answer.isOverlooked, hs,
      hdelete, hbreaks]
  | none =>
    have hs : response.isSuccess = true := by simpa [hrejected] using hsome
    simp only [play_bind, play_pure, Call.breakdown?, Answer.breakdown?, hs, Comment.breakdown?]
    cases hread : response.json with
    | error fault =>
      cases fault with
      | charset fault => simp [play_throw, Failure.ofReading, Played.andThen]
      | json document e => cases e <;> simp [play_throw, Failure.ofReading, Played.andThen]
    | ok answer =>
      cases hid : Comment.firstId answer <;>
        simp [hid, play_breakDown, play_pure, Played.andThen]

theorem sound_publishComment (id : Int) (a : Analysis) : (c.publishComment r id a).Sound := by
  apply (sound_findComment c r id).bind
  intro found
  cases found with
  | some comment =>
    exact (sound_log _ _ _).bind fun _ =>
      sound_require c (by decide) (by decide) _ (Json.write_object_cons_ne _ _)
  | none =>
    exact (sound_log _ _ _).bind fun _ =>
      sound_require c (by decide) (by decide) _ (Json.write_object_cons_ne _ _)

end Client

namespace Decoration

variable (s : Setup) (a : Analysis)

theorem sound_sendBatch (commit : Text) (batch : List AnnotationPayload) :
    (sendBatch s commit batch).Sound := by
  refine Sound.handled ?_ (fun cause => ?_) fun _ => rfl
  · exact (s.client.sound_uploadAnnotations _ _ _).bind fun _ => sound_pure true
  · cases cause with
    | provider status body =>
      simp only
      split
      · exact sound_pure false
      · exact sound_stop _
    | _ => exact sound_stop _

theorem sound_sendBatches (commit : Text) (total number count : Nat)
    (batches : List (List AnnotationPayload)) :
    (sendBatches s commit total number count batches).Sound := by
  induction batches generalizing number count with
  | nil => exact sound_pure _
  | cons batch batches ih =>
    rw [sendBatches]
    split
    · exact (sound_log _ _ _).bind fun _ => sound_pure _
    · apply (sound_sendBatch s commit batch).bind
      intro went
      cases went with
      | true => exact ih (number + 1) (count + batch.length)
      | false => exact (sound_log _ _ _).bind fun _ => sound_pure _

theorem sound_uploadAnnotations (hlimit : 0 < s.capabilities.limit.batchSize) :
    (uploadAnnotations s a).Sound := by
  have hsize : ¬s.capabilities.limit.batchSize ≤ 0 := by omega
  unfold uploadAnnotations Batch.partition
  simp only [hsize, ↓reduceIte]
  exact sound_sendBatches s a.commit _ 1 0 _

theorem sound_conclude (approval : Bool) (upload : Upload) :
    (conclude s approval a upload).Sound := by
  have hpublish := (s.client.sound_publishComment s.repository a.pullRequest a).bind
    fun _ => sound_pure (Outcome.decorated upload)
  cases approval with
  | false => exact hpublish
  | true =>
    refine Sound.bind ?_ fun _ => hpublish
    unfold settleApproval
    split
    · exact s.client.sound_approve _ _
    · exact s.client.sound_unapprove _ _

theorem sound_steps (hlimit : 0 < s.capabilities.limit.batchSize) (approval : Bool) :
    (steps s approval a).Sound := by
  unfold steps
  split
  · apply (s.client.sound_uploadReport _ _ _).bind
    intro _
    apply (sound_uploadAnnotations s a hlimit).bind
    intro upload
    exact (sound_conclude s a approval upload).handled (fun _ => sound_pure _) fun _ => rfl
  · exact (sound_log _ _ _).bind fun _ => sound_pure _

theorem run_eq_error_iff (hlimit : 0 < s.capabilities.limit.batchSize) (approval : Bool)
    (q : List Answer) (cause : Breakdown) :
    ((run s approval a).play q).value = .error cause ↔
      ∃ x ∈ ((run s approval a).play q).said,
        x.1.breakdown? x.2 = some cause := by
  have hsound := sound_steps s a hlimit approval q cause
  unfold Run.play at hsound
  unfold run
  rw [Dialogue.play_bind, Played.andThen_said, Played.andThen_value]
  cases hv : ((steps s approval a).run.play q).value with
  | ok outcome =>
    rw [hv] at hsound
    simpa [said_close, value_close] using hsound
  | error e =>
    rw [hv] at hsound
    cases e with
    | stop stopped => simpa [said_close, value_close] using hsound
    | breakdown broken => simpa using hsound

end Decoration

namespace Client

variable {c : Client} {a : Analysis} {cause : Breakdown}

/-- Credentials that cannot be written down are noticed at the report, with which a decoration
begins. -/
theorem unwritable_clearReport {approval : Bool} {token token' : Json} {H : List Hop}
    {said : List (Call × Answer)}
    (hsaid : ((run c.setup approval a).play (said.map Prod.snd)).said = said)
    (hserves : c.session.Serves token said H token') :
    (∃ x ∈ said, c.session.Unwritable x.1 cause) ↔
      c.session.Unwritable (Errand.clearReport.call c.setup a) cause := by
  obtain ⟨more, hcons, hlast⟩ := said_decorate_eq_cons c approval a (said.map Prod.snd)
  rw [hsaid] at hcons
  constructor
  · rintro ⟨x, hx, hunwritable⟩
    obtain ⟨e, he⟩ : ∃ e : Errand, x.1 = e.call c.setup a := by
      rw [← hsaid, said_decorate, List.mem_map] at hx
      obtain ⟨y, -, rfl⟩ := hx
      exact ⟨y.1, rfl⟩
    rw [hcons] at hx hserves
    rcases List.mem_cons.mp hx with rfl | hmore
    · exact hunwritable
    -- something follows, so the report was answered and its address is in order
    obtain ⟨first, later, between, -, hhandling, -⟩ := hserves.cons_inv
    cases hnext : Answer.next (said.map Prod.snd) with
    | error e' =>
      rw [hlast (by rw [hnext]; rfl)] at hmore
      cases hmore
    | ok response =>
      rw [hnext] at hhandling
      have hreport := hhandling.reachable_of_ok hunwritable.1
      obtain ⟨address, haddress, -, hplain⟩ := Errand.reachable c.setup a hreport e
      rw [he] at hunwritable
      exact absurd hplain (hunwritable.not_plain haddress)
  · intro h
    rw [hcons]
    exact ⟨_, .head _, h⟩

/-- A run whose preface goes well searches for the comment. -/
theorem findComment_mem_said {s : Setup} {approval : Bool} {q : List Answer}
    (h : AllWell (untilFatal (preface s approval a q) q)) :
    (Errand.findComment, Answer.next (q.drop (preface s approval a q).length)) ∈
      untilFatal (schedule s approval a q) q := by
  rw [schedule, untilFatal_append_of_allWell h]
  exact List.mem_append_right _ (.head _)

/-- A decoration has an outcome unless a hop whose answer is looked into breaks it down, or the
address of the service names credentials that cannot be written down; it then breaks down for that
reason. -/
theorem decorate_eq_error_iff (c : Client) (approval : Bool) (a : Analysis) (w : Wire)
    (cause : Breakdown) : (c.decorate approval a w).1 = .error cause ↔
      c.session.Unwritable (Errand.clearReport.call c.setup a) cause ∨
        ∃ h ∈ c.session.heeded (c.traffic approval a w),
          c.session.breakdown? h = some cause := by
  obtain ⟨said, hserves, -, hsaid, hvalue⟩ := serves_decorate c approval a w
  have hlimit : 0 < c.setup.capabilities.limit.batchSize := (by decide : (0 : Int) < 100)
  have hrun := run_eq_error_iff c.setup a hlimit approval (said.map Prod.snd) cause
  rwa [hvalue, hsaid, Session.breaks_serves hserves, unwritable_clearReport hsaid hserves] at hrun

theorem Sample.batches_client :
    batches Sample.client.setup Sample.analysis = [payloads Sample.analysis] := by
  have hlength : (payloads Sample.analysis).length = 2 := by
    rw [payloads, List.length_map, (Batch.perm_bySeverity _ _).length_eq]
    rfl
  unfold batches cut
  rw [Batch.slices_of_length_le (List.ne_nil_of_length_pos (by omega)) (by rw [hlength]; decide)]
  rfl

/-- The error of a search for comments that is answered with an array leaves the program. -/
theorem decorate_emptyArray :
    (Sample.client.decorate false Sample.analysis { replies := [.ok (Sample.response 404),
      .ok (Sample.response 200), .ok (Sample.response 200), .ok Sample.emptyArray] }).1 =
      .error (.comments (.answer "list")) := by
  obtain ⟨hvalue, -⟩ := Session.carryOut_plain (s := Sample.client.session) rfl Sample.headerFits
    (run Sample.client.setup false Sample.analysis)
    (within_able Sample.preparable Sample.sendable false)
    { replies := [.ok (Sample.response 404), .ok (Sample.response 200), .ok (Sample.response 200),
      .ok Sample.emptyArray] }
  let q : List Answer := [.ok (Sample.response 404), .ok (Sample.response 200),
    .ok (Sample.response 200), .ok Sample.emptyArray]
  have hlimit : 0 < Sample.client.setup.capabilities.limit.batchSize := by decide
  have hlength : (preface Sample.client.setup false Sample.analysis q).length = 3 := by
    rw [preface, Sample.batches_client]
    rfl
  have hwell : AllWell (untilFatal (preface Sample.client.setup false Sample.analysis q) q) := by
    rw [allWell_iff, preface, Sample.batches_client]
    rfl
  have hfind := findComment_mem_said hwell
  rw [hlength] at hfind
  have hlisting : Answer.breakdown? "GET" none (.ok Sample.emptyArray) =
      some (.comments (.answer "list")) := by decide +kernel
  unfold decorate
  rw [hvalue, run_eq_error_iff _ _ hlimit, said_decorate]
  exact ⟨_, List.mem_map_of_mem hfind, hlisting⟩

end Client

end PullGate
