import PullGate.Client.Basic
import PullGate.Proofs.Decoration.Able
import PullGate.Proofs.Decoration.Operations
import PullGate.Proofs.Session.Episode

/-! Operations of a client in any order.  Under tokens every call of theirs is one regular episode:
one exchange if the slot is empty, one request, and after a challenge one more of each; and every
request carries the token that was granted last. -/

namespace PullGate

namespace Run

variable {α β : Type} {r : Run α} {P : Call → Prop}

/-- All calls of a run, on any answers, are as stated. -/
def Within (r : Run α) (P : Call → Prop) : Prop := Dialogue.Within r.run P

theorem within_of_quiet (h : ∀ q, (r.play q).said = []) : r.Within P := by
  intro q x hx
  rw [show (r.run.play q).said = [] from h q] at hx
  cases hx

theorem within_call {c : Call} (h : P c) : (Run.call c).Within P := by
  intro q x hx
  rw [show ((Run.call c).run.play q).said = [(c, Answer.next q)] from rfl] at hx
  rwa [List.mem_singleton.mp hx]

theorem Within.bind {f : α → Run β} (hr : r.Within P) (hf : ∀ v, (f v).Within P) :
    (r >>= f).Within P := by
  intro q x hx
  have hplay := play_bind r f q
  unfold play at hplay
  rw [hplay] at hx
  cases hv : (r.run.play q).value with
  | error e =>
    rw [hv] at hx
    exact hr q x hx
  | ok v =>
    rw [hv] at hx
    rcases List.mem_append.mp hx with hx | hx
    · exact hr q x hx
    · exact hf v _ x hx

end Run

namespace Client

/-- An operation of a client on a hosted repository. -/
inductive Operation where
  | deleteReport (r : Repository) (commit : Text)
  | uploadReport (r : Repository) (commit : Text) (report : ReportPayload)
  | uploadAnnotations (r : Repository) (commit : Text) (annotations : List AnnotationPayload)
  | approve (r : Repository) (id : Int)
  | unapprove (r : Repository) (id : Int)
  | findComment (r : Repository) (id : Int)
  | publishComment (r : Repository) (id : Int) (a : Analysis)

def Operation.run (c : Client) : Operation → Run Unit
  | .deleteReport r commit => c.deleteReport r commit
  | .uploadReport r commit report => c.uploadReport r commit report
  | .uploadAnnotations r commit annotations => c.uploadAnnotations r commit annotations
  | .approve r id => c.approve r id
  | .unapprove r id => c.unapprove r id
  | .findComment r id => do
    let _ ← c.findComment r id
    return ()
  | .publishComment r id a => c.publishComment r id a

/-- Operations one after the other, each with its result; one that fails does not keep the next from
being carried out. -/
def operate (c : Client) : List Operation → Dialogue (List (Except Failure Unit))
  | [] => .done []
  | op :: ops => do
    let result ← (op.run c).run
    let results ← operate c ops
    return result :: results

/-- A call to an address of the service, with a body that has a standard form. -/
structure Own (c : Client) (call : Call) : Prop where
  url : ∃ resource, call.url = Url.under c.configuration.url resource
  standard : ∀ body, call.body = some body → body.isStandard = true
  idna : call.idna = c.idna

variable (c : Client) (r : Repository)

section Within

variable {P : Call → Prop}

theorem within_inform (message : Text) : (inform message).Within P :=
  Run.within_of_quiet fun _ => rfl

theorem within_trace (message : Text) : (trace message).Within P :=
  Run.within_of_quiet fun _ => rfl

theorem within_pure {α : Type} (v : α) : (pure v : Run α).Within P :=
  Run.within_of_quiet fun _ => rfl

theorem within_requireSuccess (response : Http.Response) : (requireSuccess response).Within P :=
  Run.within_of_quiet fun q => (quiet_requireSuccess response q).1

end Within

theorem within_send_bare {method url : Text}
    (hurl : ∃ resource, url = Url.under c.configuration.url resource) :
    (c.send method url none).Within c.Own :=
  Run.within_call ⟨hurl, fun _ h => (nomatch h), rfl⟩

theorem within_send {method url : Text} {body : Json}
    (hurl : ∃ resource, url = Url.under c.configuration.url resource)
    (hbody : body.isStandard = true) : (c.send method url (some body)).Within c.Own :=
  Run.within_call ⟨hurl, fun _ h => Option.some.inj h ▸ hbody, rfl⟩

theorem repositoryUrl_eq (more : Text) : ∃ resource,
    c.repositoryUrl r ++ more = Url.under c.configuration.url resource :=
  ⟨"repositories/" ++ r.project ++ "/" ++ r.name ++ more, by
    simp [repositoryUrl, Url.under, Text.ofString]⟩

theorem reportUrl_under (commit more : Text) : ∃ resource,
    c.reportUrl r commit ++ more = Url.under c.configuration.url resource := by
  unfold reportUrl
  simp only [List.append_assoc]
  exact c.repositoryUrl_eq r _

theorem pullRequestUrl_under (id : Int) (more : Text) : ∃ resource,
    c.pullRequestUrl r id ++ more = Url.under c.configuration.url resource := by
  unfold pullRequestUrl
  simp only [List.append_assoc]
  exact c.repositoryUrl_eq r _

theorem within_deleteReport (commit : Text) : (c.deleteReport r commit).Within c.Own := by
  refine (within_inform _).bind fun _ => ?_
  refine (c.within_send_bare ?_).bind fun _ => within_trace _
  simpa using c.reportUrl_under r commit []

theorem within_uploadReport (commit : Text) (report : ReportPayload) :
    (c.uploadReport r commit report).Within c.Own := by
  refine (c.within_deleteReport r commit).bind fun _ => (within_inform _).bind fun _ => ?_
  refine (c.within_send ?_ report.isStandard_toJson).bind within_requireSuccess
  simpa using c.reportUrl_under r commit []

theorem within_uploadAnnotations (commit : Text) (annotations : List AnnotationPayload) :
    (c.uploadAnnotations r commit annotations).Within c.Own := by
  have hbody : (Json.array (annotations.map AnnotationPayload.toJson)).isStandard = true :=
    Json.areStandard_map AnnotationPayload.isStandard_toJson annotations
  unfold uploadAnnotations
  split
  · exact within_pure ()
  · refine (within_inform _).bind fun _ => ?_
    exact (c.within_send (c.reportUrl_under r commit _) hbody).bind within_requireSuccess

theorem within_approve (id : Int) : (c.approve r id).Within c.Own := by
  refine (within_inform _).bind fun _ => ?_
  refine (c.within_send (c.pullRequestUrl_under r id _) rfl).bind fun response => ?_
  split
  · exact within_pure ()
  · exact within_requireSuccess response

theorem within_unapprove (id : Int) : (c.unapprove r id).Within c.Own := by
  refine (within_inform _).bind fun _ => ?_
  refine (c.within_send_bare (c.pullRequestUrl_under r id _)).bind fun response => ?_
  split
  · exact within_pure ()
  · exact within_trace _

theorem within_findComment (id : Int) : (c.findComment r id).Within c.Own := by
  have hcall : c.Own {
      method := "GET"
      url := c.commentsUrl r id
      query := [("q", Comment.query)]
      timeout := c.timeout
      idna := c.idna } := ⟨c.pullRequestUrl_under r id _, fun _ h => (nomatch h), rfl⟩
  refine (Run.within_call hcall).bind fun response => ?_
  refine (within_requireSuccess response).bind fun _ => ?_
  split
  · exact Run.within_of_quiet fun _ => rfl
  · split
    · exact Run.within_of_quiet fun _ => rfl
    · exact within_pure _

theorem within_publishComment (id : Int) (a : Analysis) :
    (c.publishComment r id a).Within c.Own := by
  refine (c.within_findComment r id).bind fun found => ?_
  cases found with
  | some comment =>
    refine (within_inform _).bind fun _ => ?_
    refine (c.within_send ?_ rfl).bind within_requireSuccess
    rw [commentsUrl, List.append_assoc, List.append_assoc]
    exact c.pullRequestUrl_under r id _
  | none =>
    refine (within_inform _).bind fun _ => ?_
    exact (c.within_send (c.pullRequestUrl_under r id _) rfl).bind within_requireSuccess

theorem Operation.within_run (op : Operation) : (op.run c).Within c.Own := by
  cases op with
  | deleteReport r commit => exact c.within_deleteReport r commit
  | uploadReport r commit report => exact c.within_uploadReport r commit report
  | uploadAnnotations r commit annotations => exact c.within_uploadAnnotations r commit annotations
  | approve r id => exact c.within_approve r id
  | unapprove r id => exact c.within_unapprove r id
  | findComment r id => exact (c.within_findComment r id).bind fun _ => within_pure ()
  | publishComment r id a => exact c.within_publishComment r id a

/-- Every call of a client's operations is to its service. -/
theorem within_operate (ops : List Operation) : (c.operate ops).Within c.Own := by
  induction ops with
  | nil => exact fun q x hx => nomatch hx
  | cons op ops ih =>
    intro q x hx
    rw [operate, Dialogue.play_bind, Played.andThen_said, Dialogue.play_bind] at hx
    simp only [Played.andThen_said, Dialogue.pure_def, Dialogue.play_done, List.append_nil,
      List.mem_append] at hx
    rcases hx with hx | hx
    · exact op.within_run c q x hx
    · exact ih _ x hx

/-- The wire after some operations of a client, and what came of each of them. -/
def carryOut (ops : List Operation) : StateM Wire (List (Except Failure Unit)) :=
  c.session.carryOut (c.operate ops)

/-- The requests that operations send, each with the reply to it. -/
def operationTraffic (ops : List Operation) (w : Wire) : List Hop :=
  hops ((c.carryOut ops w).2.sent.drop w.sent.length) w.replies

theorem operationTraffic_eq {ops : List Operation} {w : Wire} {H : List Hop}
    (h : w.Moves H (c.carryOut ops w).2) : c.operationTraffic ops w = H := by
  unfold operationTraffic
  rw [h.sent, List.drop_left, ← h.heard]

end Client

end PullGate
