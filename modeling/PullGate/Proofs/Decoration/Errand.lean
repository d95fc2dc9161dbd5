import PullGate.Decoration
import PullGate.Proofs.Dialogue.Play

/-! The errands of a run: what each of its calls is for, and on which answers the run ends with it.
A run that follows a list of errands makes their calls in order, up to the first one that is fatal,
and succeeds if there is none.  The operations of a client follow one or two errands each, and runs
in sequence follow their errands in sequence. -/

namespace PullGate

namespace Comment

/-- What an answer to the search for comments lists: the identifier of the first comment, if there
is one. An answer of another shape lists nothing, not even that there is none. -/
def listed? (r : Http.Response) : Option (Option Text) :=
  match r.json with
  | .ok answer => (firstId answer).toOption
  | .error _ => none

end Comment

namespace Except

/-- The error of a computation, if it ended with one. -/
def failure? {ε α : Type} : Except ε α → Option ε
  | .ok _ => none
  | .error e => some e

end Except

namespace Client

/-- A refusal is reported with its status, unless its body cannot be read. -/
theorem rejection?_of_not_isSuccess {r : Http.Response} (h : r.isSuccess = false) :
    r.text.isOk = true ∧ (∃ body, rejection? r = some (.stop (.provider r.status body))) ∨
      r.text.isOk = false ∧ ∃ cause, rejection? r = some (.breakdown cause) := by
  unfold rejection?
  rw [h]
  cases hbody : r.body.isEmpty with
  | true => exact .inl ⟨by simp [Http.Response.text, hbody, Except.isOk, Except.toBool], _, rfl⟩
  | false =>
    cases htext : r.text with
    | ok body => exact .inl ⟨rfl, _, rfl⟩
    | error fault => exact .inr ⟨rfl, _, rfl⟩

theorem isSome_rejection? (r : Http.Response) :
    (rejection? r).isSome = !r.isSuccess := by
  cases hs : r.isSuccess with
  | true => simp [rejection?, hs]
  | false => rcases rejection?_of_not_isSuccess hs with ⟨-, _, hr⟩ | ⟨-, _, hr⟩ <;> simp [hr]

end Client

namespace Decoration

inductive Reception where
  | taken
  | tooLarge
  | failed
  deriving DecidableEq

/-- A batch is taken on a success; the status of a request that was too large is no failure, if the
body that came with it can be read. -/
def reception : Answer → Reception
  | .ok r =>
    if r.isSuccess then .taken
    else if r.status = tooLarge && r.text.isOk then .tooLarge
    else .failed
  | .error (.stop (.provider status _)) => if status = tooLarge then .tooLarge else .failed
  | .error _ => .failed

/-- What a run makes of a failure to send a batch. -/
def excused : Failure → Except Failure Bool
  | .stop (.provider status body) =>
    if status = tooLarge then .ok false else .error (.stop (.provider status body))
  | e => .error e

/-- What a run makes of the answer to a batch. -/
def received : Answer → Except Failure Bool
  | .ok r =>
    match Client.rejection? r with
    | none => .ok true
    | some failure => excused failure
  | .error e => excused e

theorem reception_cases (answer : Answer) :
    reception answer = .taken ∧ received answer = .ok true ∨
      reception answer = .tooLarge ∧ received answer = .ok false ∨
      reception answer = .failed ∧ ∃ e, received answer = .error e := by
  fun_cases reception answer with
  | case1 r hs => exact .inl ⟨rfl, by simp [received, Client.rejection?, hs]⟩
  | case2 r hs ht =>
    obtain ⟨hstatus, htext⟩ : r.status = tooLarge ∧ r.text.isOk = true := by simpa using ht
    rcases Client.rejection?_of_not_isSuccess (by simpa using hs) with
      ⟨-, body, hr⟩ | ⟨hfault, -⟩
    · exact .inr (.inl ⟨rfl, by simp [received, hr, excused, hstatus]⟩)
    · rw [htext] at hfault
      cases hfault
  | case3 r hs ht =>
    refine .inr (.inr ⟨rfl, ?_⟩)
    rcases Client.rejection?_of_not_isSuccess (by simpa using hs) with
      ⟨htext, body, hr⟩ | ⟨-, cause, hr⟩
    · have hstatus : r.status ≠ tooLarge := fun hstatus => ht (by simp [hstatus, htext])
      exact ⟨_, by simp [received, hr, excused, hstatus]; rfl⟩
    · exact ⟨_, by simp [received, hr, excused]; rfl⟩
  | case4 body => exact .inr (.inl ⟨rfl, by simp [received, excused]⟩)
  | case5 status body ht => exact .inr (.inr ⟨rfl, _, by simp [received, excused, ht]; rfl⟩)
  | case6 e h =>
    refine .inr (.inr ⟨rfl, e, ?_⟩)
    unfold received excused
    split <;> simp_all

/-- A call of a run, by what it is for. -/
inductive Errand where
  | clearReport
  | putReport
  | postBatch (batch : List AnnotationPayload)
  | approve
  | unapprove
  | findComment
  | writeComment (found : Option Text)

namespace Errand

variable (s : Setup) (a : Analysis)

def call : Errand → Call
  | .clearReport => {
      method := "DELETE"
      url := s.client.reportUrl s.repository a.commit
      timeout := s.client.timeout
      idna := s.client.idna }
  | .putReport => {
      method := "PUT"
      url := s.client.reportUrl s.repository a.commit
      body := some (ReportPayload.ofAnalysis a).toJson
      timeout := s.client.timeout
      idna := s.client.idna }
  | .postBatch batch => {
      method := "POST"
      url := s.client.annotationsUrl s.repository a.commit
      body := some (.array (batch.map AnnotationPayload.toJson))
      timeout := s.client.timeout
      idna := s.client.idna }
  | .approve => {
      method := "POST"
      url := s.client.approvalUrl s.repository a.pullRequest
      body := some (.object [])
      timeout := s.client.timeout
      idna := s.client.idna }
  | .unapprove => {
      method := "DELETE"
      url := s.client.approvalUrl s.repository a.pullRequest
      timeout := s.client.timeout
      idna := s.client.idna }
  | .findComment => {
      method := "GET"
      url := s.client.commentsUrl s.repository a.pullRequest
      query := [("q", Comment.query)]
      timeout := s.client.timeout
      idna := s.client.idna }
  | .writeComment found => {
      method := if found.isSome then "PUT" else "POST"
      url := match found with
        | some comment => s.client.commentsUrl s.repository a.pullRequest ++ "/" ++ comment
        | none => s.client.commentsUrl s.repository a.pullRequest
      body := some (.object [("content", .object [("raw", .string (Comment.text a))])])
      timeout := s.client.timeout
      idna := s.client.idna }

/-- Whether the run ends with an errand on the answer to its call. -/
def isFatal : Errand → Answer → Bool
  | .postBatch _, answer => reception answer = .failed
  | _, .error _ => true
  | .clearReport, .ok _ | .unapprove, .ok _ => false
  | .approve, .ok r => !r.isSuccess && r.status ≠ Client.conflict
  | .findComment, .ok r => !r.isSuccess || (Comment.listed? r).isNone
  | .putReport, .ok r | .writeComment _, .ok r => !r.isSuccess

end Errand

/-- The failure with which a run ends on the answer to an errand, if it does. -/
def Errand.failure? : Errand → Answer → Option Failure
  | .postBatch _, answer => Except.failure? (received answer)
  | _, .error e => some e
  | .clearReport, .ok _ | .unapprove, .ok _ => none
  | .approve, .ok r => if r.status = Client.conflict then none else Client.rejection? r
  | .putReport, .ok r | .writeComment _, .ok r => Client.rejection? r
  | .findComment, .ok r =>
    match Client.rejection? r with
    | some failure => some failure
    | none =>
      match r.json with
      | .error fault => some (.ofReading fault)
      | .ok answer =>
        (Except.failure? (Comment.firstId answer)).map fun f => .breakdown (.comments f)

/-- An errand is fatal exactly if it fails. -/
theorem Errand.isFatal_eq (e : Errand) (answer : Answer) :
    e.isFatal answer = (e.failure? answer).isSome := by
  cases e with
  | postBatch batch =>
    rcases reception_cases answer with ⟨hq, hr⟩ | ⟨hq, hr⟩ | ⟨hq, e, hr⟩ <;>
      simp [isFatal, failure?, Except.failure?, hq, hr]
  | clearReport | unapprove => cases answer <;> rfl
  | putReport | writeComment =>
    cases answer with
    | error e => rfl
    | ok r => simp [isFatal, failure?, Client.isSome_rejection?]
  | approve =>
    cases answer with
    | error e => rfl
    | ok r =>
      by_cases hs : r.status = Client.conflict
      · simp [isFatal, failure?, hs]
      · simp [isFatal, failure?, Client.isSome_rejection?, hs]
  | findComment =>
    cases answer with
    | error e => rfl
    | ok r =>
      have hrejected := Client.isSome_rejection? r
      cases hr : r.isSuccess with
      | false =>
        rw [hr] at hrejected
        obtain ⟨failure, hfailure⟩ := Option.isSome_iff_exists.mp hrejected
        simp [isFatal, failure?, hfailure, hr]
      | true =>
        cases hread : r.json with
        | error e => simp [isFatal, failure?, Client.rejection?, Comment.listed?, hr, hread]
        | ok answer =>
          cases hid : Comment.firstId answer <;>
            simp [isFatal, failure?, Client.rejection?, Comment.listed?, Except.failure?, hr, hread,
              hid, Except.toOption]

/-- The errands up to the first fatal one, that one included, each with the answer to its call. -/
def untilFatal : List Errand → List Answer → List (Errand × Answer)
  | [], _ => []
  | e :: errands, answers =>
    (e, Answer.next answers) ::
      if e.isFatal (Answer.next answers) then [] else untilFatal errands answers.tail

def AllWell (course : List (Errand × Answer)) : Prop := ∀ x ∈ course, x.1.isFatal x.2 = false

@[simp] theorem allWell_nil : AllWell [] := fun _ h => nomatch h

@[simp] theorem allWell_cons {x : Errand × Answer} {course : List (Errand × Answer)} :
    AllWell (x :: course) ↔ x.1.isFatal x.2 = false ∧ AllWell course := by
  simp [AllWell]

theorem allWell_append {first second : List (Errand × Answer)} :
    AllWell (first ++ second) ↔ AllWell first ∧ AllWell second :=
  List.forall_mem_append

theorem untilFatal_append_of_allWell {first : List Errand} {q : List Answer}
    (h : AllWell (untilFatal first q)) (second : List Errand) :
    untilFatal (first ++ second) q =
      untilFatal first q ++ untilFatal second (q.drop first.length) := by
  induction first generalizing q with
  | nil => simp [untilFatal]
  | cons e errands ih =>
    simp only [untilFatal, allWell_cons] at h
    obtain ⟨he, h⟩ := h
    simp only [he, Bool.false_eq_true, ↓reduceIte] at h
    simp [untilFatal, he, ih h]

theorem untilFatal_append_of_not_allWell {first : List Errand} {q : List Answer}
    (h : ¬AllWell (untilFatal first q)) (second : List Errand) :
    untilFatal (first ++ second) q = untilFatal first q := by
  induction first generalizing q with
  | nil => exact absurd allWell_nil h
  | cons e errands ih =>
    cases he : e.isFatal (Answer.next q) with
    | true => simp [untilFatal, he]
    | false =>
      simp only [untilFatal, he, Bool.false_eq_true, ↓reduceIte, allWell_cons, true_and] at h
      simp [untilFatal, he, ih h]

/-- Where none is fatal, all errands are carried out. -/
theorem map_fst_untilFatal_of_allWell {errands : List Errand} {q : List Answer}
    (h : AllWell (untilFatal errands q)) : (untilFatal errands q).map Prod.fst = errands := by
  induction errands generalizing q with
  | nil => rfl
  | cons e errands ih =>
    simp only [untilFatal, allWell_cons] at h ⊢
    obtain ⟨he, h⟩ := h
    simp only [he, Bool.false_eq_true, ↓reduceIte] at h ⊢
    rw [List.map_cons, ih h]

theorem length_untilFatal_of_allWell {errands : List Errand} {q : List Answer}
    (h : AllWell (untilFatal errands q)) : (untilFatal errands q).length = errands.length := by
  rw [← List.length_map Prod.fst, map_fst_untilFatal_of_allWell h]

/-- The failure of the first errand of a course that fails. -/
def failure? (course : List (Errand × Answer)) : Option Failure :=
  course.findSome? fun x => x.1.failure? x.2

theorem failure?_append (first second : List (Errand × Answer)) :
    failure? (first ++ second) = (failure? first).or (failure? second) :=
  List.findSome?_append

theorem allWell_iff {course : List (Errand × Answer)} :
    AllWell course ↔ failure? course = none := by
  simp [AllWell, failure?, List.findSome?_eq_none_iff, Errand.isFatal_eq]

/-- No errand follows one that fails. -/
theorem failure?_of_mem {errands : List Errand} {q : List Answer} {x : Errand × Answer}
    {e : Failure} (hx : x ∈ untilFatal errands q) (he : x.1.failure? x.2 = some e) :
    failure? (untilFatal errands q) = some e := by
  induction errands generalizing q with
  | nil => cases hx
  | cons errand errands ih =>
    unfold untilFatal at hx ⊢
    cases hfatal : errand.failure? (Answer.next q) with
    | some e' =>
      simp only [Errand.isFatal_eq, hfatal, Option.isSome_some, ↓reduceIte, List.mem_singleton]
        at hx
      subst hx
      simp [failure?, he]
    | none =>
      simp only [Errand.isFatal_eq, hfatal, Option.isSome_none, Bool.false_eq_true, ↓reduceIte,
        List.mem_cons] at hx ⊢
      rcases hx with rfl | hx
      · rw [hfatal] at he
        cases he
      · simpa [failure?, hfatal] using ih hx

/-! ### A sample -/

namespace Sample

/-- A client without tokens. -/
def client : Client where
  configuration := {
    url := "https://api.bitbucket.org"
    token := "basic_token"
    oauth2Key := []
    repository := "repository"
    project := "project" }
  timeout := .whole 10

/-- An analysis with two findings, the more severe one second. -/
def analysis : Analysis where
  projectKey := "project"
  commit := "abc123"
  pullRequest := 7
  gate := .ok
  dashboardUrl := "https://sonar.example.com/dashboard"
  imageUrl := "https://sonar.example.com"
  date := ⟨⟨2024, 5, 1⟩, ⟨10, 0, 0, 0⟩, none⟩
  counts := ⟨1, 0, 0, 1⟩
  coverage := Double.zero
  duplication := Double.zero
  failedConditions := []
  issueCount := 2
  annotations := [⟨"issue-0", "src/app.py", 1, [], "Low", .low, .codeSmell⟩,
    ⟨"issue-1", "src/app.py", 2, [], "High", .high, .bug⟩]

/-- An answer with a status and nothing else of note. -/
def response (status : Nat) : Http.Response := ⟨status, [], some "utf-8", [], {}⟩

/-- A search for comments that is answered with an empty array. -/
def emptyArray : Http.Response := ⟨200, "OK", some "utf-8", Text.utf8 "[]", {}⟩

end Sample

end Decoration

end PullGate
