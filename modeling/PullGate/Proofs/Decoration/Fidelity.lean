import PullGate.Proofs.Client.Bodies
import PullGate.Proofs.Decoration.Ending
import PullGate.Proofs.Decoration.Service
import PullGate.Proofs.Session.Settlement

/-! What the requests of a decoration say.  The body of each JSON request is ASCII and is read back
as the report, the annotations or the comment that were to be sent, so that the findings that went
out can be recovered from the bodies. -/

namespace PullGate

open Decoration

/-! ### What is to be said -/

namespace Json

def text? (key : Text) (j : Json) : Option Text :=
  match j.get? key with
  | some (.string t) => some t
  | _ => none

def natural? (key : Text) (j : Json) : Option Nat :=
  match j.get? key with
  | some (.int (.ofNat n)) => some n
  | _ => none

end Json

/-- The finding that an annotation tells of. -/
def Finding.ofAnnotation? (j : Json) : Option Finding := do
  let externalId ← j.text? "external_id"
  let path ← j.text? "path"
  let line ← j.natural? "line"
  let link ← j.text? "link"
  let message ← j.text? "summary"
  let severity ← j.text? "severity"
  let severity ← Severity.words.find? fun w => w.1 = severity
  let kind ← j.text? "annotation_type"
  let kind ← FindingKind.words.find? fun w => w.1 = kind
  return ⟨externalId, path, line, link, message, severity.2, kind.2⟩

theorem Finding.ofAnnotation?_toJson (f : Finding) :
    ofAnnotation? (AnnotationPayload.ofFinding f).toJson = some f := by
  obtain ⟨externalId, path, line, link, message, severity, kind⟩ := f
  cases severity <;> cases kind <;> rfl

theorem Finding.mapM_ofAnnotation? (findings : List Finding) :
    (findings.map fun f => (AnnotationPayload.ofFinding f).toJson).mapM ofAnnotation? =
      some findings := by
  induction findings with
  | nil => rfl
  | cons f findings ih => rw [List.map_cons, List.mapM_cons, ofAnnotation?_toJson, ih]; rfl

/-- How a row is shown. A percentage that is not finite is none. -/
def Row.shown (r : Row) : Json :=
  .object [("title", .string r.title), ("type", .string r.value.kind),
    ("value", match r.value with
      | .percentage d => if d.isFinite then .double d else .null
      | .text t => .string t
      | .link label href => .object [("text", .string label), ("href", .string href)])]

theorem RowPayload.toJson_ofRow (r : Row) : (ofRow r).toJson = r.shown := by
  obtain ⟨title, value⟩ := r
  cases value <;> rfl

/-- The object of a report says what there is to say of an analysis. -/
structure Report.Says (a : Analysis) (j : Json) : Prop where
  details : j.get? "details" = some (.string (Report.description a))
  link : j.get? "link" = some (.string a.dashboardUrl)
  logoUrl : j.get? "logo_url" = some (.string a.logoUrl)
  result : j.get? "result" = some (.string (if a.passed then "PASSED" else "FAILED"))
  data : j.get? "data" = some (.array
    ((Report.rows a (.link "Go to SonarQube" a.dashboardUrl)).map Row.shown))

theorem Report.says_toJson (a : Analysis) : Report.Says a (ReportPayload.ofAnalysis a).toJson where
  details := rfl
  link := rfl
  logoUrl := rfl
  result := by
    obtain ⟨_, _, _, gate, _, _, _, _, _, _, _, _, _⟩ := a
    cases gate <;> rfl
  data := by
    have hrows : ((ReportPayload.ofAnalysis a).rows.map RowPayload.toJson) =
        (Report.rows a (.link "Go to SonarQube" a.dashboardUrl)).map Row.shown := by
      rw [ReportPayload.ofAnalysis, List.map_map]
      exact List.map_congr_left fun r _ => RowPayload.toJson_ofRow r
    rw [← hrows]
    rfl

namespace Decoration

/-- What the body of a request for an errand says. -/
def Errand.Says (a : Analysis) : Errand → Json → Prop
  | .putReport, j => Report.Says a j
  | .postBatch batch, j => j = .array (batch.map AnnotationPayload.toJson)
  | .approve, j => j = .object []
  | .writeComment _, j => j = .object [("content", .object [("raw", .string (Comment.text a))])]
  | .clearReport, _ | .unapprove, _ | .findComment, _ => False

end Decoration

/-! ### The parts of a decoration -/

/-- A request with a JSON body. -/
def Hop.isJson (h : Hop) : Bool := h.request.contentType = some "application/json"

/-- The hops that were made for an errand, and the answer that they came to. -/
structure Part where
  errand : Errand
  answer : Answer
  hops : List Hop

namespace Part

/-- What the first JSON body of a part is read as; if there are more of them, they are the same. -/
def payload? (p : Part) : Option Json := do
  let hop ← p.hops.find? Hop.isJson
  let text ← hop.request.body
  (Json.read text).toOption

/-- The annotations that the body for a batch lists. -/
def annotations (p : Part) : List Json :=
  match p.errand, p.payload? with
  | .postBatch _, some (.array items) => items
  | _, _ => []

end Part

/-- A decoration in parts, one for each errand, the bodies of which say what they are to say. -/
structure Client.Faithful (c : Client) (approval : Bool) (a : Analysis) (w : Wire)
    (parts : List Part) : Prop where
  traffic : c.traffic approval a w = parts.flatMap Part.hops
  course : (parts.map fun p => (p.errand, p.answer)) =
    untilFatal (schedule c.setup approval a (parts.map Part.answer)) (parts.map Part.answer)
  bodies : ∀ p ∈ parts, ∀ hop ∈ p.hops, hop.isJson = true →
    (p.errand.call c.setup a).Makes hop.request ∧
      ∃ text j, hop.request.body = some text ∧ text.IsAscii ∧ Json.read text = .ok j ∧
        p.errand.Says a j
  annotations : ∃ count,
    parts.flatMap Part.annotations =
      ((Batch.bySeverity Finding.severity a.annotations).take count).map
        (fun f => (AnnotationPayload.ofFinding f).toJson) ∧
    (parts.flatMap Part.annotations).mapM Finding.ofAnnotation? =
      some ((Batch.bySeverity Finding.severity a.annotations).take count)

namespace Decoration

variable {s : Setup} {a : Analysis} {approval : Bool} {q : List Answer}

/-! ### Bodies that are read back -/

theorem flatten_take_batches (count : Nat) : ∃ m, ((batches s a).take count).flatten =
    ((Batch.bySeverity Finding.severity a.annotations).take m).map AnnotationPayload.ofFinding := by
  rw [batches, List.take_take, cut, Batch.flatten_take_slices, payloads, ← List.map_take]
  exact ⟨_, rfl⟩

/-- Every batch of a run is made of findings. -/
theorem ofFinding_of_mem_batches {batch : List AnnotationPayload} (hbatch : batch ∈ batches s a)
    {payload : AnnotationPayload} (h : payload ∈ batch) :
    ∃ f ∈ a.annotations, AnnotationPayload.ofFinding f = payload := by
  obtain ⟨m, hm⟩ := flatten_take_batches (s := s) (a := a) (batches s a).length
  have hmem : payload ∈ (batches s a).flatten := List.mem_flatten.mpr ⟨batch, hbatch, h⟩
  rw [List.take_length] at hm
  rw [hm] at hmem
  obtain ⟨f, hf, rfl⟩ := List.mem_map.mp hmem
  exact ⟨f, (Batch.perm_bySeverity _ _).mem_iff.mp (List.mem_of_mem_take hf), rfl⟩

theorem batches_of_schedule (q : List Answer) :
    (schedule s approval a q).filterMap Errand.batch? <+: batches s a := by
  have hposts : (posts (batches s a) (q.drop 2)).filterMap Errand.batch? =
      (exchanges (batches s a) (q.drop 2)).map Prod.fst := by
    rw [posts, List.filterMap_map]
    exact congrFun List.filterMap_eq_map _
  have hclosing : ∀ q : List Answer, (closing approval a q).filterMap Errand.batch? = [] :=
    fun q => List.filterMap_eq_nil_iff.mpr (batch?_closing q)
  obtain ⟨count, -, -, hsent, -⟩ := exchanges_prefix (batches s a) (q.drop 2)
  rw [schedule_eq, List.filterMap_append, List.filterMap_append, hposts, hclosing, hsent,
    List.append_nil]
  exact List.take_prefix _ _

/-- The body of a call for an errand is read back, and says what it is to say. -/
theorem Errand.says_body (ha : a.Writable) {e : Errand} {j : Json}
    (hbatch : ∀ batch, e.batch? = some batch → batch ∈ batches s a)
    (hj : (e.call s a).body = some j) : Json.read (Json.write j) = .ok j ∧ e.Says a j := by
  cases e with
  | clearReport | unapprove | findComment => cases hj
  | putReport =>
    obtain rfl := Option.some.inj hj
    exact ⟨(ha.faithful_report 986).read_write, Report.says_toJson a⟩
  | approve =>
    obtain rfl := Option.some.inj hj
    exact ⟨rfl, rfl⟩
  | writeComment found =>
    obtain rfl := Option.some.inj hj
    exact ⟨(ha.faithful_comment 988).read_write, rfl⟩
  | postBatch batch =>
    obtain rfl := Option.some.inj hj
    refine ⟨(Json.Faithful.array fun item hitem => ?_ : Json.Faithful 990 _).read_write, rfl⟩
    obtain ⟨payload, hpayload, rfl⟩ := List.mem_map.mp hitem
    obtain ⟨f, hf, rfl⟩ := ofFinding_of_mem_batches (hbatch batch rfl) hpayload
    exact (ha.annotations f hf).faithful 988

/-! ### Parts -/

variable {session : Session} {token token' : Json} {p : Part}

/-- A session handles the calls for a course one after the other, in parts. -/
theorem exists_handled {course : List (Errand × Answer)} {H : List Hop}
    (h : session.Serves token (course.map fun x => (x.1.call s a, x.2)) H token') :
    ∃ parts : List Part, H = parts.flatMap Part.hops ∧
      (parts.map fun p => (p.errand, p.answer)) = course ∧
      ∀ p ∈ parts, ∃ before after,
        session.Handling (p.errand.call s a) before p.hops p.answer after := by
  induction course generalizing token H with
  | nil => exact ⟨[], h.nil_inv.1, rfl, List.forall_mem_nil _⟩
  | cons x course ih =>
    obtain ⟨first, later, between, rfl, hhandling, hlater⟩ := h.cons_inv
    obtain ⟨parts, rfl, rfl, hparts⟩ := ih hlater
    exact ⟨⟨x.1, x.2, first⟩ :: parts, rfl, rfl,
      List.forall_mem_cons.mpr ⟨⟨token, between, hhandling⟩, hparts⟩⟩

/-- What a session makes of the calls for a course, in parts. -/
theorem exists_parts {course : List (Errand × Answer)} {H : List Hop}
    (h : session.Serves token (course.map fun x => (x.1.call s a, x.2)) H token') :
    ∃ parts : List Part, H = parts.flatMap Part.hops ∧
      (parts.map fun p => (p.errand, p.answer)) = course ∧
      ∀ p ∈ parts, session.Settles (p.errand.call s a) p.hops p.answer := by
  obtain ⟨parts, hH, hcourse, hparts⟩ := exists_handled h
  refine ⟨parts, hH, hcourse, fun p hp => ?_⟩
  obtain ⟨before, after, hhandling⟩ := hparts p hp
  exact hhandling.settles

theorem mem_of_course {parts : List Part} {errands : List Errand}
    (hcourse : (parts.map fun p => (p.errand, p.answer)) = untilFatal errands q) (hp : p ∈ parts) :
    p.errand ∈ errands := by
  have hmem := List.mem_map_of_mem (f := fun p => (p.errand, p.answer)) hp
  rw [hcourse] at hmem
  exact mem_of_mem_untilFatal hmem

/-- No exchange is a request with a JSON body. -/
theorem not_isExchange_of_isJson {hop : Hop} (h : hop.isJson = true) :
    session.isExchange hop = false := by
  unfold Session.isExchange
  cases session.bearer with
  | none => rfl
  | some k =>
    cases hexchange : k.isExchange hop with
    | false => exact hexchange
    | true =>
      have htype := Token.Credentials.contentType_of_isExchange hexchange
      have hjson := of_decide_eq_true h
      rw [htype] at hjson
      exact absurd hjson (by decide)

/-- A request with a JSON body is one for the call of its part. -/
theorem makes_of_isJson {hop : Hop} (hp : session.Settles (p.errand.call s a) p.hops p.answer)
    (hhop : hop ∈ p.hops) (h : hop.isJson = true) : (p.errand.call s a).Makes hop.request :=
  hp.makes hop hhop (not_isExchange_of_isJson h)

theorem exists_body {c : Call} {hop : Hop} (hmakes : c.Makes hop.request)
    (h : hop.isJson = true) : ∃ j, c.body = some j := by
  have hjson := of_decide_eq_true h
  rw [hmakes.contentType] at hjson
  obtain ⟨j, hj, -⟩ := Option.map_eq_some_iff.mp hjson
  exact ⟨j, hj⟩

/-- A part whose call has a body has a request with it, unless a failure of the session's own came
in between. -/
theorem exists_isJson {j : Json} (hp : session.Settles (p.errand.call s a) p.hops p.answer)
    (hj : (p.errand.call s a).body = some j) :
    (∃ hop ∈ p.hops, hop.isJson = true) ∨ ∃ e, p.answer = .error e ∧ Session.IsOwn e := by
  refine hp.exists_call.imp_left fun ⟨hop, hhop, hexchange⟩ => ⟨hop, hhop, ?_⟩
  rw [Hop.isJson, (hp.makes hop hhop hexchange).contentType, hj]
  rfl

theorem isFatal_of_isOwn {e : Failure} (h : Session.IsOwn e) (errand : Errand) :
    errand.isFatal (.error e) = true := by
  cases errand with
  | postBatch batch =>
    have hfailed : reception (.error e) = .failed := by
      unfold reception
      split
      · next heq => cases heq
      · next heq =>
        cases heq
        exact h.elim
      · rfl
    simp [Errand.isFatal, hfailed]
  | _ => rfl

/-- What the bodies of a part are read as. -/
theorem payload?_eq {j : Json} (hp : session.Settles (p.errand.call s a) p.hops p.answer)
    (hj : (p.errand.call s a).body = some j) (hread : Json.read (Json.write j) = .ok j) :
    p.payload? = some j ∨ p.payload? = none ∧ p.errand.isFatal p.answer = true := by
  cases hfind : p.hops.find? Hop.isJson with
  | some hop =>
    have hmakes := makes_of_isJson hp (List.mem_of_find?_eq_some hfind) (List.find?_some hfind)
    left
    simp [Part.payload?, hfind, hmakes.body, hj, hread, Except.toOption]
  | none =>
    refine .inr ⟨by simp [Part.payload?, hfind], ?_⟩
    rcases exists_isJson hp hj with ⟨hop, hhop, hjson⟩ | ⟨e, hanswer, hown⟩
    · exact absurd hjson (List.find?_eq_none.mp hfind hop hhop)
    · rw [hanswer]
      exact isFatal_of_isOwn hown _

theorem annotations_eq_nil (h : p.errand.batch? = none) : p.annotations = [] := by
  obtain ⟨e, answer, hops⟩ := p
  cases e with
  | postBatch batch => cases h
  | _ => rfl

/-- The body for a batch lists its annotations, if it was sent. -/
theorem annotations_eq (ha : a.Writable) {batch : List AnnotationPayload}
    (hp : session.Settles (p.errand.call s a) p.hops p.answer)
    (hbatch : p.errand.batch? = some batch) (hmem : batch ∈ batches s a) :
    p.annotations = batch.map AnnotationPayload.toJson ∨
      p.annotations = [] ∧ p.errand.isFatal p.answer = true := by
  obtain ⟨e, answer, hops⟩ := p
  cases e with
  | postBatch items =>
    obtain rfl := Option.some.inj hbatch
    have hbody : ((Errand.postBatch items).call s a).body =
        some (.array (items.map AnnotationPayload.toJson)) := rfl
    obtain ⟨hread, -⟩ := Errand.says_body ha (e := .postBatch items)
      (fun _ h => Option.some.inj h ▸ hmem) hbody
    rcases payload?_eq hp hbody hread with heq | ⟨heq, hfatal⟩
    · exact .inl (by simp [Part.annotations, heq])
    · exact .inr ⟨by simp [Part.annotations, heq], hfatal⟩
  | _ => cases hbatch

/-- The annotations of the parts for a course are those of its batches, in their order; the last
batch may be missing, if a failure of the session's own kept it from being sent. -/
theorem annotations_parts (ha : a.Writable) {errands : List Errand} {parts : List Part}
    (hcourse : (parts.map fun p => (p.errand, p.answer)) = untilFatal errands q)
    (hbatches : ∀ batch ∈ errands.filterMap Errand.batch?, batch ∈ batches s a)
    (hparts : ∀ p ∈ parts, session.Settles (p.errand.call s a) p.hops p.answer) :
    ∃ sent, sent <+: errands.filterMap Errand.batch? ∧
      parts.flatMap Part.annotations = sent.flatten.map AnnotationPayload.toJson := by
  induction errands generalizing q parts with
  | nil =>
    obtain rfl := List.map_eq_nil_iff.mp hcourse
    exact ⟨[], List.nil_prefix, rfl⟩
  | cons e errands ih =>
    rw [untilFatal] at hcourse
    obtain ⟨p, rest, rfl, hp, hrest⟩ := List.map_eq_cons_iff.mp hcourse
    obtain ⟨rfl, hanswer⟩ := Prod.mk.inj hp
    obtain ⟨hsettles, hparts⟩ := List.forall_mem_cons.mp hparts
    have hlast : p.errand.isFatal p.answer = true → rest = [] := by
      intro hfatal
      rw [← hanswer, if_pos hfatal] at hrest
      exact List.map_eq_nil_iff.mp hrest
    have hmore : ∀ batch ∈ errands.filterMap Errand.batch?, batch ∈ batches s a := by
      intro batch hmem
      refine hbatches batch ?_
      rw [List.filterMap_cons]
      split
      · exact hmem
      · exact .tail _ hmem
    have hnext : ∃ sent, sent <+: errands.filterMap Errand.batch? ∧
        rest.flatMap Part.annotations = sent.flatten.map AnnotationPayload.toJson := by
      cases hfatal : p.errand.isFatal p.answer with
      | true => exact ⟨[], List.nil_prefix, by rw [hlast hfatal]; rfl⟩
      | false =>
        rw [← hanswer, hfatal, if_neg Bool.false_ne_true] at hrest
        exact ih hrest hmore hparts
    obtain ⟨sent, hbegins, heq⟩ := hnext
    rw [List.flatMap_cons]
    cases hbatch : p.errand.batch? with
    | none =>
      rw [List.filterMap_cons_none hbatch, annotations_eq_nil hbatch]
      exact ⟨sent, hbegins, heq⟩
    | some batch =>
      rw [List.filterMap_cons_some hbatch] at hbatches ⊢
      rcases annotations_eq ha hsettles hbatch (hbatches batch (.head _)) with hp | ⟨hp, hfatal⟩
      · refine ⟨batch :: sent, List.cons_prefix_cons.mpr ⟨rfl, hbegins⟩, ?_⟩
        rw [hp, heq, List.flatten_cons, List.map_append]
      · refine ⟨[], List.nil_prefix, ?_⟩
        rw [hp, hlast hfatal]
        rfl

end Decoration

namespace Client

/-- The traffic of a decoration comes in parts, one for each errand of its course. -/
theorem exists_course_parts (c : Client) (approval : Bool) (a : Analysis) (w : Wire) :
    ∃ parts : List Part, c.traffic approval a w = parts.flatMap Part.hops ∧
      (parts.map fun p => (p.errand, p.answer)) =
        untilFatal (schedule c.setup approval a (parts.map Part.answer))
          (parts.map Part.answer) ∧
      ∀ p ∈ parts, ∃ before after,
        c.session.Handling (p.errand.call c.setup a) before p.hops p.answer after := by
  obtain ⟨said, hserves, -, hsaid, -⟩ := serves_decorate c approval a w
  rw [said_decorate] at hsaid
  rw [← hsaid] at hserves
  obtain ⟨parts, htraffic, hcourse, hparts⟩ := exists_handled hserves
  have hanswers : parts.map Part.answer = said.map Prod.snd := by
    have hfirst := congrArg (List.map Prod.snd) hcourse
    have hsecond := congrArg (List.map Prod.snd) hsaid
    rw [List.map_map] at hfirst hsecond
    exact hfirst.trans hsecond
  rw [← hanswers] at hcourse
  exact ⟨parts, htraffic, hcourse, hparts⟩

/-- The traffic of a decoration comes in parts, each for an errand of its schedule. -/
theorem exists_scheduled_parts (c : Client) (approval : Bool) (a : Analysis) (w : Wire) :
    ∃ (q : List Answer) (parts : List Part),
      c.traffic approval a w = parts.flatMap Part.hops ∧
      ∀ p ∈ parts, p.errand ∈ schedule c.setup approval a q ∧
        c.session.Settles (p.errand.call c.setup a) p.hops p.answer := by
  obtain ⟨parts, htraffic, hcourse, hparts⟩ := exists_course_parts c approval a w
  refine ⟨parts.map Part.answer, parts, htraffic, fun p hp => ⟨mem_of_course hcourse hp, ?_⟩⟩
  obtain ⟨before, after, hhandling⟩ := hparts p hp
  exact hhandling.settles

/-- Whatever analysis was loaded, and whatever the service answers, the bodies of a decoration are
ASCII and are read back as what they are to say; and the annotations in them are those of the first
findings, most severe first. -/
theorem faithful_decorate (c : Client) (approval : Bool) {room : Json.Room} {files : FileSystem}
    {path : Text} {a : Analysis} (hload : Analysis.load room files path = .ok a) (w : Wire) :
    ∃ parts, c.Faithful approval a w parts := by
  have ha := Analysis.writable_of_load hload
  obtain ⟨parts, htraffic, hcourse, hhandled⟩ := exists_course_parts c approval a w
  have hparts : ∀ p ∈ parts, c.session.Settles (p.errand.call c.setup a) p.hops p.answer := by
    intro p hp
    obtain ⟨before, after, hhandling⟩ := hhandled p hp
    exact hhandling.settles
  have hbatches : ∀ batch ∈ (schedule c.setup approval a (parts.map Part.answer)).filterMap
      Errand.batch?, batch ∈ batches c.setup a := fun batch h =>
    (batches_of_schedule _).subset h
  refine ⟨parts, htraffic, hcourse, ?_, ?_⟩
  · intro p hp hop hhop hjson
    have hmakes := makes_of_isJson (hparts p hp) hhop hjson
    have hbatch : ∀ batch, p.errand.batch? = some batch → batch ∈ batches c.setup a :=
      fun batch h => hbatches batch
        (List.mem_filterMap.mpr ⟨p.errand, mem_of_course hcourse hp, h⟩)
    obtain ⟨j, hj⟩ := exists_body hmakes hjson
    obtain ⟨hread, hsays⟩ := Errand.says_body ha hbatch hj
    refine ⟨hmakes, Json.write j, j, ?_, Json.isAscii_write j, hread, hsays⟩
    rw [hmakes.body, hj]
    rfl
  · obtain ⟨sent, hbegins, hannotations⟩ := annotations_parts ha hcourse hbatches hparts
    have hsent := List.prefix_iff_eq_take.mp (hbegins.trans (batches_of_schedule _))
    obtain ⟨count, hcount⟩ := flatten_take_batches (s := c.setup) (a := a) sent.length
    rw [hannotations, hsent, hcount, List.map_map]
    exact ⟨count, rfl, Finding.mapM_ofAnnotation? _⟩

end Client

namespace Decoration.Sample

/-- A document with a finding whose message is not all ASCII. -/
def document : Text :=
  "\x7b\"project_key\": \"project\", \"commit_sha\": \"abc123\", \"pull_request_id\": 7, " ++
    "\"quality_gate_status\": \"ERROR\", \"analysis_date\": \"2024-05-01T10:00:00\", " ++
    "\"dashboard_url\": \"https://sonar.example.com/dashboard\", \"coverage\": 87.5, " ++
    "\"annotations\": [\x7b\"external_id\": \"issue-0\", \"path\": \"src/app.py\", " ++
    "\"line\": 3, \"message\": \"Größe \\ud83d\\ude00\", \"severity\": \"LOW\", " ++
    "\"type\": \"BUG\"\x7d]\x7d"

def directory : Directory := ⟨["work"], [("analysis.json", .octets (Text.utf8 document))]⟩

theorem load_document : ∃ a,
    Analysis.load .usual directory.system "analysis.json" = .ok a := by
  have hload : (Analysis.load .usual directory.system "analysis.json").toOption.isSome = true := by
    decide +kernel
  cases hresult : Analysis.load .usual directory.system "analysis.json" with
  | ok a => exact ⟨a, rfl⟩
  | error e =>
    rw [hresult] at hload
    cases hload

end Decoration.Sample

namespace Client

theorem faithful_decorate_sample : ∃ a parts,
    Analysis.load .usual Sample.directory.system "analysis.json" = .ok a ∧
      Sample.client.Faithful false a { replies := [.ok (Sample.response 404),
        .ok (Sample.response 200), .ok (Sample.response 201), .ok Sample.emptyArray] } parts := by
  obtain ⟨a, hload⟩ := Sample.load_document
  obtain ⟨parts, hfaithful⟩ := faithful_decorate Sample.client false hload _
  exact ⟨a, parts, hload, hfaithful⟩

end Client

end PullGate
