import PullGate.Proofs.Comment.Published
import PullGate.Proofs.Decoration.Fidelity

/-! The verdict on an analysis, in the places where it is published.  A decoration that comes to its
end has sent the report, the approval or its withdrawal, and the summary comment; what these say of
the quality gate agrees, whatever the service answered on the way. -/

namespace PullGate

open Decoration

/-! ### What is published -/

/-- The requests of a decoration, exchanges apart, by what they are for. A request that is
challenged is sent again, so there may be several that are for the same. -/
structure Publication where
  clearance : List Http.Request
  report : List Http.Request
  annotations : List Http.Request
  approval : List Http.Request
  search : List Http.Request
  comment : List Http.Request

namespace Publication

def requests (p : Publication) : List Http.Request :=
  p.clearance ++ p.report ++ p.annotations ++ p.approval ++ p.search ++ p.comment

/-- These are the requests of a client for an analysis, and none of the places for a verdict is left
out. -/
structure IsOf (p : Publication) (c : Client) (a : Analysis) : Prop where
  clearance : ∀ r ∈ p.clearance, (Errand.clearReport.call c.setup a).Makes r
  report : ∀ r ∈ p.report, (Errand.putReport.call c.setup a).Makes r
  annotations : ∀ r ∈ p.annotations, ∃ batch ∈ batches c.setup a,
    ((Errand.postBatch batch).call c.setup a).Makes r
  approval : ∀ r ∈ p.approval, ∃ e ∈ settlement true a, (e.call c.setup a).Makes r
  search : ∀ r ∈ p.search, (Errand.findComment.call c.setup a).Makes r
  comment : ∀ r ∈ p.comment, ∃ found, ((Errand.writeComment found).call c.setup a).Makes r
  complete : p.report ≠ [] ∧ p.approval ≠ [] ∧ p.comment ≠ []

end Publication

/-- The text under a key of the object in the body of a request. -/
def Http.Request.text? (r : Http.Request) (key : Text) : Option Text := do
  let body ← r.body
  let j ← (Json.read body).toOption
  j.text? key

def Text.firstLine (t : Text) : Text := t.takeWhile (· ≠ .scalar '\n')

/-- A request writes a comment that opens like this. -/
def Comment.Opens (r : Http.Request) (opening : Text) : Prop :=
  ∃ text, raw? r = some text ∧ opening <+: text

/-- What is published agrees with the verdict on the analysis, and so with each other. -/
structure Publication.Agrees (p : Publication) (a : Analysis) : Prop where
  result : ∀ r ∈ p.report, r.text? "result" = some "PASSED" ↔ a.gate = .ok
  details : ∀ r ∈ p.report,
    (r.text? "details").map Text.firstLine = some "Quality Gate passed" ↔ a.gate = .ok
  approval : ∀ r ∈ p.approval,
    (r.method = "POST" ↔ a.gate = .ok) ∧ (r.method = "DELETE" ↔ a.gate ≠ .ok)
  severe : ∀ r ∈ p.comment, Comment.Opens r "SonarQube analysis reports severe issues." ↔
    a.gate ≠ .ok ∧ a.hasIssues = true
  minor : ∀ r ∈ p.comment, Comment.Opens r "SonarQube analysis reports minor issues." ↔
    a.gate = .ok ∧ a.hasIssues = true
  clean : ∀ r ∈ p.comment, Comment.Opens r "SonarQube analysis reports no issues." ↔
    a.hasIssues = false
  annotated : p.annotations ≠ [] → ∀ r ∈ p.comment,
    ¬Comment.Opens r "SonarQube analysis reports no issues." ∧
      ∃ text, Comment.raw? r = some text ∧
        ∀ r' ∈ p.report, ∃ link, r'.text? "link" = some link ∧ link <:+: text

/-! ### What the texts say -/

theorem Gate.passed_iff {gate : Gate} : gate.passed = true ↔ gate = .ok := by
  cases gate <;> simp [passed]

namespace Report

theorem firstLine_description (a : Analysis) :
    (description a).firstLine = verdict a.gate := by
  have hverdict : ∀ c ∈ verdict a.gate, decide (c ≠ .scalar '\n') = true := by
    cases a.gate <;> decide
  unfold description describe Text.firstLine
  rw [List.append_assoc, List.takeWhile_append_of_pos hverdict]
  exact List.append_nil _

theorem verdict_eq_passed_iff {gate : Gate} :
    verdict gate = "Quality Gate passed" ↔ gate = .ok := by
  cases gate <;> decide

end Report

namespace Comment

variable {a : Analysis}

/-- The first sentence of a comment that speaks of issues of this degree. -/
def opening (degree : Text) : Text := marker ++ " " ++ degree ++ " issues."

def degrees : List Text := ["no", "minor", "severe"]

theorem degree_mem (a : Analysis) : degree a ∈ degrees := by
  unfold degree
  split
  · decide
  · split <;> decide

theorem opening_prefix_text (a : Analysis) : opening (degree a) <+: text a := by
  have hspace : Text.ofString " issues. " = Text.ofString " issues." ++ Text.ofString " " := rfl
  unfold text
  dsimp only
  rw [hspace, ← List.append_assoc, List.append_assoc _ (Text.ofString " ")]
  exact List.prefix_append _ _

theorem eq_of_opening_prefix_opening :
    ∀ d ∈ degrees, ∀ d' ∈ degrees, opening d <+: opening d' → d = d' := by
  decide +kernel

/-- No text begins with two of the openings. -/
theorem eq_of_opening_prefix {t d d' : Text} (hd : d ∈ degrees) (hd' : d' ∈ degrees)
    (h : opening d <+: t) (h' : opening d' <+: t) : d = d' := by
  rcases List.prefix_or_prefix_of_prefix h h' with h | h
  · exact eq_of_opening_prefix_opening d hd d' hd' h
  · exact (eq_of_opening_prefix_opening d' hd' d hd h).symm

theorem opening_prefix_iff {d : Text} (hd : d ∈ degrees) :
    opening d <+: text a ↔ degree a = d := by
  constructor
  · intro h
    exact eq_of_opening_prefix (degree_mem a) hd (opening_prefix_text a) h
  · rintro rfl
    exact opening_prefix_text a

theorem degree_eq_severe_iff : degree a = "severe" ↔ a.gate ≠ .ok ∧ a.hasIssues = true := by
  rw [ne_eq, ← Gate.passed_iff]
  unfold degree Analysis.passed
  cases a.hasIssues <;> cases a.gate.passed <;> decide

theorem degree_eq_minor_iff : degree a = "minor" ↔ a.gate = .ok ∧ a.hasIssues = true := by
  rw [← Gate.passed_iff]
  unfold degree Analysis.passed
  cases a.hasIssues <;> cases a.gate.passed <;> decide

theorem degree_eq_no_iff : degree a = "no" ↔ a.hasIssues = false := by
  unfold degree Analysis.passed
  cases a.hasIssues <;> cases a.gate.passed <;> decide

theorem dashboardUrl_infix_text (h : a.hasIssues = true) : a.dashboardUrl <:+: text a := by
  unfold text
  dsimp only
  rw [if_pos h]
  exact (List.infix_append _ _ _).trans (List.suffix_append _ _).isInfix

end Comment

/-! ### What the requests say -/

namespace Publication.IsOf

variable {p : Publication} {c : Client} {a : Analysis} {r : Http.Request}

theorem text?_report (h : p.IsOf c a) (ha : a.Writable) (hr : r ∈ p.report) (key : Text) :
    r.text? key = (ReportPayload.ofAnalysis a).toJson.text? key := by
  have hbody : r.body = some (Json.write (ReportPayload.ofAnalysis a).toJson) :=
    (h.report r hr).body
  unfold Http.Request.text?
  rw [hbody, Option.bind_eq_bind, Option.bind_some, (ha.faithful_report 986).read_write]
  rfl

theorem raw?_comment (h : p.IsOf c a) (ha : a.Writable) (hr : r ∈ p.comment) :
    Comment.raw? r = some (Comment.text a) := by
  obtain ⟨found, hmakes⟩ := h.comment r hr
  have hwrites : (c.writeCall c.configuration.target a.pullRequest found
      (Comment.text a)).Makes r := hmakes
  rw [← ha.stored_comment]
  exact Client.raw?_of_makes hwrites

theorem opens_comment_iff (h : p.IsOf c a) (ha : a.Writable) (hr : r ∈ p.comment) {d : Text}
    (hd : d ∈ Comment.degrees) : Comment.Opens r (Comment.opening d) ↔ Comment.degree a = d := by
  rw [← Comment.opening_prefix_iff hd, Comment.Opens, h.raw?_comment ha hr]
  simp

theorem method_approval (h : p.IsOf c a) (hr : r ∈ p.approval) :
    r.method = if a.passed then "POST" else "DELETE" := by
  obtain ⟨e, he, hmakes⟩ := h.approval r hr
  rw [settlement, if_pos rfl, List.mem_singleton] at he
  rw [hmakes.method, he]
  cases a.passed <;> rfl

/-- Annotations are only sent for findings. -/
theorem hasIssues (h : p.IsOf c a) (hannotated : p.annotations ≠ []) : a.hasIssues = true := by
  obtain ⟨r, hr⟩ := List.exists_mem_of_ne_nil _ hannotated
  obtain ⟨batch, hbatch, -⟩ := h.annotations r hr
  obtain ⟨payload, hpayload⟩ :=
    List.exists_mem_of_ne_nil _ (ne_nil_of_mem_cut (List.mem_of_mem_take hbatch))
  obtain ⟨f, hf, -⟩ := ofFinding_of_mem_batches hbatch hpayload
  have hne : a.annotations ≠ [] := List.ne_nil_of_mem hf
  simp [Analysis.hasIssues, hne]

theorem agrees (h : p.IsOf c a) (ha : a.Writable) : p.Agrees a where
  result r hr := by
    rw [h.text?_report ha hr, Json.text?, (Report.says_toJson a).result, ← Gate.passed_iff,
      Analysis.passed]
    cases a.gate.passed <;> decide
  details r hr := by
    rw [h.text?_report ha hr, Json.text?, (Report.says_toJson a).details]
    simp [Report.firstLine_description, Report.verdict_eq_passed_iff]
  approval r hr := by
    rw [h.method_approval hr, ne_eq, ← Gate.passed_iff, Analysis.passed]
    cases a.gate.passed <;> decide
  severe r hr :=
    (h.opens_comment_iff ha hr (d := "severe") (by decide)).trans Comment.degree_eq_severe_iff
  minor r hr :=
    (h.opens_comment_iff ha hr (d := "minor") (by decide)).trans Comment.degree_eq_minor_iff
  clean r hr :=
    (h.opens_comment_iff ha hr (d := "no") (by decide)).trans Comment.degree_eq_no_iff
  annotated hannotated r hr := by
    have hissues := h.hasIssues hannotated
    refine ⟨fun hopens => ?_, Comment.text a, h.raw?_comment ha hr, fun r' hr' => ?_⟩
    · have hclean := (h.opens_comment_iff ha hr (d := "no") (by decide)).mp hopens
      rw [Comment.degree_eq_no_iff, hissues] at hclean
      cases hclean
    · refine ⟨a.dashboardUrl, ?_, Comment.dashboardUrl_infix_text hissues⟩
      rw [h.text?_report ha hr', Json.text?, (Report.says_toJson a).link]

end Publication.IsOf

/-! ### Decorations that come to their end -/

/-- The requests of a part, exchanges apart. -/
def Part.requests (session : Session) (p : Part) : List Http.Request :=
  (p.hops.filter fun hop => !session.isExchange hop).map Hop.request

namespace Decoration

variable {s : Setup} {a : Analysis} {session : Session} {p : Part} {r : Http.Request}
  {errands second : List Errand} {requests : List Http.Request}

/-- Errands are performed one after the other, each by one request or more. -/
inductive Performs (s : Setup) (a : Analysis) : List Errand → List Http.Request → Prop
  | nil : Performs s a [] []
  | cons {e : Errand} {own requests : List Http.Request} {errands : List Errand} (hne : own ≠ [])
    (hmakes : ∀ r ∈ own, (e.call s a).Makes r) (h : Performs s a errands requests) :
    Performs s a (e :: errands) (own ++ requests)

namespace Performs

theorem append_inv (first : List Errand) (h : Performs s a (first ++ second) requests) :
    ∃ before after, requests = before ++ after ∧ Performs s a first before ∧
      Performs s a second after := by
  induction first generalizing requests with
  | nil => exact ⟨[], requests, rfl, .nil, h⟩
  | cons e first ih =>
    cases h with
    | cons hne hmakes h =>
      obtain ⟨before, after, rfl, hbefore, hafter⟩ := ih h
      exact ⟨_, after, (List.append_assoc _ _ _).symm, .cons hne hmakes hbefore, hafter⟩

theorem makes (h : Performs s a errands requests) :
    ∀ r ∈ requests, ∃ e ∈ errands, (e.call s a).Makes r := by
  induction h with
  | nil => exact List.forall_mem_nil _
  | cons hne hmakes h ih =>
    refine List.forall_mem_append.mpr ⟨fun r hr => ⟨_, .head _, hmakes r hr⟩, fun r hr => ?_⟩
    obtain ⟨e, he, hr⟩ := ih r hr
    exact ⟨e, .tail _ he, hr⟩

theorem makes_of_singleton {e : Errand} (h : Performs s a [e] requests) :
    ∀ r ∈ requests, (e.call s a).Makes r := by
  simpa using h.makes

theorem ne_nil (h : Performs s a errands requests) (hne : errands ≠ []) : requests ≠ [] := by
  cases h with
  | nil => exact absurd rfl hne
  | cons hown _ _ => exact List.append_ne_nil_of_left_ne_nil hown _

end Performs

/-- An errand that goes well has sent a request. -/
theorem requests_ne_nil (hp : session.Settles (p.errand.call s a) p.hops p.answer)
    (hwell : p.errand.isFatal p.answer = false) : p.requests session ≠ [] := by
  rcases hp.exists_call with ⟨hop, hhop, hexchange⟩ | ⟨e, hanswer, hown⟩
  · have hrequest : hop.request ∈ p.requests session :=
      List.mem_map_of_mem (List.mem_filter.mpr ⟨hhop, by rw [hexchange]; rfl⟩)
    exact List.ne_nil_of_mem hrequest
  · rw [hanswer, isFatal_of_isOwn hown] at hwell
    cases hwell

/-- Parts that go well perform their errands. -/
theorem performs_of_parts {parts : List Part}
    (h : ∀ p ∈ parts, session.Settles (p.errand.call s a) p.hops p.answer ∧
      p.errand.isFatal p.answer = false) :
    Performs s a (parts.map Part.errand) (parts.flatMap (Part.requests session)) := by
  induction parts with
  | nil => exact .nil
  | cons p parts ih =>
    obtain ⟨⟨hsettles, hwell⟩, hparts⟩ := List.forall_mem_cons.mp h
    refine .cons (requests_ne_nil hsettles hwell) (fun r hr => ?_) (ih hparts)
    obtain ⟨hop, hhop, rfl⟩ := List.mem_map.mp hr
    obtain ⟨hmem, hexchange⟩ := List.mem_filter.mp hhop
    exact hsettles.makes hop hmem (by simpa using hexchange)

theorem exists_batch_of_mem_posts {room : List (List AnnotationPayload)} {q : List Answer}
    {e : Errand} (h : e ∈ posts room q) : ∃ batch ∈ room, .postBatch batch = e := by
  obtain ⟨x, hx, rfl⟩ := List.mem_map.mp h
  exact ⟨x.1, mem_of_mem_exchanges hx, rfl⟩

end Decoration

namespace Client

variable {c : Client} {approval : Bool} {a : Analysis} {w : Wire} {upload : Upload}

/-- The requests of a decoration, exchanges apart. -/
def requests (c : Client) (approval : Bool) (a : Analysis) (w : Wire) : List Http.Request :=
  ((c.traffic approval a w).filter fun hop => !c.session.isExchange hop).map Hop.request

/-- A decoration that comes to its end has performed the errands of its schedule. -/
theorem performs_decorate (h : (c.decorate approval a w).1 = .ok (.decorated upload)) :
    ∃ q, Performs c.setup a (schedule c.setup approval a q) (c.requests approval a w) := by
  obtain ⟨q, upload', hserves, hvalue⟩ := exists_conclusion c approval a w
  have hwell : AllWell (untilFatal (schedule c.setup approval a q) q) :=
    allWell_iff.mpr (eq_none_of_conclusion (hvalue.symm.trans h))
  obtain ⟨parts, htraffic, hcourse, hparts⟩ := exists_parts hserves
  have herrands : parts.map Part.errand = schedule c.setup approval a q := by
    rw [← map_fst_untilFatal_of_allWell hwell, ← hcourse, List.map_map]
    rfl
  have hrequests : c.requests approval a w = parts.flatMap (Part.requests c.session) := by
    rw [requests, htraffic, List.filter_flatMap, List.map_flatMap]
    rfl
  refine ⟨q, ?_⟩
  rw [← herrands, hrequests]
  refine performs_of_parts fun p hp => ⟨hparts p hp, hwell (p.errand, p.answer) ?_⟩
  rw [← hcourse]
  exact List.mem_map_of_mem hp

/-- The requests of a decoration that comes to its end are a publication of the analysis. -/
theorem exists_publication (h : (c.decorate true a w).1 = .ok (.decorated upload)) :
    ∃ p : Publication, c.requests true a w = p.requests ∧ p.IsOf c a := by
  obtain ⟨q, hperforms⟩ := performs_decorate h
  rw [schedule_eq] at hperforms
  obtain ⟨front, rest, hrequests, hfront, hrest⟩ := hperforms.append_inv _
  obtain ⟨clearance, report, rfl, hclearance, hreport⟩ := hfront.append_inv [_]
  obtain ⟨annotations, rest, rfl, hannotations, hrest⟩ := hrest.append_inv _
  obtain ⟨approval, rest, rfl, happroval, hrest⟩ := hrest.append_inv _
  obtain ⟨search, comment, rfl, hsearch, hcomment⟩ := hrest.append_inv [_]
  refine ⟨⟨clearance, report, annotations, approval, search, comment⟩, ?_, ?_⟩
  · simpa [Publication.requests] using hrequests
  · refine ⟨hclearance.makes_of_singleton, hreport.makes_of_singleton, fun r hr => ?_,
      happroval.makes, hsearch.makes_of_singleton,
      fun r hr => ⟨_, hcomment.makes_of_singleton r hr⟩,
      hreport.ne_nil (List.cons_ne_nil _ _), happroval.ne_nil (List.cons_ne_nil _ _),
      hcomment.ne_nil (List.cons_ne_nil _ _)⟩
    obtain ⟨e, he, hmakes⟩ := hannotations.makes r hr
    obtain ⟨batch, hbatch, rfl⟩ := exists_batch_of_mem_posts he
    exact ⟨batch, hbatch, hmakes⟩

/-- Whatever analysis was loaded: a decoration of it that comes to its end has published one verdict
in all places. -/
theorem agrees_decorate (c : Client) {room : Json.Room} {files : FileSystem} {path : Text}
    {a : Analysis} (hload : Analysis.load room files path = .ok a) (w : Wire)
    (h : (c.decorate true a w).1 = .ok (.decorated upload)) :
    ∃ p : Publication, c.requests true a w = p.requests ∧ p.IsOf c a ∧ p.Agrees a := by
  obtain ⟨p, hrequests, hp⟩ := exists_publication h
  exact ⟨p, hrequests, hp, hp.agrees (Analysis.writable_of_load hload)⟩

end Client

namespace Decoration.Sample

/-- An answer to the search that lists no comment. -/
def unlisted : Http.Response :=
  ⟨200, "OK", some "utf-8", Text.utf8 "\x7b\"values\": []\x7d", {}⟩

/-- Replies on which a decoration with one batch comes to its end. -/
def success : Wire where
  replies := [.ok (response 404), .ok (response 200), .ok (response 201), .ok (response 204),
    .ok unlisted, .ok (response 201)]

end Decoration.Sample

namespace Client

/-- An analysis of a gate that failed, with one finding. -/
theorem agrees_decorate_sample : ∃ a upload,
    Analysis.load .usual Sample.directory.system "analysis.json" = .ok a ∧
      (Sample.client.decorate true a Sample.success).1 = .ok (.decorated upload) ∧
      ∃ p : Publication, Sample.client.requests true a Sample.success = p.requests ∧
        p.IsOf Sample.client a ∧ p.Agrees a := by
  have hdecorated : (Analysis.load .usual Sample.directory.system
      "analysis.json").toOption.any (fun a =>
        (Sample.client.decorate true a Sample.success).1.toOption.any Outcome.isDecorated) =
      true := by
    decide +kernel
  cases hload : Analysis.load .usual Sample.directory.system "analysis.json" with
  | error e =>
    rw [hload] at hdecorated
    cases hdecorated
  | ok a =>
    simp only [hload, Except.toOption, Option.any_some] at hdecorated
    cases hresult : (Sample.client.decorate true a Sample.success).1 with
    | error cause => simp [hresult] at hdecorated
    | ok outcome =>
      simp only [hresult, Option.any_some] at hdecorated
      cases outcome with
      | decorated upload => exact ⟨a, upload, rfl, hresult, agrees_decorate _ hload _ hresult⟩
      | skipped | stopped => cases hdecorated

end Client

end PullGate
