import PullGate.Proofs.Address.Origin
import PullGate.Proofs.Decoration.Fidelity
import PullGate.Proofs.Text.Digits

/-! Where the requests of a decoration go.  All of them lie behind the repository of the client, as
long as the commit of the analysis, and the comment that was found, do not go back out of it; and if
the commit is a plain path of its own, those for the report have the addresses of its report. -/

namespace PullGate

open Decoration

/-- A repository in the addresses of its service, version apart. -/
def Repository.directory (r : Repository) : Text := "repositories/" ++ r.project ++ "/" ++ r.name

/-- The path of a repository on its service. -/
def Repository.path (r : Repository) : Text := "/2.0/" ++ r.directory

/-- The commit of an analysis has neither query nor fragment, and no dot segments, not even when it
is sent. -/
structure Analysis.IsDirect (a : Analysis) : Prop where
  unmarked : Url.Unmarked a.commit
  dotFree : Url.DotFree a.commit
  sentDotFree : ∀ decodes, Url.DotFree (Url.sentAs decodes a.commit)

namespace Decoration.Errand

/-- What an errand addresses in the repository. -/
def place (a : Analysis) : Errand → Text
  | .clearReport | .putReport => "commit/" ++ a.commit ++ "/reports/sonarqube-analysis"
  | .postBatch _ => "commit/" ++ a.commit ++ "/reports/sonarqube-analysis/annotations"
  | .approve | .unapprove => "pullrequests/" ++ Text.ofInt a.pullRequest ++ "/approve"
  | .findComment | .writeComment none => "pullrequests/" ++ Text.ofInt a.pullRequest ++ "/comments"
  | .writeComment (some comment) =>
    "pullrequests/" ++ Text.ofInt a.pullRequest ++ "/comments/" ++ comment

/-- What an errand addresses of the commit, if that is what it is for. -/
def ofCommit? : Errand → Option Text
  | .clearReport | .putReport => some "reports/sonarqube-analysis"
  | .postBatch _ => some "reports/sonarqube-analysis/annotations"
  | _ => none

/-- Neither the commit nor the comment that was found goes back past what the errand puts in front
of it. -/
def Inside (a : Analysis) : Errand → Prop
  | .clearReport | .putReport | .postBatch _ =>
    Url.stays 1 (Text.split '/' (Url.strip a.commit)) = true
  | .writeComment (some comment) => Url.stays 3 (Text.split '/' (Url.strip comment)) = true
  | .approve | .unapprove | .findComment | .writeComment none => True

variable {s : Setup} {a : Analysis} {e : Errand}

theorem resource_eq (s : Setup) (a : Analysis) (e : Errand) :
    e.resource s a = s.repository.directory ++ CodePoint.scalar '/' :: e.place a := by
  cases e with
  | writeComment found =>
    cases found <;> simp [resource, place, Repository.directory, Text.ofString]
  | _ => simp [resource, place, Repository.directory, Client.reportKey, Text.ofString]

end Decoration.Errand

theorem Text.isPlainName_ofInt (n : Int) : (Text.ofInt n).IsPlainName := by
  have hdigits : ∀ n : Nat, (Text.ofNat n).IsPlainName := by
    intro n
    refine ⟨Text.ofNat_ne_nil n, fun c hc => ?_⟩
    simp [List.all_eq_true.mp (Text.all_isDigit_ofNat n) c hc]
  cases n with
  | ofNat n => exact hdigits n
  | negSucc n =>
    refine ⟨List.cons_ne_nil _ _, List.forall_mem_cons.mpr ⟨by decide, (hdigits (n + 1)).2⟩⟩

namespace Repository

variable {r : Repository}

/-- The names of a repository stand for themselves in addresses. -/
structure IsPlain (r : Repository) : Prop where
  project : r.project.IsPlainName
  name : r.name.IsPlainName

theorem IsPlain.isPath (h : r.IsPlain) : ∀ c ∈ r.directory, Percent.isPath c = true := by
  have hfront : ∀ c ∈ Text.ofString "repositories/", Percent.isPath c = true := by decide
  unfold directory
  refine List.forall_mem_append.mpr ⟨List.forall_mem_append.mpr
    ⟨List.forall_mem_append.mpr ⟨hfront, h.project.isPath⟩, by decide⟩, h.name.isPath⟩

theorem IsPlain.dotFree (h : r.IsPlain) : Url.DotFree r.directory := by
  have hfront : Url.DotFree (Text.ofString "repositories") := by decide
  have hproject := Url.dotFree_append.mpr ⟨hfront, h.project.dotFree⟩
  simpa [directory, Text.ofString] using Url.dotFree_append.mpr ⟨hproject, h.name.dotFree⟩

end Repository

/-- What there is of a pull request, behind its number. -/
def ofPullRequest (id : Int) (part : Text) : Text :=
  Text.ofString "pullrequests" ++ CodePoint.scalar '/' ::
    (Text.ofInt id ++ CodePoint.scalar '/' :: part)

theorem ofPullRequest_unmarked {id : Int} {part : Text} (h : Url.Unmarked part) :
    Url.Unmarked (ofPullRequest id part) := by
  have hnumber := Url.unmarked_of_isPath (Text.isPlainName_ofInt id).isPath
  have hpart := hnumber.append (Url.unmarked_slash.append h)
  exact Url.Unmarked.append ⟨by decide, by decide⟩ (Url.unmarked_slash.append hpart)

theorem ofPullRequest_dotFree {id : Int} {part : Text} (h : Url.DotFree part) :
    Url.DotFree (ofPullRequest id part) := by
  have hfront : Url.DotFree (Text.ofString "pullrequests") := by decide
  have hnumber := (Text.isPlainName_ofInt id).dotFree
  exact Url.dotFree_append.mpr ⟨hfront, Url.dotFree_append.mpr ⟨hnumber, h⟩⟩

theorem length_split_ofPullRequest (id : Int) (part : Text) :
    (Text.split '/' (ofPullRequest id part)).length = 2 + (Text.split '/' part).length := by
  have hnumber := (Text.isPlainName_ofInt id).not_mem (c := '/') (by decide)
  unfold ofPullRequest
  rw [Text.split_append_sep, Text.split_append_sep, Text.split_of_not_mem hnumber,
    List.length_append, List.length_append]
  show 1 + (1 + _) = _
  omega

namespace Decoration.Errand

variable {a : Analysis} {e : Errand}

theorem place_of_commit {report : Text} (h : e.ofCommit? = some report) :
    e.place a = Text.ofString "commit" ++ CodePoint.scalar '/' ::
        (a.commit ++ CodePoint.scalar '/' :: report) ∧
      (∀ c ∈ report, Percent.isPath c = true) ∧ Url.DotFree report := by
  have hreport : Url.DotFree (Text.ofString "reports/sonarqube-analysis") := by decide
  have hannotations : Url.DotFree (Text.ofString "reports/sonarqube-analysis/annotations") := by
    decide
  cases e with
  | clearReport | putReport =>
    obtain rfl := Option.some.inj h
    exact ⟨by simp [place, Text.ofString], by decide, hreport⟩
  | postBatch batch =>
    obtain rfl := Option.some.inj h
    exact ⟨by simp [place, Text.ofString], by decide, hannotations⟩
  | _ => cases h

theorem query_of_commit {s : Setup} {report : Text} (h : e.ofCommit? = some report) :
    (e.call s a).query = [] := by
  cases e with
  | clearReport | putReport | postBatch _ => rfl
  | _ => cases h

/-- An errand that does not go back out of the repository goes on behind it. -/
theorem stays_place (h : e.Inside a) :
    Url.stays 0 (Text.split '/' (Url.strip (e.place a))) = true := by
  have hcommit : ∀ {report : Text}, e.ofCommit? = some report →
      Url.stays 1 (Text.split '/' (Url.strip a.commit)) = true →
      Url.stays 0 (Text.split '/' (Url.strip (e.place a))) = true := by
    intro report he hstays
    obtain ⟨heq, hplain, hdots⟩ := place_of_commit (a := a) he
    rw [heq]
    exact Url.stays_behind ⟨by decide, by decide⟩ (by decide)
      (Url.stays_strip_append hstays (Url.unmarked_of_isPath hplain) hdots)
  have hpullRequest : ∀ {part : Text}, e.place a = ofPullRequest a.pullRequest part →
      Url.Unmarked part → Url.DotFree part →
      Url.stays 0 (Text.split '/' (Url.strip (e.place a))) = true := by
    intro part heq hmarks hdots
    rw [heq, Url.strip_unmarked (ofPullRequest_unmarked hmarks)]
    exact Url.stays_dotFree (ofPullRequest_dotFree hdots)
  have happrove : Url.DotFree (Text.ofString "approve") := by decide
  have hcomments : Url.DotFree (Text.ofString "comments") := by decide
  cases e with
  | clearReport | putReport | postBatch _ => exact hcommit rfl h
  | approve | unapprove =>
    refine hpullRequest ?_ ⟨by decide, by decide⟩ happrove
    simp [place, ofPullRequest, Text.ofString]
  | findComment =>
    refine hpullRequest ?_ ⟨by decide, by decide⟩ hcomments
    simp [place, ofPullRequest, Text.ofString]
  | writeComment found =>
    cases found with
    | none =>
      refine hpullRequest ?_ ⟨by decide, by decide⟩ hcomments
      simp [place, ofPullRequest, Text.ofString]
    | some comment =>
      have heq : (Errand.writeComment (some comment)).place a =
          ofPullRequest a.pullRequest "comments" ++ CodePoint.scalar '/' :: comment := by
        simp [place, ofPullRequest, Text.ofString]
      rw [heq]
      refine Url.stays_behind (ofPullRequest_unmarked ⟨by decide, by decide⟩)
        (ofPullRequest_dotFree hcomments) ?_
      rw [length_split_ofPullRequest]
      exact h

/-- Where an errand for a direct commit is sent to. -/
theorem sentAs_place (decodes : Bool) (ha : a.IsDirect) {report : Text}
    (he : e.ofCommit? = some report) : Url.Unmarked (e.place a) ∧ Url.DotFree (e.place a) ∧
      Url.sentAs decodes (e.place a) = Text.ofString "commit" ++ CodePoint.scalar '/' ::
        (Url.sentAs decodes a.commit ++ CodePoint.scalar '/' :: report) ∧
      Url.DotFree (Url.sentAs decodes (e.place a)) := by
  have hcommit : Url.DotFree (Text.ofString "commit") := by decide
  have hslash : ∀ c ∈ Text.ofString "commit/", Percent.isPath c = true := by decide
  obtain ⟨heq, hplain, hdots⟩ := place_of_commit (a := a) he
  have hsent : Url.sentAs decodes (e.place a) = Text.ofString "commit" ++ CodePoint.scalar '/' ::
      (Url.sentAs decodes a.commit ++ CodePoint.scalar '/' :: report) := by
    have hleft := Url.sentAs_append_left decodes hslash
      (a.commit ++ CodePoint.scalar '/' :: report)
    rw [Url.sentAs_append_slash _ hplain] at hleft
    rw [heq]
    exact hleft
  have hmarks := ha.unmarked.append (Url.unmarked_slash.append (Url.unmarked_of_isPath hplain))
  refine ⟨?_, ?_, hsent, ?_⟩
  · rw [heq]
    exact Url.Unmarked.append ⟨by decide, by decide⟩ (Url.unmarked_slash.append hmarks)
  · rw [heq]
    exact Url.dotFree_append.mpr ⟨hcommit, Url.dotFree_append.mpr ⟨ha.dotFree, hdots⟩⟩
  · rw [hsent]
    exact Url.dotFree_append.mpr
      ⟨hcommit, Url.dotFree_append.mpr ⟨ha.sentDotFree decodes, hdots⟩⟩

end Decoration.Errand

/-! ### A decoration in parts -/

/-- A decoration in parts, one for each errand, none of which leaves the repository. -/
structure Client.Confined (c : Client) (approval : Bool) (a : Analysis) (w : Wire)
    (parts : List Part) : Prop where
  traffic : c.traffic approval a w = parts.flatMap Part.hops
  course : (parts.map fun p => (p.errand, p.answer)) =
    untilFatal (schedule c.setup approval a (parts.map Part.answer)) (parts.map Part.answer)
  within : ∀ p ∈ parts, p.errand.Inside a → ∀ hop ∈ p.hops, c.session.isExchange hop = false →
    c.configuration.target.path ++ Text.ofString "/" <+: Url.path hop.request.url
  reports : a.IsDirect → ∃ decodes, ∀ p ∈ parts, ∀ report, p.errand.ofCommit? = some report →
    ∀ hop ∈ p.hops, c.session.isExchange hop = false →
      Url.path hop.request.url = c.configuration.target.path ++ "/commit/" ++
          Url.sentAs decodes a.commit ++ "/" ++ report ∧
        Url.DotFree (Url.path hop.request.url) ∧ Url.query? hop.request.url = none

namespace Client

/-- Whatever the service answers, a decoration with a client of an origin stays in its repository,
unless the commit or the comment that was found goes back out of it. -/
theorem confined_decorate (c : Client) (approval : Bool) (a : Analysis)
    (horigin : Url.IsOrigin c.configuration.url) (hplain : c.configuration.target.IsPlain)
    (w : Wire) : ∃ parts, c.Confined approval a w parts := by
  obtain ⟨parts, htraffic, hcourse, hparts⟩ := exists_course_parts c approval a w
  obtain ⟨decodes, -, hall⟩ := Url.exists_pathUnder horigin.unmarked
  -- each request is one for the resource of its errand
  have hpath : ∀ p ∈ parts, ∀ hop ∈ p.hops, c.session.isExchange hop = false →
      Url.path hop.request.url = Url.pathUnder c.configuration.url decodes
          (c.configuration.target.directory ++ CodePoint.scalar '/' :: p.errand.place a) ∧
        Url.query? hop.request.url = Url.queryUnder decodes
          (c.configuration.target.directory ++ CodePoint.scalar '/' :: p.errand.place a)
          (p.errand.call c.setup a).query := by
    intro p hp hop hhop hexchange
    obtain ⟨before, after, hhandling⟩ := hparts p hp
    have hmakes := hhandling.settles.makes hop hhop hexchange
    have hurl := hmakes.url
    rw [Errand.idna_call, Errand.url_eq, Errand.resource_eq] at hurl
    exact hall _ _ _ hurl (hhandling.sendable hop hhop hexchange)
  refine ⟨parts, htraffic, hcourse, ?_, ?_⟩
  · intro p hp hinside hop hhop hexchange
    rw [(hpath p hp hop hhop hexchange).1, Url.pathUnder_front horigin hplain.isPath hplain.dotFree
      (Errand.stays_place hinside)]
    exact ⟨_, by simp [Repository.path, Text.ofString]; rfl⟩
  · intro ha
    refine ⟨decodes, fun p hp report hreport hop hhop hexchange => ?_⟩
    obtain ⟨hmarks, hdots, hsent, hsentDots⟩ := Errand.sentAs_place decodes ha hreport
    obtain ⟨hresource, hquery⟩ := hpath p hp hop hhop hexchange
    rw [Url.pathUnder_dotFree horigin hplain.isPath hplain.dotFree hmarks hdots] at hresource
    refine ⟨?_, ?_, ?_⟩
    · rw [hresource, hsent]
      simp [Repository.path, Text.ofString]
    · rw [hresource]
      exact Url.dotFree_append.mpr ⟨Url.dotFree_version hplain.dotFree, hsentDots⟩
    · rw [hquery, Errand.query_of_commit hreport]
      exact Url.queryUnder_unmarked
        ((Url.unmarked_of_isPath hplain.isPath).append (Url.unmarked_slash.append hmarks))

end Client

namespace Decoration.Sample

theorem isOrigin : Url.IsOrigin client.configuration.url :=
  ⟨"https", "api.bitbucket.org", ⟨.scalar 'h', "ttps", rfl, by decide, by decide⟩,
    by unfold Url.Undelimited; decide, rfl⟩

theorem isPlain : client.configuration.target.IsPlain :=
  ⟨⟨by decide, by decide⟩, ⟨by decide, by decide⟩⟩

/-- A document with a commit that goes back out of the repository. -/
def strayDocument : Text :=
  "\x7b\"project_key\": \"project\", " ++
    "\"commit_sha\": \"../../../other/service/commit/abc123\", \"pull_request_id\": 7, " ++
    "\"quality_gate_status\": \"OK\", \"analysis_date\": \"2024-05-01T10:00:00\", " ++
    "\"dashboard_url\": \"https://sonar.example.com/dashboard\"\x7d"

def strayDirectory : Directory :=
  ⟨["work"], [("analysis.json", .octets (Text.utf8 strayDocument))]⟩

end Decoration.Sample

namespace Client

theorem confined_decorate_sample : ∃ parts, Sample.client.Confined false Sample.analysis
    { replies := [.ok (Sample.response 404), .ok (Sample.response 200)] } parts :=
  confined_decorate Sample.client false Sample.analysis Sample.isOrigin Sample.isPlain _

/-- The report of an analysis that was loaded can go to another repository. -/
theorem decorate_stray : ∃ a,
    Analysis.load .usual Sample.strayDirectory.system "analysis.json" = .ok a ∧
    ∃ hop ∈ Sample.client.traffic false a
        { replies := [.ok (Sample.response 404), .ok (Sample.response 200)] },
      hop.request.method = "PUT" ∧ Url.path hop.request.url =
        "/2.0/repositories/other/service/commit/abc123/reports/sonarqube-analysis" ∧
      ¬Sample.client.configuration.target.path ++ Text.ofString "/" <+:
        Url.path hop.request.url := by
  have hstray : (Analysis.load .usual Sample.strayDirectory.system
      "analysis.json").toOption.any (fun a => (Sample.client.traffic false a
        { replies := [.ok (Sample.response 404), .ok (Sample.response 200)] }).any fun hop =>
          hop.request.method = "PUT" && Url.path hop.request.url = Text.ofString
            "/2.0/repositories/other/service/commit/abc123/reports/sonarqube-analysis") = true := by
    decide +kernel
  cases hload : Analysis.load .usual Sample.strayDirectory.system "analysis.json" with
  | error e =>
    rw [hload] at hstray
    cases hstray
  | ok a =>
    simp only [hload, Except.toOption, Option.any_some] at hstray
    obtain ⟨hop, hhop, hput⟩ := List.any_eq_true.mp hstray
    rw [Bool.and_eq_true, decide_eq_true_iff, decide_eq_true_iff] at hput
    refine ⟨a, rfl, hop, hhop, hput.1, hput.2, ?_⟩
    rw [hput.2]
    decide

end Client

end PullGate
