import PullGate.Proofs.Address.Reach
import PullGate.Proofs.Decoration.Errand

/-! The calls of errands can be made.  Their bodies have a standard form, whatever the analysis
holds, and their addresses all lie under that of the service. -/

namespace PullGate

namespace RowPayload

open Json

mutual

/-- Every number that is left is finite. -/
theorem isStandard_standardize (j : Json) : isStandard (standardize j) = true := by
  cases j with
  | double d =>
    unfold standardize
    split
    · next hfinite => exact hfinite
    · rfl
  | array items => exact areStandard_standardizeItems items
  | object members => exact haveStandardValues_standardizeMembers members
  | null | bool _ | int _ | string _ => rfl
termination_by sizeOf j

theorem areStandard_standardizeItems (items : List Json) :
    areStandard (standardizeItems items) = true := by
  cases items with
  | nil => rfl
  | cons item items =>
    rw [standardizeItems, areStandard, isStandard_standardize item,
      areStandard_standardizeItems items]
    rfl
termination_by sizeOf items

theorem haveStandardValues_standardizeMembers (members : List (Text × Json)) :
    haveStandardValues (standardizeMembers members) = true := by
  cases members with
  | nil => rfl
  | cons member members =>
    obtain ⟨key, value⟩ := member
    rw [standardizeMembers, haveStandardValues, isStandard_standardize value,
      haveStandardValues_standardizeMembers members]
    rfl
termination_by sizeOf members

end

theorem isStandard_toJson (r : RowPayload) : r.toJson.isStandard = true := by
  simp [toJson, isStandard, haveStandardValues, isStandard_standardize]

end RowPayload

theorem Json.areStandard_map {α : Type} {f : α → Json} (h : ∀ x, (f x).isStandard = true)
    (items : List α) : areStandard (items.map f) = true := by
  induction items with
  | nil => rfl
  | cons item items ih => simp [areStandard, h, ih]

theorem ReportPayload.isStandard_toJson (r : ReportPayload) : r.toJson.isStandard = true := by
  simp [toJson, Json.isStandard, Json.haveStandardValues,
    Json.areStandard_map RowPayload.isStandard_toJson]

theorem AnnotationPayload.isStandard_toJson (p : AnnotationPayload) :
    p.toJson.isStandard = true := rfl

namespace Decoration.Errand

variable (s : Setup) (a : Analysis)

theorem isStandard_body (e : Errand) {body : Json} (h : (e.call s a).body = some body) :
    body.isStandard = true := by
  cases e with
  | clearReport | unapprove | findComment => cases h
  | putReport =>
    obtain rfl := Option.some.inj h
    exact ReportPayload.isStandard_toJson _
  | postBatch batch =>
    obtain rfl := Option.some.inj h
    exact Json.areStandard_map AnnotationPayload.isStandard_toJson batch
  | approve | writeComment found =>
    obtain rfl := Option.some.inj h
    rfl

def resource (e : Errand) : Text :=
  let repository : Text := "repositories/" ++ s.repository.project ++ "/" ++ s.repository.name
  let report : Text := repository ++ "/commit/" ++ a.commit ++ "/reports/" ++ Client.reportKey
  let pullRequest : Text := repository ++ "/pullrequests/" ++ Text.ofInt a.pullRequest
  match e with
  | .clearReport | .putReport => report
  | .postBatch _ => report ++ "/annotations"
  | .approve | .unapprove => pullRequest ++ "/approve"
  | .findComment | .writeComment none => pullRequest ++ "/comments"
  | .writeComment (some comment) => pullRequest ++ "/comments/" ++ comment

theorem url_eq (e : Errand) :
    (e.call s a).url = Url.under s.client.configuration.url (e.resource s a) := by
  cases e with
  | writeComment found =>
    cases found <;>
      simp [call, resource, Url.under, Client.commentsUrl, Client.pullRequestUrl,
        Client.repositoryUrl, Text.ofString]
  | _ =>
    simp [call, resource, Url.under, Client.commentsUrl, Client.approvalUrl, Client.pullRequestUrl,
      Client.annotationsUrl, Client.reportUrl, Client.repositoryUrl, Text.ofString]

theorem idna_call (e : Errand) : (e.call s a).idna = s.client.idna := by cases e <;> rfl

/-- If the address of one errand can be reached, so can that of every other. -/
theorem reachable {e : Errand}
    (h : Url.Reachable (e.call s a).idna (e.call s a).url (e.call s a).query) (e' : Errand) :
    Url.Reachable (e'.call s a).idna (e'.call s a).url (e'.call s a).query := by
  rw [idna_call, url_eq] at h ⊢
  exact h.under _ _

end Decoration.Errand

end PullGate
