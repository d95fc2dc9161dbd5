import PullGate.Analysis.Basic

/-!
The wording of the summary comment, and the query by which it is found again.
-/

namespace PullGate.Comment

/-- The phrase every summary comment begins with, by which it is found again. -/
def marker : Text := "SonarQube analysis reports"

/-- The query for comments with the marker that stand on the pull request itself. -/
def query : Text :=
  "content.raw~\"" ++ marker ++ " \" AND deleted=false AND inline.path=null"

def degree (a : Analysis) : Text :=
  if !a.hasIssues then "no" else if a.passed then "minor" else "severe"

def text (a : Analysis) : Text :=
  let second : Text :=
    if a.hasIssues then "Please refer to [dashboard](" ++ a.dashboardUrl ++ ") for details."
    else "Take a chocolate :)"
  marker ++ " " ++ degree a ++ " issues. " ++ second

end PullGate.Comment
