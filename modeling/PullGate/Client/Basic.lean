import PullGate.Client.Payload
import PullGate.Comment.Basic
import PullGate.Configuration
import PullGate.Session.Dialogue

/-!
The operations on the hosted repository: its reports with their annotations, the approval of a pull
request, and the summary comment.
-/

namespace PullGate

/-- Where to connect, how long to wait for each response, and how hosts are written in ASCII. -/
structure Client where
  configuration : Configuration
  timeout : Http.Seconds
  idna : Url.Idna := .ascii

structure Repository where
  project : Text
  name : Text
  deriving DecidableEq

def Configuration.target (c : Configuration) : Repository := ⟨c.project, c.repository⟩

namespace Client

def defaultTimeout : Http.Seconds := .fraction (Double.ofInt 10)

def reportKey : Text := "sonarqube-analysis"

/-- The session of a client. The token of its configuration is sent as it is, or exchanged as a
secret. -/
def session (c : Client) : Session where
  accept := "application/json"
  authorization := some ("Basic " ++ c.configuration.token)
  bearer :=
    if c.configuration.isOauth2 then
      some ⟨c.configuration.oauth2Key, c.configuration.token, c.timeout⟩
    else none

/-! ### Addresses -/

def repositoryUrl (c : Client) (r : Repository) : Text :=
  c.configuration.url ++ "/2.0/repositories/" ++ r.project ++ "/" ++ r.name

def reportUrl (c : Client) (r : Repository) (commit : Text) : Text :=
  c.repositoryUrl r ++ "/commit/" ++ commit ++ "/reports/" ++ reportKey

def annotationsUrl (c : Client) (r : Repository) (commit : Text) : Text :=
  c.reportUrl r commit ++ "/annotations"

def pullRequestUrl (c : Client) (r : Repository) (id : Int) : Text :=
  c.repositoryUrl r ++ "/pullrequests/" ++ Text.ofInt id

def approvalUrl (c : Client) (r : Repository) (id : Int) : Text :=
  c.pullRequestUrl r id ++ "/approve"

def commentsUrl (c : Client) (r : Repository) (id : Int) : Text :=
  c.pullRequestUrl r id ++ "/comments"

/-! ### Requests -/

/-- What is reported in the place of a body that is empty. -/
def noBody : Text := "Request failed but Bitbucket didn't respond with a proper error message"

/-- The failure that a response is where a success is needed. Its body is read for the report. -/
def rejection? (r : Http.Response) : Option Failure :=
  if r.isSuccess then none
  else if r.body.isEmpty then some (.stop (.provider r.status noBody))
  else match r.text with
    | .ok body => some (.stop (.provider r.status body))
    | .error fault => some (.breakdown (.charset fault))

def requireSuccess (r : Http.Response) : Run Unit :=
  match rejection? r with
  | none => pure ()
  | some failure => throw failure

def send (c : Client) (method url : Text) (body : Option Json) : Run Http.Response :=
  Run.call { method, url, body, timeout := c.timeout, idna := c.idna }

def inform (message : Text) : Run Unit := Run.log .info .client message

def trace (message : Text) : Run Unit := Run.log .debug .client message

/-! ### Reports and annotations -/

/-- Deletes the report of a commit. Mostly there is none, so any response will do. -/
def deleteReport (c : Client) (r : Repository) (commit : Text) : Run Unit := do
  inform "Deleting existing report on Bitbucket Cloud"
  let response ← c.send "DELETE" (c.reportUrl r commit) none
  trace ("Delete report returned HTTP " ++ Text.ofNat response.status)

def uploadReport (c : Client) (r : Repository) (commit : Text) (report : ReportPayload) :
    Run Unit := do
  c.deleteReport r commit
  inform "Creating report on Bitbucket Cloud"
  requireSuccess (← c.send "PUT" (c.reportUrl r commit) (some report.toJson))

def uploadAnnotations (c : Client) (r : Repository) (commit : Text)
    (annotations : List AnnotationPayload) : Run Unit := do
  if annotations.isEmpty then return
  inform ("Creating " ++ Text.ofNat annotations.length ++ " annotation(s) on Bitbucket Cloud")
  let body := Json.array (annotations.map AnnotationPayload.toJson)
  requireSuccess (← c.send "POST" (c.annotationsUrl r commit) (some body))

/-! ### Pull requests -/

/-- The status of an approval that was there already. -/
def conflict : Nat := 409

def approve (c : Client) (r : Repository) (id : Int) : Run Unit := do
  inform ("Approving pull request " ++ Text.ofInt id ++ " on Bitbucket Cloud")
  let response ← c.send "POST" (c.approvalUrl r id) (some (.object []))
  unless response.status = conflict do requireSuccess response

/-- Withdraws an approval. There may be none, so any response will do. -/
def unapprove (c : Client) (r : Repository) (id : Int) : Run Unit := do
  inform ("Unapproving pull request " ++ Text.ofInt id ++ " on Bitbucket Cloud")
  let response ← c.send "DELETE" (c.approvalUrl r id) none
  unless response.isSuccess do
    trace ("Unapprove returned HTTP " ++ Text.ofNat response.status)

def findComment (c : Client) (r : Repository) (id : Int) : Run (Option Text) := do
  let response ← Run.call {
    method := "GET"
    url := c.commentsUrl r id
    query := [("q", Comment.query)]
    timeout := c.timeout
    idna := c.idna }
  requireSuccess response
  match response.json with
  | .error fault => throw (.ofReading fault)
  | .ok answer =>
    match Comment.firstId answer with
    | .error fault => Run.breakDown (.comments fault)
    | .ok found => return found

def publishComment (c : Client) (r : Repository) (id : Int) (a : Analysis) : Run Unit := do
  let found ← c.findComment r id
  let body : Json := .object [("content", .object [("raw", .string (Comment.text a))])]
  match found with
  | some comment =>
    inform "Updating pull request summary comment on Bitbucket Cloud"
    requireSuccess (← c.send "PUT" (c.commentsUrl r id ++ "/" ++ comment) (some body))
  | none =>
    inform "Creating pull request summary comment on Bitbucket Cloud"
    requireSuccess (← c.send "POST" (c.commentsUrl r id) (some body))

end Client

end PullGate
