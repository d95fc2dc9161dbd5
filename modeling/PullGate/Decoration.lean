import PullGate.Client.Basic

/-!
The decoration of a pull request: the report, the annotations in batches, the approval, and the
summary comment, in this order.  The first failure that is foreseen ends the run and becomes part of
its outcome.
-/

namespace PullGate

/-- How many annotations were uploaded, and whether some were left out. -/
structure Upload where
  count : Nat
  truncated : Bool
  deriving DecidableEq

/-- The outcome of a run. One that was stopped tells of its upload, which counts as none unless it
had come to its end. -/
inductive Outcome where
  | skipped
  | decorated (upload : Upload)
  | stopped (upload : Upload) (cause : Stop)
  deriving DecidableEq

namespace Outcome

def isDecorated : Outcome → Bool
  | .decorated _ => true
  | _ => false

def upload : Outcome → Upload
  | .skipped => ⟨0, false⟩
  | .decorated upload => upload
  | .stopped upload _ => upload

def error? : Outcome → Option Text
  | .stopped _ cause => some cause.message
  | _ => none

def toJson (o : Outcome) : Json :=
  .object [("decorated", .bool o.isDecorated), ("annotations_uploaded", .int o.upload.count),
    ("annotations_truncated", .bool o.upload.truncated),
    ("error", match o.error? with
      | some text => .string text
      | none => .null)]

end Outcome

/-- What a host offers: whether it takes reports at all, and how many annotations. -/
structure Capabilities where
  insights : Bool
  limit : UploadLimit
  deriving DecidableEq

def Capabilities.cloud : Capabilities := ⟨true, ⟨100, 1000⟩⟩

namespace Decoration

structure Setup where
  client : Client
  repository : Repository
  capabilities : Capabilities := .cloud

def warn (message : Text) : Run Unit := Run.log .warning .decorator message

/-- The status of a request that was too large. -/
def tooLarge : Nat := 413

/-- Sends one batch; whether the host took it. A batch that is too large is no failure. -/
def sendBatch (s : Setup) (commit : Text) (batch : List AnnotationPayload) : Run Bool :=
  tryCatch (do
    s.client.uploadAnnotations s.repository commit batch
    return true) fun
    | .stop (.provider status body) =>
      if status = tooLarge then pure false else Run.stop (.provider status body)
    | failure => throw failure

/-- Sends batches, the first of them with the given number, until the ceiling is reached or one is
too large. `total` annotations are to be sent, `count` have been. -/
def sendBatches (s : Setup) (commit : Text) (total : Nat) :
    (number : Nat) → (count : Nat) → List (List AnnotationPayload) → Run Upload
  | _, count, [] => return ⟨count, false⟩
  | number, count, batch :: batches => do
    if Batch.exceeds number s.capabilities.limit then
      warn ("This project has too many issues. The provider only supports "
        ++ Text.ofInt s.capabilities.limit.total ++ ". The remaining " ++ Text.ofNat (total - count)
        ++ " annotation(s) will be truncated.")
      return ⟨count, true⟩
    if ← sendBatch s commit batch then
      sendBatches s commit total (number + 1) (count + batch.length) batches
    else
      warn ("The annotations will be truncated since the maximum number of annotations"
        ++ " for this report has been reached.")
      return ⟨count, true⟩

def uploadAnnotations (s : Setup) (a : Analysis) : Run Upload := do
  let annotations :=
    (Batch.bySeverity Finding.severity a.annotations).map AnnotationPayload.ofFinding
  match Batch.partition annotations s.capabilities.limit.batchSize with
  | .error fault => Run.breakDown (.batchSize fault)
  | .ok batches => sendBatches s a.commit annotations.length 1 0 batches

/-- Approves a pull request that passed, and withdraws the approval of one that failed. -/
def settleApproval (s : Setup) (a : Analysis) : Run Unit :=
  if a.passed then s.client.approve s.repository a.pullRequest
  else s.client.unapprove s.repository a.pullRequest

/-- A run that has uploaded annotations and ends, if a foreseen failure stops it, with an outcome
that says so. -/
def stoppable (upload : Upload) (r : Run Outcome) : Run Outcome :=
  tryCatch r fun
    | .stop cause => return .stopped upload cause
    | failure => throw failure

def conclude (s : Setup) (approval : Bool) (a : Analysis) (upload : Upload) : Run Outcome := do
  if approval then settleApproval s a
  s.client.publishComment s.repository a.pullRequest a
  return .decorated upload

def steps (s : Setup) (approval : Bool) (a : Analysis) : Run Outcome := do
  if s.capabilities.insights then
    s.client.uploadReport s.repository a.commit (.ofAnalysis a)
    let upload ← uploadAnnotations s a
    stoppable upload (conclude s approval a upload)
  else
    warn "Your Bitbucket instance does not support the Code Insights API."
    return .skipped

/-- The entry that tells of an outcome, if one does. -/
def closing? (a : Analysis) : Outcome → Option Log.Entry
  | .skipped => none
  | .decorated upload => some ⟨.info, .decorator, "Decorated pull request "
      ++ Text.ofNat a.pullRequest ++ " with " ++ Text.ofNat upload.count ++ " annotation(s)"⟩
  | .stopped _ _ => some ⟨.error, .decorator,
      "Could not decorate pull request for project " ++ a.projectKey⟩

/-- Ends with an outcome, and an entry in the log. -/
def close (a : Analysis) (o : Outcome) : Dialogue (Except Breakdown Outcome) :=
  match closing? a o with
  | some entry => .log entry (.done (.ok o))
  | none => .done (.ok o)

/-- Publishes an analysis on its pull request. A run that was stopped has an outcome like any other;
only a breakdown leaves none. -/
def run (s : Setup) (approval : Bool) (a : Analysis) : Dialogue (Except Breakdown Outcome) := do
  match ← (steps s approval a).run with
  | .ok outcome => close a outcome
  | .error (.stop cause) => close a (.stopped ⟨0, false⟩ cause)
  | .error (.breakdown cause) => return .error cause

end Decoration

end PullGate
