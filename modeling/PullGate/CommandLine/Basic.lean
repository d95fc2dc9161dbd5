import PullGate.Analysis.File
import PullGate.CommandLine.Arguments
import PullGate.CommandLine.Usage
import PullGate.Decoration
import PullGate.Settings.Basic

/-!
The command: it reads its arguments and settings, loads the analysis, decorates the pull request,
and tells how that went.
-/

namespace PullGate.CommandLine

/-- What a run finds about it. The room is for the nesting of a document that is loaded. -/
structure Surroundings where
  environment : List (Text × Text)
  dotenv : Option Text
  files : FileSystem
  room : Json.Room := .usual
  idna : Url.Idna := .ascii
  capabilities : Capabilities := .cloud

/-- A note on the error output: plain text, or an entry of the log. -/
inductive Note where
  | text (t : Text)
  | entry (e : Log.Entry)

/-- Why the command ends without an exit status. -/
inductive Crash where
  | load (error : Analysis.LoadError)
  | level (name : Text)
  | breakdown (cause : Breakdown)

def Crash.message : Crash → Text
  | .load error => error.message
  | .level name => "Unknown level: " ++ Text.quoted name
  | .breakdown cause => cause.message

structure Ending where
  status : Except Crash Nat
  stdout : Text
  stderr : List Note
  wire : Wire

/-- An ending before anything was sent. -/
def Ending.early (w : Wire) (status : Nat) (stdout : Text) (stderr : List Note) : Ending :=
  ⟨.ok status, stdout, stderr, w⟩

/-- The settings that arguments override. An empty value overrides nothing. -/
def overrides (a : Arguments) : List (Text × Json) :=
  let override (name : Text) : Option Text → List (Text × Json)
    | some (c :: t) => [(name, .string (c :: t))]
    | _ => []
  override "bitbucket_project_key" a.project ++ override "bitbucket_repository_slug" a.repo

def sources (s : Surroundings) (a : Arguments) : Settings.Sources where
  arguments := overrides a
  environment := s.environment
  dotenv := match s.dotenv with
    | some text => Dotenv.entries s.environment text
    | none => []

def summary (a : Analysis) (upload : Upload) : Text :=
  "Decorated pull request #" ++ Text.ofNat a.pullRequest ++ ": " ++ Text.ofNat upload.count
    ++ " annotation(s) uploaded" ++ (if upload.truncated then " (truncated)" else "") ++ ".\n"

/-- The text of the error that stopped a run; empty if there was none, or if it has no text. -/
def errorText (o : Outcome) : Text := o.error?.getD []

/-- What is printed on an outcome: on the standard output, and on the error output. -/
def tell (json : Bool) (a : Analysis) (o : Outcome) : Text × List Note :=
  if json then (o.toJson.writeIndented ++ ("\n" : Text), [])
  else if o.isDecorated then (summary a o.upload, [])
  else if (errorText o).isEmpty then ("Decoration skipped: Code Insights is not available.\n", [])
  else ([], [.text ("  [!] Decoration failed: " ++ errorText o ++ "\n")])

/-- Decorates with settings and an analysis that were accepted. `rank` is the least one that is
logged. -/
def decorate (s : Surroundings) (w : Wire) (a : Arguments) (settings : Settings) (rank : Nat)
    (analysis : Analysis) : Ending :=
  let configuration := settings.toConfiguration
  let client : Client := ⟨configuration, .fraction settings.timeout, s.idna⟩
  let setup : Decoration.Setup := ⟨client, configuration.target, s.capabilities⟩
  let approval := a.approve.getD settings.approval
  let logged (entries : List Log.Entry) : List Note := (Log.above rank entries).map .entry
  let loaded : Log.Entry := ⟨.debug, .loader, "Loaded analysis for " ++ analysis.projectKey
    ++ " with " ++ Text.ofNat analysis.annotations.length ++ " annotation(s)"⟩
  match (client.session.carryOut (Decoration.run setup approval analysis)).run w with
  | (.error cause, w) => ⟨.error (.breakdown cause), [], logged (loaded :: w.log), w⟩
  | (.ok outcome, w) =>
    let (stdout, notes) := tell a.json analysis outcome
    let stderr := logged (loaded :: w.log) ++ notes
    if (errorText outcome).isEmpty then ⟨.ok 0, stdout, stderr, w⟩
    else
      let failing : Log.Entry :=
        ⟨.debug, .cli, "Exiting with failure for project " ++ analysis.projectKey⟩
      ⟨.ok 1, stdout, stderr ++ logged [failing], w⟩

def start (s : Surroundings) (w : Wire) (path : Text) (a : Arguments) : Ending :=
  match Settings.ofSources (sources s a) with
  | .error rejection =>
    .early w 1 [] [.text ("  [!] Invalid configuration: " ++ rejection.message ++ "\n")]
  | .ok settings =>
    let level := Text.upper settings.logLevel
    match Log.threshold? level with
    | none => ⟨.error (.level level), [], [], w⟩
    | some rank =>
      match Analysis.load s.room s.files path with
      | .error error =>
        if error.isReported then
          .early w 1 [] [.text ("  [!] Could not load analysis: " ++ error.message ++ "\n")]
        else ⟨.error (.load error), [], [], w⟩
      | .ok analysis => decorate s w a settings rank analysis

def run (s : Surroundings) (replies : List Http.Reply) (arguments : List Text) : Ending :=
  let w : Wire := { replies }
  match Arguments.read arguments with
  | .error fault =>
    .early w 2 [] [.text (usage ++ program ++ ": error: " ++ fault.message ++ "\n")]
  | .ok .help => .early w 0 help []
  | .ok (.run path a) => start s w path a

def padded (width : Nat) (t : Text) : Text :=
  t ++ List.replicate (width - t.length) (CodePoint.scalar ' ')

def Note.write (time : Text) : Note → Text
  | .text t => t
  | .entry e =>
    Text.join " " [time, padded 5 e.level.word, e.source.name, e.message] ++ ("\n" : Text)

end PullGate.CommandLine
