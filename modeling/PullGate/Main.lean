import PullGate.CommandLine.Basic
import PullGate.Http.Reason

/-!
The command on a console.  Responses come from the standard input, one JSON object a line with
`status`, `reason`, `content_type` and `body`; an object without a status is a connection that
failed, for the reason in its `body`.
-/

namespace PullGate.CommandLine.Console

def textOr (j : Json) (key absent : Text) : Text :=
  match j.get? key with
  | some (.string t) => t
  | _ => absent

def replyOf (line : String) : Http.Reply :=
  match Json.read (Text.ofString line) with
  | .ok j =>
    let body := textOr j "body" []
    match j.get? "status" with
    | some (.int status) =>
      let status := status.toNat
      .ofParts {} status (textOr j "reason" (Http.phrase status))
        (textOr j "content_type" "application/json") (Text.utf8 body)
    | _ => .error (.network .connection body)
  | .error e => .error (.network .connection (e.message (Text.ofString line)))

/-- The variables of a process, from the block in which the system keeps them. -/
def variablesOf (block : Text) : List (Text × Text) :=
  (block.split '\x00').filterMap (Text.cut? '=')

/-- What the system finds under a name. A directory is no file. -/
def look (name : String) : IO Lookup := do
  try
    let content ← IO.FS.readBinFile name
    return .file content.toList
  catch
    | .noFileOrDirectory .. | .inappropriateType .. => return .absent
    | .permissionDenied _ _ reason => return .unreadable (Text.ofString reason)
    | error => return .refused (Text.ofString error.toString)

def octets? : Lookup → Option Octets
  | .file content => some content
  | _ => none

/-- The surroundings of a process. Only files that an argument names can matter. -/
def surroundings (arguments : List String) : IO Surroundings := do
  let block ← look "/proc/self/environ"
  let dotenv ← look ".env"
  let found ← arguments.mapM fun name => return (Text.ofString name, ← look name)
  return {
    environment := variablesOf (Utf8.decodeLossy ((octets? block).getD []))
    dotenv := (octets? dotenv).map Utf8.decodeLossy
    files := fun path => ((found.find? (·.1 = path)).map Prod.snd).getD .absent }

partial def readLines (input : IO.FS.Stream) (lines : List String) : IO (List String) := do
  let line ← input.getLine
  if line.isEmpty then return lines.reverse else readLines input (line :: lines)

/-- Prints what a run leaves, and gives its exit status. -/
def report (e : Ending) : IO UInt32 := do
  IO.print (Text.toString e.stdout)
  for note in e.stderr do
    IO.eprint (Text.toString (note.write "-"))
  match e.status with
  | .ok status => return status.toUInt32
  | .error crash =>
    IO.eprintln (Text.toString crash.message)
    return 70

end PullGate.CommandLine.Console

open PullGate PullGate.CommandLine in
/-- A run that sends nothing is done without the standard input. -/
def main (arguments : List String) : IO UInt32 := do
  let s ← Console.surroundings arguments
  let texts := arguments.map Text.ofString
  let dry := CommandLine.run s [] texts
  if dry.wire.sent.isEmpty then Console.report dry
  else
    let lines ← Console.readLines (← IO.getStdin) []
    Console.report (CommandLine.run s (lines.map Console.replyOf) texts)
