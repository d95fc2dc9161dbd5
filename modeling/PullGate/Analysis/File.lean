import PullGate.Analysis.Document
import PullGate.FileSystem
import PullGate.Json.Reader
import PullGate.Text.Lines

/-!
Loading an analysis from a file.
-/

namespace PullGate.Analysis

inductive LoadError where
  | unnamable (reason : Text)
  | refused (reason : Text)
  | looped (reason : Text)
  | noFile (path : Text)
  | unreadable (path reason : Text)
  | encoding (fault : Utf8.Fault)
  | json (document : Text) (error : Json.ReadError)
  | rejected (rejection : Rejection)

/-- Reads a text as an analysis document. -/
def ofText (room : Json.Room) (text : Text) : Except LoadError Analysis :=
  match Json.readTo room.count text with
  | .error error => .error (.json text error)
  | .ok j => (ofJson j).mapError .rejected

/-- Reads the file as UTF-8, with any line ends, and the text as an analysis document. -/
def load (room : Json.Room) (files : FileSystem) (path : Text) : Except LoadError Analysis :=
  match files path with
  | .unnamable reason => .error (.unnamable reason)
  | .refused reason => .error (.refused reason)
  | .looped reason => .error (.looped reason)
  | .absent => .error (.noFile path)
  | .unreadable reason => .error (.unreadable path reason)
  | .file content =>
    match Utf8.decode content with
    | .error fault => .error (.encoding fault)
    | .ok text => ofText room (Text.unifyLineEnds text)

namespace LoadError

/-- A path that the system refuses to follow or that goes round, and nesting for which there is no
room, are no faults that a caller is told of: they end the program. -/
def isReported : LoadError → Bool
  | .refused _ | .looped _ | .json _ (.tooDeep _) => false
  | _ => true

def message : LoadError → Text
  | .unnamable reason | .refused reason | .looped reason => reason
  | .noFile path => "'" ++ path ++ "' is not a readable file."
  | .unreadable path reason => "Could not read analysis file '" ++ path ++ "': " ++ reason
  | .encoding fault => fault.message
  | .json document error => error.message document
  | .rejected rejection => rejection.message

end LoadError

end PullGate.Analysis
