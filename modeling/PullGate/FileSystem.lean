import PullGate.Text.Utf8

/-!
Files as a program finds them.  What a path leads to is the answer of the system, which may follow
links and refuse paths for reasons of its own; a directory of files is a system without either.
-/

namespace PullGate

/-- What a path leads to.  A text may be no path at all, the system may refuse to follow it, and its
links may go round; all this is found out before a file is read. -/
inductive Lookup where
  | file (content : Octets)
  | unreadable (reason : Text)
  | absent
  | unnamable (reason : Text)
  | refused (reason : Text)
  | looped (reason : Text)

abbrev FileSystem := Text → Lookup

inductive FileContent where
  | octets (content : Octets)
  | unreadable (reason : Text)

/-- A working directory, by the steps to it from the root, and the files in it by name. -/
structure Directory where
  home : List Text
  files : List (Text × FileContent)

namespace Directory

/-- The steps of a path behind others, last one first: a dot stays, two dots go back, and before the
root there is nothing. -/
def steps (done : List Text) : List Text → List Text
  | [] => done
  | part :: parts =>
    if part.isEmpty || part = "." then steps done parts
    else if part = ".." then steps (done.drop 1) parts
    else steps (part :: done) parts

/-- The steps that a path names, from the root or else from the working directory. -/
def resolve (d : Directory) (path : Text) : List Text :=
  let start := if path.head? = some (.scalar '/') then [] else d.home.reverse
  steps start (path.split '/')

def system (d : Directory) : FileSystem := fun path =>
  if path.any (· = '\x00') then .unnamable "embedded null byte"
  else match d.files.find? fun (name, _) => d.resolve name = d.resolve path with
    | some (_, .octets content) => .file content
    | some (_, .unreadable reason) => .unreadable reason
    | none => .absent

end Directory

end PullGate
