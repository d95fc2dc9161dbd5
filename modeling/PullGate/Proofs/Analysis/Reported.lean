import PullGate.Proofs.Analysis.Members
import PullGate.Proofs.Json.Nesting
import PullGate.Proofs.Text.Utf8

/-! Which faults of an analysis file its reader is told of.  A file that is missing, cannot be read,
is not UTF-8, is not JSON or breaks a rule of the document is reported as such.  Two faults are not:
an error with which the system turns down the path itself, and a document that nests too deep. -/

namespace PullGate

/-- The system turns down a path with an error of its own, before any file is read. -/
def FileSystem.Bars (files : FileSystem) (path : Text) : Prop :=
  (∃ reason, files path = .refused reason) ∨ ∃ reason, files path = .looped reason

namespace Analysis

/-- The loading ends in a fault that the caller is not told of. -/
def Unreported (room : Json.Room) (files : FileSystem) (path : Text) : Prop :=
  ∃ e, load room files path = .error e ∧ e.isReported = false

variable {room : Json.Room} {files : FileSystem} {path text : Text}

theorem LoadError.isReported_eq_false_iff {e : LoadError} : e.isReported = false ↔
    (∃ reason, e = .refused reason) ∨ (∃ reason, e = .looped reason) ∨
      ∃ text container, e = .json text (.tooDeep container) := by
  unfold isReported
  split
  · next reason => simp
  · next reason => simp
  · next text container => simp
  · next hrefused hlooped hdeep =>
    simpa using ⟨hrefused, hlooped, hdeep⟩

theorem Unreported.of_bars (h : files.Bars path) : Unreported room files path := by
  rcases h with ⟨reason, h⟩ | ⟨reason, h⟩
  · exact ⟨.refused reason, by rw [load, h], rfl⟩
  · exact ⟨.looped reason, by rw [load, h], rfl⟩

/-- An error of the system's own is met only where it turns down the path. -/
theorem bars_of_load {reason : Text} (h : load room files path = .error (.refused reason) ∨
    load room files path = .error (.looped reason)) : files.Bars path := by
  cases hdocument : files.document? path with
  | some text =>
    rw [load_of_document? hdocument, ofText] at h
    split at h
    · simp at h
    · next j _ => cases hj : ofJson j <;> simp [hj, Except.mapError] at h
  | none =>
    unfold FileSystem.document? at hdocument
    unfold load at h
    unfold FileSystem.Bars
    cases hfile : files path with
    | refused reason => exact .inl ⟨reason, rfl⟩
    | looped reason => exact .inr ⟨reason, rfl⟩
    | file content =>
      rw [hfile] at h hdocument
      cases hdecode : Utf8.decode content <;> simp [hdecode] at h hdocument
    | unreadable | absent | unnamable => simp [hfile] at h

/-- A fault that is not reported is one of the path, or one of the reader of JSON. -/
theorem unreported_iff : Unreported room files path ↔ files.Bars path ∨
    ∃ text container, files.document? path = some text ∧
      Json.readTo room.count text = .error (.tooDeep container) := by
  constructor
  · rintro ⟨e, hload, he⟩
    rcases LoadError.isReported_eq_false_iff.mp he with ⟨reason, rfl⟩ | ⟨reason, rfl⟩ |
      ⟨text, container, rfl⟩
    · exact .inl (bars_of_load (.inl hload))
    · exact .inl (bars_of_load (.inr hload))
    · exact .inr ⟨text, container, load_eq_json_error_iff.mp hload⟩
  · rintro (hbars | ⟨text, container, hread⟩)
    · exact .of_bars hbars
    · exact ⟨.json text (.tooDeep container), load_eq_json_error_iff.mpr hread, rfl⟩

theorem unreported_of_isText (hdocument : files.document? path = some text)
    (htext : Json.IsText text) (hdeep : room.count < Json.nesting text) :
    Unreported room files path := by
  obtain ⟨container, hread⟩ := (htext.tooDeep_iff room.count).mpr hdeep
  exact unreported_iff.mpr (.inr ⟨text, container, hdocument, hread⟩)

/-- Whatever a file holds, each fault in loading it is reported unless the system turns down its
path, or its document opens more containers at once than there is room for.  No such path is loaded
from, and no JSON text that opens so many is either loaded or reported. -/
theorem unreported_load (room : Json.Room) (files : FileSystem) (path : Text) :
    (Unreported room files path → files.Bars path ∨
      ∃ text, files.document? path = some text ∧ room.count < Json.nesting text) ∧
    (files.Bars path → Unreported room files path) ∧
    ∀ text, files.document? path = some text → Json.IsText text →
      room.count < Json.nesting text → Unreported room files path := by
  refine ⟨fun h => ?_, .of_bars, fun _ => unreported_of_isText⟩
  rcases unreported_iff.mp h with hbars | ⟨text, container, hdocument, hread⟩
  · exact .inl hbars
  · exact .inr ⟨text, hdocument, Json.lt_nesting_of_readTo hread⟩

namespace Sample

/-- A file of nested brackets. -/
def nested (n : Nat) : Directory :=
  ⟨[], [("analysis.json", .octets (List.replicate n 0x5B ++ List.replicate n 0x5D))]⟩

theorem document?_nested (n : Nat) :
    (nested n).system.document? "analysis.json" = some (Json.brackets n) := by
  have hfile : (nested n).system "analysis.json" =
      .file (List.replicate n 0x5B ++ List.replicate n 0x5D) := rfl
  have hascii : ∀ b ∈ List.replicate n (0x5B : UInt8) ++ List.replicate n 0x5D, b.toNat < 0x80 := by
    intro b hb
    rcases List.mem_append.mp hb with hb | hb
    all_goals
      obtain rfl := List.eq_of_mem_replicate hb
      decide
  have hdecode : Utf8.decode (List.replicate n 0x5B ++ List.replicate n 0x5D) =
      .ok (Json.brackets n) := by
    rw [Utf8.decode, Utf8.decodeFrom_ascii hascii, List.map_append, List.map_replicate,
      List.map_replicate]
    rfl
  have hends : ∀ c ∈ Json.brackets n, c ≠ .scalar '\r' := by
    intro c hc
    rcases List.mem_append.mp hc with hc | hc
    all_goals
      obtain rfl := List.eq_of_mem_replicate hc
      decide
  simp only [FileSystem.document?, hfile, hdecode, Text.unifyLineEnds_of_forall_ne hends]

theorem unreported_nested {n : Nat} (h : room.count < n) :
    Unreported room (nested n).system "analysis.json" := by
  obtain ⟨k, rfl⟩ : ∃ k, n = k + 1 := ⟨n - 1, by omega⟩
  exact unreported_of_isText (document?_nested _) (Json.isText_brackets k)
    (Nat.lt_of_lt_of_le h (Json.le_nesting_brackets _))

end Sample

/-- Five thousand brackets in one another are neither loaded nor reported by a program with the
usual room; and no room is enough for all files. -/
theorem unreported_load_nested : (¬ ∀ files path, (∃ a, load .usual files path = .ok a) ∨
    ∃ e, load .usual files path = .error e ∧ e.isReported = true) ∧
    ∀ room, ∃ files path, Unreported room files path := by
  refine ⟨fun h => ?_, fun room =>
    ⟨_, _, Sample.unreported_nested (Nat.lt_succ_self room.count)⟩⟩
  obtain ⟨e, hload, he⟩ : Unreported .usual (Sample.nested 5000).system "analysis.json" :=
    Sample.unreported_nested (by decide)
  rcases h (Sample.nested 5000).system "analysis.json" with ⟨a, ha⟩ | ⟨e', he', hreported⟩
  · rw [hload] at ha
    cases ha
  · obtain rfl := Except.error.inj (hload.symm.trans he')
    rw [he] at hreported
    cases hreported

end Analysis

end PullGate
