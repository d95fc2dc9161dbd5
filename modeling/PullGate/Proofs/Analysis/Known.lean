import Mathlib.Logic.Relation
import PullGate.Analysis.File
import PullGate.Proofs.Validation.Unseen

/-! What of a document counts.  Documents that agree on the known members, and whose counts and
entries agree on theirs, come to the same analysis or to the same problems; and so does a document
however its members are added to or reordered, as long as the known ones are left alone. -/

namespace PullGate

open Check

/-! ### Values that are alike -/

namespace Finding

def keys : List Text :=
  ["external_id", "path", "line", "link", "message", "severity", "type"]

/-- Entries that agree on the known members. -/
def Alike : Json → Json → Prop := Memberwise (Json.AgreeOn keys)

theorem respects_ofJson : Respects ofJson Alike := by
  refine .memberwise (fun m m' h => ?_) fun _ _ => rfl
  simp only [keys, Json.AgreeOn, List.forall_mem_cons] at h
  obtain ⟨hid, hpath, hline, hlink, hmessage, hseverity, hkind, -⟩ := h
  unfold ofJson ofMembers
  simp only
  rw [respects_trimmed.required hid, respects_trimmed.required hpath,
    respects_natural.optional hline, respects_trimmed.optional hlink,
    respects_trimmed.required hmessage, (respects_choice _).required hseverity,
    (respects_choice _).required hkind]

end Finding

namespace IssueCounts

/-- The two names of each count, the one that goes first in front. -/
def names : List (Text × Text) :=
  [("BUG", "bugs"), ("VULNERABILITY", "vulnerabilities"), ("SECURITY_HOTSPOT", "hotspots"),
    ("CODE_SMELL", "code_smells")]

def keys : List Text := names.flatMap fun n => [n.1, n.2]

/-- The same counts: under the first name of each, and under the second where the first has none. -/
def AgreeOnNames (m m' : List (Text × Json)) : Prop :=
  ∀ n ∈ names, Option.Rel Json.Outline (Json.lookup n.1 m) (Json.lookup n.1 m') ∧
    (Json.lookup n.1 m = none →
      Option.Rel Json.Outline (Json.lookup n.2 m) (Json.lookup n.2 m'))

def Alike : Json → Json → Prop := Memberwise AgreeOnNames

theorem count_congr {m m' : List (Text × Json)} {name other : Text}
    (h : Option.Rel Json.Outline (Json.lookup name m) (Json.lookup name m') ∧
      (Json.lookup name m = none →
        Option.Rel Json.Outline (Json.lookup other m) (Json.lookup other m'))) :
    count m name other = count m' name other := by
  obtain ⟨hname, hother⟩ := h
  unfold count
  generalize Json.lookup name m = found at hname hother ⊢
  generalize Json.lookup name m' = found' at hname ⊢
  cases hname with
  | none => exact respects_natural.optional (hother rfl)
  | some h => exact congrArg (Checked.within (.key name)) (respects_natural h)

theorem respects_ofJson : Respects ofJson Alike := by
  refine .memberwise (fun m m' h => ?_) fun _ _ => rfl
  simp only [names, AgreeOnNames, List.forall_mem_cons] at h
  obtain ⟨h₁, h₂, h₃, h₄, -⟩ := h
  simp only [ofJson, count_congr h₁, count_congr h₂, count_congr h₃, count_congr h₄]

end IssueCounts

namespace Document

/-- The members of which the whole value counts. -/
def plainKeys : List Text :=
  ["project_key", "commit_sha", "pull_request_id", "quality_gate_status", "dashboard_url",
    "base_image_url", "analysis_date", "coverage", "duplication", "failed_conditions",
    "issue_count"]

def keys : List Text := "issue_counts" :: "annotations" :: plainKeys

/-- Documents that agree on all that counts: on the plain members as they are, and on the counts and
the entries as far as these are known. -/
structure Alike (m m' : List (Text × Json)) : Prop where
  plain : Json.AgreeOn plainKeys m m'
  counts : Option.Rel IssueCounts.Alike (Json.lookup "issue_counts" m)
    (Json.lookup "issue_counts" m')
  annotations : Option.Rel (Itemwise Finding.Alike) (Json.lookup "annotations" m)
    (Json.lookup "annotations" m')

variable {m m' : List (Text × Json)}

theorem Alike.ofMembers_eq (h : Alike m m') : ofMembers m = ofMembers m' := by
  have hplain := h.plain
  simp only [plainKeys, Json.AgreeOn, List.forall_mem_cons] at hplain
  obtain ⟨hproject, hcommit, hpullRequest, hgate, hdashboard, himage, hdate, hcoverage,
    hduplication, hconditions, hcount, -⟩ := hplain
  unfold ofMembers
  rw [respects_text.required hproject, respects_nonemptyText.required hcommit,
    respects_positive.required hpullRequest, (respects_choice _).required hgate,
    respects_text.required hdashboard, respects_text.optional himage,
    respects_dateTime.required hdate, IssueCounts.respects_ofJson.optional h.counts,
    respects_number.nullable.optional hcoverage, respects_number.nullable.optional hduplication,
    respects_texts.optional hconditions, respects_natural.nullable.optional hcount,
    Finding.respects_ofJson.list.optional h.annotations]

end Document

/-! ### Edits that make no difference -/

/-- An edit of counts: of a member that is not known, or one that puts in a count under its second
name where there is one under its first. -/
inductive IssueCounts.Edit : List (Text × Json) → List (Text × Json) → Prop
  | unknown {m m' : List (Text × Json)} (h : Json.Edit keys m m') : Edit m m'
  | shadowed (before after : List (Text × Json)) {n : Text × Text} (value : Json) (hn : n ∈ names)
    (hgiven : Json.lookup n.1 (before ++ after) ≠ none) :
    Edit (before ++ after) (before ++ (n.2, value) :: after)

/-- An edit of a document, of its counts or of one of its entries. -/
inductive Document.Edit : List (Text × Json) → List (Text × Json) → Prop
  | member {m m' : List (Text × Json)} (h : Json.Edit keys m m') : Edit m m'
  | count (before after : List (Text × Json)) {m m' : List (Text × Json)}
    (h : IssueCounts.Edit m m') :
    Edit (before ++ (("issue_counts" : Text), Json.object m) :: after)
      (before ++ (("issue_counts" : Text), Json.object m') :: after)
  | entry (before after : List (Text × Json)) (front back : List Json) {m m' : List (Text × Json)}
    (h : Json.Edit Finding.keys m m') :
    Edit (before ++ (("annotations" : Text), Json.array (front ++ .object m :: back)) :: after)
      (before ++ (("annotations" : Text), Json.array (front ++ .object m' :: back)) :: after)

variable {m m' : List (Text × Json)}

theorem IssueCounts.names_apart : ∀ n ∈ names, ∀ n' ∈ names,
    n.2 ≠ n'.1 ∧ (n.2 = n'.2 → n = n') := by decide

theorem IssueCounts.Edit.agreeOnNames (h : Edit m m') : AgreeOnNames m m' := by
  intro n' hn'
  cases h with
  | unknown h =>
    have hmem : n'.1 ∈ keys ∧ n'.2 ∈ keys :=
      ⟨List.mem_flatMap.mpr ⟨n', hn', by simp⟩, List.mem_flatMap.mpr ⟨n', hn', by simp⟩⟩
    exact ⟨h.agreeOn _ hmem.1, fun _ => h.agreeOn _ hmem.2⟩
  | shadowed before after value hn hgiven =>
    obtain ⟨hfirst, hsecond⟩ := names_apart _ hn _ hn'
    refine ⟨Json.rel_of_eq .same (Json.lookup_put hfirst value).symm, fun hnone => ?_⟩
    refine Json.rel_of_eq .same (Json.lookup_put (fun heq => hgiven ?_) value).symm
    rw [hsecond heq, hnone]

/-- An edit leaves alone all that counts. -/
theorem Document.Edit.alike (h : Edit m m') : Alike m m' := by
  have hcounts : ∀ j, IssueCounts.Alike j j := .same
  have hentries : ∀ j, Itemwise Finding.Alike j j := .same
  cases h with
  | member h =>
    have hsame : ∀ key ∈ keys, Json.lookup key m = Json.lookup key m' := fun _ => h.lookup_eq
    exact {
      plain := fun key hkey => Json.rel_of_eq .same (hsame key (.tail _ (.tail _ hkey)))
      counts := Json.rel_of_eq hcounts (hsame _ (.head _))
      annotations := Json.rel_of_eq hentries (hsame _ (.tail _ (.head _))) }
  | count before after h =>
    have hplain : ∀ key ∈ plainKeys, ("issue_counts" : Text) ≠ key := by decide
    exact {
      plain := fun key hkey =>
        Json.rel_of_eq .same (Json.lookup_replace_of_ne before after (hplain key hkey) _ _)
      counts := Json.rel_lookup_replace hcounts before after _ (.members h.agreeOnNames) _
      annotations :=
        Json.rel_of_eq hentries (Json.lookup_replace_of_ne before after (by decide) _ _) }
  | entry before after front back h =>
    have hplain : ∀ key ∈ plainKeys, ("annotations" : Text) ≠ key := by decide
    have hitems : ∀ items : List Json, List.Forall₂ Finding.Alike items items :=
      fun items => List.forall₂_same.mpr fun j _ => .same j
    have hlist := List.rel_append (hitems front) (.cons (.members h.agreeOn) (hitems back))
    exact {
      plain := fun key hkey =>
        Json.rel_of_eq .same (Json.lookup_replace_of_ne before after (hplain key hkey) _ _)
      counts := Json.rel_of_eq hcounts (Json.lookup_replace_of_ne before after (by decide) _ _)
      annotations := Json.rel_lookup_replace hentries before after _ (.items hlist) _ }

namespace Analysis

theorem ofJson_eq_of_alike (h : Document.Alike m m') :
    ofJson (.object m) = ofJson (.object m') := by
  have hread : Document.ofJson (.object m) = Document.ofJson (.object m') := h.ofMembers_eq
  rw [ofJson, ofJson, hread]

theorem ofJson_eq_of_edits (h : Relation.EqvGen Document.Edit m m') :
    ofJson (.object m) = ofJson (.object m') := by
  induction h with
  | rel _ _ h => exact ofJson_eq_of_alike h.alike
  | refl => rfl
  | symm _ _ _ ih => exact ih.symm
  | trans _ _ _ _ _ ih ih' => exact ih.trans ih'

/-- The outcome, be it an analysis or a list of problems, depends on the known members alone; and
no edits of the others, there and back in any number, make a difference to it. -/
theorem ofJson_determined :
    (∀ m m', Document.Alike m m' → ofJson (.object m) = ofJson (.object m')) ∧
    ∀ m m', Relation.EqvGen Document.Edit m m' → ofJson (.object m) = ofJson (.object m') :=
  ⟨fun _ _ => ofJson_eq_of_alike, fun _ _ => ofJson_eq_of_edits⟩

namespace Sample

def given : List (Text × Json) :=
  [("commit_sha", .string "c0ffee"), ("issue_counts", .object [("BUG", .int 1)])]

def reordered : List (Text × Json) := given.reverse

/-- With a second count of bugs. -/
def recounted : List (Text × Json) :=
  [("issue_counts", .object [("bugs", .string "many"), ("BUG", .int 1)]),
    ("commit_sha", .string "c0ffee")]

def annotated : List (Text × Json) := recounted ++ [(("note" : Text), Json.null)]

theorem edit_reordered : Document.Edit given reordered := .member (.swap [] [] (by decide))

theorem edit_recounted : Document.Edit reordered recounted :=
  .count [] [("commit_sha", .string "c0ffee")]
    (@IssueCounts.Edit.shadowed [] [("BUG", .int 1)] ("BUG", "bugs") (.string "many") (by decide)
      nofun)

theorem edit_annotated : Document.Edit recounted annotated :=
  .member (.put recounted [] .null (by decide))

theorem edits_annotated : Relation.EqvGen Document.Edit given annotated :=
  .trans _ _ _ (.rel _ _ edit_reordered)
    (.trans _ _ _ (.rel _ _ edit_recounted) (.rel _ _ edit_annotated))

end Sample

theorem ofJson_determined_sample :
    (Document.Alike Sample.reordered Sample.recounted ∧
      ofJson (.object Sample.reordered) = ofJson (.object Sample.recounted)) ∧
    Relation.EqvGen Document.Edit Sample.given Sample.annotated ∧
      ofJson (.object Sample.given) = ofJson (.object Sample.annotated) :=
  ⟨⟨Sample.edit_recounted.alike, ofJson_determined.1 _ _ Sample.edit_recounted.alike⟩,
    Sample.edits_annotated, ofJson_determined.2 _ _ Sample.edits_annotated⟩

end Analysis

end PullGate
