import PullGate.Proofs.CommandLine.Status
import PullGate.Proofs.CommandLine.Switches
import PullGate.Proofs.Decoration.Verdict
import PullGate.Proofs.Json.Indented
import PullGate.Proofs.Text.Cut

/-! What the command prints.  Whether it is asked for JSON makes no difference to what it sends and
to its exit status; and the outcome of a decoration can be read back from what it prints, from the
JSON in full and from a line of text as far as that tells of it. -/

namespace PullGate

open Decoration

/-! ### The number of annotations -/

namespace Decoration

variable {s : Setup} {a : Analysis} {approval : Bool}

theorem prefix_of_untilFatal (errands : List Errand) (q : List Answer) :
    (untilFatal errands q).map Prod.fst <+: errands := by
  induction errands generalizing q with
  | nil => exact List.prefix_rfl
  | cons e errands ih =>
    rw [untilFatal, List.map_cons]
    refine List.cons_prefix_cons.mpr ⟨rfl, ?_⟩
    split
    · exact List.nil_prefix
    · exact ih _

theorem map_fst_posted (course : List (Errand × Answer)) :
    (posted course).map Prod.fst = (course.map Prod.fst).filterMap Errand.batch? := by
  rw [posted, List.map_filterMap, List.filterMap_map]
  refine List.filterMap_congr fun x _ => ?_
  obtain ⟨e, answer⟩ := x
  cases e <;> rfl

/-- No more annotations are reported than there are in the batches. -/
theorem reported_le (s : Setup) (approval : Bool) (a : Analysis) (q : List Answer) :
    reported (posted (untilFatal (schedule s approval a q) q)) ≤ (batches s a).flatten.length := by
  unfold reported
  split
  · exact Nat.zero_le _
  · have htaken : (taken (posted (untilFatal (schedule s approval a q) q))).Sublist
        (batches s a) := by
      refine List.Sublist.trans (List.filter_sublist.map Prod.fst) ?_
      rw [map_fst_posted]
      exact ((prefix_of_untilFatal _ q).sublist.filterMap _).trans (batches_of_schedule q).sublist
    exact htaken.flatten.length_le

end Decoration

namespace Client

/-- A decoration reports no more annotations than the host takes. -/
theorem count_le {c : Client} {approval : Bool} {a : Analysis} {w : Wire} {outcome : Outcome}
    (h : (c.decorate approval a w).1 = .ok outcome) : outcome.upload.count ≤ 1000 := by
  obtain ⟨said, -, -, -, hvalue⟩ := serves_decorate c approval a w
  obtain ⟨upload, hcount, hrun⟩ :=
    value_run c.setup approval a rfl c.batchSize_pos (said.map Prod.snd)
  have hbatches : (batches c.setup a).flatten.length ≤ 1000 := by
    have hallowed : Batch.allowed c.setup.capabilities.limit = 10 := rfl
    have hsize : c.setup.capabilities.limit.batchSize.toNat - 1 = 99 := rfl
    rw [batches, cut, hallowed, hsize, Batch.flatten_take_slices]
    exact List.length_take_le _ _
  have hle : upload.count ≤ 1000 := by
    rw [hcount]
    exact (reported_le _ _ _ _).trans hbatches
  rw [← hvalue, hrun] at h
  unfold conclusion at h
  split at h
  · obtain rfl := Except.ok.inj h
    exact hle
  · obtain rfl := Except.ok.inj h
    exact hle
  · cases h

end Client

/-! ### The outcome as JSON -/

namespace Outcome

/-- The four fields of an outcome, as they are read back: what names a character by the two halves
of a pair is read as that character. -/
def fields (o : Outcome) : Json :=
  .object [("decorated", .bool o.isDecorated), ("annotations_uploaded", .int o.upload.count),
    ("annotations_truncated", .bool o.upload.truncated),
    ("error", match o.error? with
      | some text => .string (Json.joinHalves text)
      | none => .null)]

theorem fields_eq_toJson {o : Outcome} (h : ∀ text ∈ o.error?, Text.isUnicode text = true) :
    o.fields = o.toJson := by
  unfold fields toJson
  cases herror : o.error? with
  | none => rfl
  | some text =>
    have hjoined := Json.joinHalves_of_joined (Text.joined_of_isUnicode (h text herror))
    simp only [hjoined]

theorem writeIndented_fields (o : Outcome) : o.fields.writeIndented = o.toJson.writeIndented := by
  unfold fields toJson
  cases herror : o.error? with
  | none => rfl
  | some text =>
    have hstring : Json.writeString (Json.joinHalves text) = Json.writeString text := by
      rw [Json.writeString, Json.writeString, Json.flatMap_escape_joinHalves]
    simp only [Json.writeIndented, Json.writeAt, Json.writeMembersAt, Json.write, hstring]

theorem faithful_fields {o : Outcome} (h : o.upload.count ≤ 1000) (depth : Nat) :
    Json.Faithful (depth + 1) o.fields := by
  have hcount : (o.upload.count : Int).natAbs < 10 ^ Json.digitLimit := by
    rw [Int.natAbs_natCast]
    calc o.upload.count ≤ 1000 := h
      _ < 10 ^ 4 := by decide
      _ ≤ 10 ^ Json.digitLimit := Nat.pow_le_pow_right (by decide) (by decide)
  refine .ofKeys ["decorated", "annotations_uploaded", "annotations_truncated", "error"] (by decide)
    rfl rfl ?_
  simp only [List.forall_mem_cons]
  refine ⟨.bool _, .int hcount, .bool _, ?_, List.forall_mem_nil _⟩
  split
  · exact .string (Json.joined_joinHalves _)
  · exact .null

/-- What is printed of an outcome is read as its four fields. -/
theorem read_printed {o : Outcome} (h : o.upload.count ≤ 1000) :
    Json.read (o.toJson.writeIndented ++ ("\n" : Text)) = .ok o.fields := by
  rw [← writeIndented_fields]
  exact (faithful_fields h 989).read_writeIndented

end Outcome

namespace CommandLine

/-! ### The line of text -/

/-- Reads the line on a pull request that was decorated: its number, how many annotations there are,
and whether some were left out. -/
def readSummary? (t : Text) : Option (Nat × Nat × Bool) := do
  let t ← Text.dropPrefix? "Decorated pull request #" t
  let pullRequest ← Text.toNat? (Text.spanDigits t).1
  let t ← Text.dropPrefix? ": " (Text.spanDigits t).2
  let count ← Text.toNat? (Text.spanDigits t).1
  let t ← Text.dropPrefix? " annotation(s) uploaded" (Text.spanDigits t).2
  if t = ".\n" then return (pullRequest, count, false)
  else if t = " (truncated).\n" then return (pullRequest, count, true)
  else none

/-- The end of a summary, behind its numbers. -/
def summaryEnd (truncated : Bool) : Text := if truncated then " (truncated).\n" else ".\n"

theorem summary_eq (a : Analysis) (upload : Upload) : summary a upload =
    ("Decorated pull request #" : Text) ++ (Text.ofNat a.pullRequest ++ ((": " : Text) ++
      (Text.ofNat upload.count ++
        ((" annotation(s) uploaded" : Text) ++ summaryEnd upload.truncated)))) := by
  unfold summary summaryEnd
  cases upload.truncated <;> simp [Text.ofString]

/-- A summary is read back. -/
theorem readSummary?_summary (a : Analysis) (upload : Upload) :
    readSummary? (summary a upload) = some (a.pullRequest, upload.count, upload.truncated) := by
  have hspan : ∀ (n : Nat) (t : Text), (∀ c ∈ t.head?, c.isDigit = false) →
      Text.spanDigits (Text.ofNat n ++ t) = (Text.ofNat n, t) :=
    fun n t ht => Text.spanDigits_append (Text.all_isDigit_ofNat n) ht
  have hcolon : ∀ (t : Text), ∀ c ∈ ((": " : Text) ++ t).head?, c.isDigit = false := by
    intro t c hc
    obtain rfl := Option.some.inj hc
    rfl
  have hblank : ∀ (t : Text), ∀ c ∈ ((" annotation(s) uploaded" : Text) ++ t).head?,
      c.isDigit = false := by
    intro t c hc
    obtain rfl := Option.some.inj hc
    rfl
  rw [summary_eq, readSummary?]
  simp only [Text.dropPrefix?_append, Option.bind_eq_bind, Option.bind_some, hspan _ _ (hcolon _),
    hspan _ _ (hblank _), Text.toNat?_ofNat]
  cases upload.truncated <;> rfl

/-- One line, with its end. -/
def IsLine (t : Text) : Prop := ∃ line : Text, t = line ++ ("\n" : Text) ∧ .scalar '\n' ∉ line

theorem isLine_summary (a : Analysis) (upload : Upload) : IsLine (summary a upload) := by
  have hend : ∃ line : Text, summaryEnd upload.truncated = line ++ ("\n" : Text) ∧
      .scalar '\n' ∉ line := by
    cases upload.truncated
    · exact ⟨".", by decide⟩
    · exact ⟨" (truncated).", by decide⟩
  obtain ⟨line, hline, hline'⟩ := hend
  refine ⟨("Decorated pull request #" : Text) ++ (Text.ofNat a.pullRequest ++ ((": " : Text) ++
    (Text.ofNat upload.count ++ ((" annotation(s) uploaded" : Text) ++ line)))), ?_, ?_⟩
  · rw [summary_eq, hline]
    simp only [List.append_assoc]
  · simp only [List.mem_append, not_or]
    exact ⟨by decide, Text.not_mem_ofNat rfl _, by decide, Text.not_mem_ofNat rfl _, by decide,
      hline'⟩

/-- The mark of a summary that annotations were left out. -/
def truncatedMark : Text := "(truncated)"

theorem truncatedMark_infix_summary_iff (a : Analysis) (upload : Upload) :
    truncatedMark <:+: summary a upload ↔ upload.truncated = true := by
  -- without the mark there is only one bracket, and what stands behind it is no mark
  let front : Text := ("Decorated pull request #" : Text) ++ (Text.ofNat a.pullRequest ++
    ((": " : Text) ++ (Text.ofNat upload.count ++ (" annotation" : Text))))
  have hfront : .scalar '(' ∉ front := by
    simp only [front, List.mem_append, not_or]
    exact ⟨by decide, Text.not_mem_ofNat rfl _, by decide, Text.not_mem_ofNat rfl _, by decide⟩
  have hsummary : summary a upload =
      front ++ .scalar '(' :: (("s) uploaded" : Text) ++ summaryEnd upload.truncated) := by
    rw [summary_eq]
    simp [front, Text.ofString]
  rw [hsummary]
  cases upload.truncated with
  | true =>
    refine iff_of_true ⟨front ++ ("(s) uploaded " : Text), (".\n" : Text), ?_⟩ rfl
    simp [truncatedMark, summaryEnd, Text.ofString]
  | false =>
    refine iff_of_false ?_ Bool.false_ne_true
    rintro ⟨before, after, heq⟩
    have hmark : before ++ truncatedMark ++ after =
        before ++ .scalar '(' :: (("truncated)" : Text) ++ after) := by
      simp [truncatedMark, Text.ofString]
    have hbehind : .scalar '(' ∉ ("s) uploaded" : Text) ++ summaryEnd false := by decide
    rw [hmark, eq_comm, List.append_cons_inj_of_notMem hfront hbehind] at heq
    exact absurd (List.cons.inj heq.2.2).1 (by decide)

/-! ### Runs with and without the switch -/

/-- Whether JSON is asked for has no part in what is decorated. -/
theorem Decorates.setJson {s : Surroundings} {arguments arguments' : List Text} {path : Text}
    {a : Arguments} {settings : Settings} {analysis : Analysis} {json : Bool}
    (h : Decorates s arguments a settings analysis)
    (hpath : Arguments.read arguments = .ok (.run path a))
    (hread : Arguments.read arguments' = .ok (.run path { a with json := json })) :
    Decorates s arguments' { a with json := json } settings analysis := by
  obtain ⟨path', harguments, hload⟩ := h.analysis
  obtain ⟨rfl, -⟩ := Request.run.inj (Except.ok.inj (harguments.symm.trans hpath))
  exact ⟨⟨path', hread, hload⟩, h.level, h.settings⟩

/-- How a run is told of on the standard output: as JSON that is read back as the outcome, or, if
the pull request was decorated, by one line from which its numbers are read back. -/
structure Tells (json : Bool) (stdout : Text) (analysis : Analysis) (outcome : Outcome) : Prop where
  fields : json = true → Json.read stdout = .ok outcome.fields
  unicode : json = true → (∀ text ∈ outcome.error?, Text.isUnicode text = true) →
    Json.read stdout = .ok outcome.toJson
  line : json = false → outcome.isDecorated = true → IsLine stdout
  numbers : json = false → outcome.isDecorated = true → readSummary? stdout =
    some (analysis.pullRequest, outcome.upload.count, outcome.upload.truncated)
  mark : json = false → outcome.isDecorated = true →
    (truncatedMark <:+: stdout ↔ outcome.upload.truncated = true)

theorem tells_tell {a : Arguments} {analysis : Analysis} {outcome : Outcome}
    (hcount : outcome.upload.count ≤ 1000) :
    Tells a.json (tell a.json analysis outcome).1 analysis outcome := by
  have hread := Outcome.read_printed hcount
  have hsummary : a.json = false → outcome.isDecorated = true →
      (tell a.json analysis outcome).1 = summary analysis outcome.upload := by
    intro hjson hdecorated
    simp [tell, hjson, hdecorated]
  refine ⟨fun hjson => ?_, fun hjson hunicode => ?_, fun hjson hdecorated => ?_,
    fun hjson hdecorated => ?_, fun hjson hdecorated => ?_⟩
  · rw [tell, if_pos hjson]
    exact hread
  · rw [tell, if_pos hjson, hread, Outcome.fields_eq_toJson hunicode]
  · rw [hsummary hjson hdecorated]
    exact isLine_summary _ _
  · rw [hsummary hjson hdecorated]
    exact readSummary?_summary _ _
  · rw [hsummary hjson hdecorated]
    exact truncatedMark_infix_summary_iff _ _

/-- A run that decorates and ends with a status has an outcome. Arguments that differ in no more
than the switch for JSON make a run of the same requests and the same status, which tells of that
outcome; and the switch may always be given, and left out. -/
theorem tells_run (s : Surroundings) (replies : List Http.Reply) (arguments : List Text)
    {a : Arguments} {settings : Settings} {analysis : Analysis}
    (h : Decorates s arguments a settings analysis) (hcloud : s.capabilities = .cloud)
    {status : Nat} (hstatus : (run s replies arguments).status = .ok status) :
    ∃ outcome path, ((client s settings).decorate (approval a settings) analysis { replies }).1 =
        .ok outcome ∧
      (∀ (arguments' : List Text) (path' : Text) (a' : Arguments),
        Arguments.read arguments' = .ok (.run path' a') →
        Arguments.without .json arguments' = Arguments.without .json arguments →
        (run s replies arguments').wire = (run s replies arguments).wire ∧
          (run s replies arguments').status = .ok status ∧
          Tells a'.json (run s replies arguments').stdout analysis outcome) ∧
      (Arguments.read ("--json" :: arguments) = .ok (.run path { a with json := true }) ∧
        Arguments.without .json ("--json" :: arguments) = Arguments.without .json arguments) ∧
      Arguments.read (Arguments.without .json arguments) =
          .ok (.run path { a with json := false }) ∧
        Arguments.without .json (Arguments.without .json arguments) =
          Arguments.without .json arguments := by
  obtain ⟨outcome, houtcome⟩ := h.exists_outcome hcloud hstatus
  obtain ⟨path, hpath, -⟩ := h.analysis
  have hclear := Arguments.read_without hpath .json
  refine ⟨outcome, path, houtcome, fun arguments' path' a' hread hwithout => ?_,
    ⟨Arguments.read_cons_json hpath, Arguments.without_cons_json arguments⟩, hclear,
    Arguments.without_without .json arguments⟩
  have hclear' := Arguments.read_without hread .json
  rw [hwithout, hclear] at hclear'
  obtain ⟨rfl, hsame⟩ := Request.run.inj (Except.ok.inj hclear')
  have ha' : a' = { a with json := a'.json } := by
    obtain ⟨p, ap, pr, re, js⟩ := a
    obtain ⟨p', ap', pr', re', js'⟩ := a'
    simpa [Arguments.clear] using hsame.symm
  rw [ha'] at hread
  have hdecorates := h.setJson hpath hread
  have hreports : Reports { a with json := a'.json } analysis (run s replies arguments') outcome :=
    hdecorates.reports hcloud houtcome
  have hreported := (h.reports hcloud houtcome).status
  refine ⟨(hdecorates.wire_eq hcloud replies).trans (h.wire_eq hcloud replies).symm,
    hreports.status.trans (hreported.symm.trans hstatus), ?_⟩
  rw [hreports.stdout]
  exact tells_tell (Client.count_le houtcome)

namespace Sample

/-- Replies on which a decoration without annotations comes to its end. -/
def success : List Http.Reply :=
  [.ok (Decoration.Sample.response 404), .ok (Decoration.Sample.response 200),
    .ok Decoration.Sample.unlisted, .ok (Decoration.Sample.response 201)]

end Sample

/-- A pull request that is decorated, told of by a line and as JSON. -/
theorem tells_run_sample :
    Decorates Sample.surroundings Sample.arguments Sample.parsed Sample.settings Sample.analysis ∧
    Sample.surroundings.capabilities = .cloud ∧
    (run Sample.surroundings Sample.success Sample.arguments).status = .ok 0 ∧
    ∃ outcome, ((client Sample.surroundings Sample.settings).decorate
        (approval Sample.parsed Sample.settings) Sample.analysis
        { replies := Sample.success }).1 = .ok outcome ∧
      outcome.isDecorated = true ∧
      (run Sample.surroundings Sample.success ("--json" :: Sample.arguments)).status = .ok 0 ∧
      Tells true (run Sample.surroundings Sample.success ("--json" :: Sample.arguments)).stdout
        Sample.analysis outcome ∧
      Tells false (run Sample.surroundings Sample.success Sample.arguments).stdout
        Sample.analysis outcome := by
  have hzero : (run Sample.surroundings Sample.success Sample.arguments).status.toOption =
      some 0 := by decide +kernel
  have hdecorated : ((client Sample.surroundings Sample.settings).decorate
      (approval Sample.parsed Sample.settings) Sample.analysis
      { replies := Sample.success }).1.toOption.any Outcome.isDecorated = true := by
    decide +kernel
  have hstatus : (run Sample.surroundings Sample.success Sample.arguments).status = .ok 0 := by
    cases hresult : (run Sample.surroundings Sample.success Sample.arguments).status with
    | ok status =>
      rw [hresult] at hzero
      exact congrArg _ (Option.some.inj hzero)
    | error crash =>
      rw [hresult] at hzero
      cases hzero
  obtain ⟨outcome, path, houtcome, hruns, ⟨hread, hwithout⟩, -⟩ := tells_run Sample.surroundings
    Sample.success Sample.arguments Sample.decorates rfl hstatus
  rw [houtcome] at hdecorated
  obtain ⟨path', harguments, -⟩ := Sample.decorates.analysis
  obtain ⟨-, hjson, htold⟩ := hruns _ _ _ hread hwithout
  exact ⟨Sample.decorates, rfl, hstatus, outcome, houtcome, hdecorated, hjson, htold,
    (hruns _ _ _ harguments rfl).2.2⟩

end CommandLine

end PullGate
