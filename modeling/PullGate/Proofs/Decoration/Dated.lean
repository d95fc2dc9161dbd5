import PullGate.Proofs.Calendar.RoundTrip
import PullGate.Proofs.Decoration.Verdict

/-! The date of a report.  Whatever spelling of a date-time was accepted from a file, the one that
the report carries is accepted as well, and stands for the same date-time. -/

namespace PullGate

open Decoration

/-! ### Date-times that are checked again -/

/-- A date-time that was accepted is accepted again in the form in which requests carry it. -/
theorem Check.dateTime_writeWire {j : Json} {d : DateTime} (h : dateTime j = .ok d) :
    dateTime (.string d.writeWire) = .ok d := by
  have hread := DateTime.read_writeWire (regular_of_dateTime h)
  have hunicode := d.isAscii_writeWire.isUnicode
  simp [dateTime, hunicode, hread]

/-- A count of milliseconds, and the same in a text. -/
example : (Check.dateTime (.int 1714557600250)).map DateTime.writeWire =
      .ok "2024-05-01T10:00:00.250000Z" ∧
    (Check.dateTime (.string "1714557600250")).map DateTime.writeWire =
      .ok "2024-05-01T10:00:00.250000Z" := by decide +kernel

/-- The date of a loaded analysis was accepted from its file. -/
theorem Analysis.dateTime_of_load {room : Json.Room} {files : FileSystem} {path : Text}
    {a : Analysis} (h : load room files path = .ok a) :
    ∃ text members j, files.document? path = some text ∧
      Json.read text = .ok (.object members) ∧ Json.lookup "analysis_date" members = some j ∧
      Check.dateTime j = .ok a.date := by
  obtain ⟨text, members, document, htext, hread, hmembers, rfl⟩ := exists_document_of_load h
  obtain ⟨j, hj, hdate⟩ := Check.required_eq_ok_iff.mp hmembers.date
  exact ⟨text, members, j, htext, hread, hj, hdate⟩

/-! ### Requests that carry a date -/

namespace Decoration

variable {s : Setup} {a : Analysis} {e : Errand} {r : Http.Request}

/-- The text under a key of a body is that of what the body was written from. -/
theorem text?_of_makes (ha : a.Writable) (hbatch : ∀ batch ∈ e.batch?, batch ∈ batches s a)
    (hmakes : (e.call s a).Makes r) (key : Text) :
    r.text? key = ((e.call s a).body).bind (Json.text? key) := by
  unfold Http.Request.text?
  rw [hmakes.body]
  cases hj : (e.call s a).body with
  | none => rfl
  | some j =>
    obtain ⟨hread, -⟩ := Errand.says_body ha hbatch hj
    simp only [Option.map_some, Option.bind_eq_bind, Option.bind_some, hread]
    rfl

theorem createdOn_putReport : ((Errand.putReport.call s a).body).bind (Json.text? "created_on") =
    some a.date.writeWire := rfl

/-- Only the report has a date. -/
theorem eq_putReport_of_createdOn {t : Text}
    (h : ((e.call s a).body).bind (Json.text? "created_on") = some t) : e = .putReport := by
  cases e with
  | putReport => rfl
  | _ => cases h

end Decoration

namespace Client

variable {c : Client} {approval : Bool} {a : Analysis} {w : Wire} {r : Http.Request}

/-- Each request of a decoration was made for an errand, and those with annotations for one of the
batches. -/
theorem exists_errand_of_mem_requests (hr : r ∈ c.requests approval a w) :
    ∃ e : Errand, (e.call c.setup a).Makes r ∧
      ∀ batch ∈ e.batch?, batch ∈ batches c.setup a := by
  obtain ⟨hop, hhop, rfl⟩ := List.mem_map.mp hr
  obtain ⟨hhop, hcall⟩ := List.mem_filter.mp hhop
  obtain ⟨q, parts, htraffic, hparts⟩ := c.exists_scheduled_parts approval a w
  rw [htraffic] at hhop
  obtain ⟨p, hp, hhop⟩ := List.mem_flatMap.mp hhop
  obtain ⟨hscheduled, hsettles⟩ := hparts p hp
  refine ⟨p.errand, hsettles.makes hop hhop (by simpa using hcall), fun batch hbatch => ?_⟩
  exact (batches_of_schedule q).subset (List.mem_filterMap.mpr ⟨p.errand, hscheduled, hbatch⟩)

/-- Whatever analysis was loaded, and whatever the service answers: the report and no other request
has a creation date, and the check on dates accepts it as the very date that it accepted from the
file. -/
theorem dated_decorate (c : Client) (approval : Bool) {room : Json.Room} {files : FileSystem}
    {path : Text} {a : Analysis} (hload : Analysis.load room files path = .ok a) (w : Wire) :
    (∃ text members j, files.document? path = some text ∧ Json.read text = .ok (.object members) ∧
      Json.lookup "analysis_date" members = some j ∧ Check.dateTime j = .ok a.date) ∧
    ∀ r ∈ c.requests approval a w,
      ((Errand.putReport.call c.setup a).Makes r → ∃ t, r.text? "created_on" = some t) ∧
      ∀ t, r.text? "created_on" = some t → (Errand.putReport.call c.setup a).Makes r ∧
        Check.dateTime (.string t) = .ok a.date := by
  have ha := Analysis.writable_of_load hload
  obtain ⟨text, members, j, htext, hread, hj, hdate⟩ := Analysis.dateTime_of_load hload
  refine ⟨⟨text, members, j, htext, hread, hj, hdate⟩, fun r hr => ⟨fun hmakes => ?_, ?_⟩⟩
  · have hbatch : ∀ batch ∈ Errand.putReport.batch?, batch ∈ batches c.setup a :=
      fun _ h => nomatch h
    exact ⟨a.date.writeWire, (text?_of_makes ha hbatch hmakes _).trans createdOn_putReport⟩
  · intro t ht
    obtain ⟨e, hmakes, hbatch⟩ := exists_errand_of_mem_requests hr
    rw [text?_of_makes ha hbatch hmakes] at ht
    obtain rfl := eq_putReport_of_createdOn ht
    rw [createdOn_putReport] at ht
    obtain rfl := Option.some.inj ht
    exact ⟨hmakes, Check.dateTime_writeWire hdate⟩

/-- A report with a date that has no offset. -/
theorem dated_decorate_sample : ∃ a,
    Analysis.load .usual Sample.directory.system "analysis.json" = .ok a ∧
    ∃ r ∈ Sample.client.requests true a Sample.success,
      r.text? "created_on" = some "2024-05-01T10:00:00" ∧
        Check.dateTime (.string "2024-05-01T10:00:00") = .ok a.date := by
  have hdated : (Analysis.load .usual Sample.directory.system
      "analysis.json").toOption.any (fun a =>
      (Sample.client.requests true a Sample.success).any fun r =>
        r.text? "created_on" = some "2024-05-01T10:00:00") = true := by
    decide +kernel
  obtain ⟨a, hload⟩ := Sample.load_document
  rw [hload, Except.toOption, Option.any_some] at hdated
  obtain ⟨r, hr, htext⟩ := List.any_eq_true.mp hdated
  obtain ⟨-, hrequests⟩ := dated_decorate Sample.client true hload Sample.success
  have htext := of_decide_eq_true htext
  exact ⟨a, hload, r, hr, htext, ((hrequests r hr).2 _ htext).2⟩

end Client

end PullGate
