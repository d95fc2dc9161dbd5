import PullGate.Proofs.Decoration.Batches

/-! The schedule of a run: the errands that it has on given answers, in their order.  A run makes
the calls of its schedule, up to the first that is fatal, and no others. -/

namespace PullGate.Decoration

open Run Client

variable {s : Setup} {a : Analysis} {approval : Bool} {q : List Answer}

/-- The errand by which an approval is settled, if it is to be. -/
def settlement (approval : Bool) (a : Analysis) : List Errand :=
  if approval then [if a.passed then .approve else .unapprove] else []

/-- What comes before the summary comment. -/
def preface (s : Setup) (approval : Bool) (a : Analysis) (answers : List Answer) : List Errand :=
  [.clearReport, .putReport] ++ (posts (batches s a) (answers.drop 2) ++ settlement approval a)

/-- All errands of a run. The last of them depends on the answer to the one before it. -/
def schedule (s : Setup) (approval : Bool) (a : Analysis) (answers : List Answer) : List Errand :=
  let before := preface s approval a answers
  before ++ [.findComment, .writeComment (foundIn (Answer.next (answers.drop before.length)))]

/-- What a run has left to do once the annotations are uploaded. -/
def closing (approval : Bool) (a : Analysis) (answers : List Answer) : List Errand :=
  settlement approval a ++ [.findComment, .writeComment
    (foundIn (Answer.next (answers.drop (settlement approval a).length)))]

theorem ends_settlement (q : List Answer) :
    (if approval then settleApproval s a else pure () : Run Unit).Ends s a q
      (settlement approval a) := by
  unfold settlement settleApproval
  cases approval with
  | false => exact (quiet_pure ()).ends q
  | true =>
    cases a.passed with
    | true => exact ends_approve q
    | false => exact ends_unapprove q

theorem ends_conclude (upload : Upload) (q : List Answer) :
    (conclude s approval a upload).Ends s a q (closing approval a q) := by
  have hconclude : conclude s approval a upload =
      ((if approval then settleApproval s a else pure ()) >>= fun _ =>
        s.client.publishComment s.repository a.pullRequest a >>= fun _ =>
          pure (.decorated upload)) := by
    unfold conclude
    cases approval <;> rfl
  rw [hconclude]
  apply (ends_settlement q).bind _
  intro _ _
  apply (ends_publishComment _).bind []
  intro _ _
  exact (quiet_pure _).ends _

/-- A foreseen failure becomes an outcome without a call. -/
theorem said_stoppable (upload : Upload) (r : Run Outcome) (q : List Answer) :
    ((stoppable upload r).play q).said = (r.play q).said := by
  unfold stoppable
  rw [play_tryCatch]
  cases (r.play q).value with
  | ok v => rfl
  | error e => cases e <;> simp [play_pure, play_throw]

theorem schedule_eq (s : Setup) (approval : Bool) (a : Analysis) (q : List Answer) :
    schedule s approval a q = [.clearReport, .putReport] ++ (posts (batches s a) (q.drop 2) ++
      closing approval a ((q.drop 2).drop (posts (batches s a) (q.drop 2)).length)) := by
  have hlength : (preface s approval a q).length =
      2 + (posts (batches s a) (q.drop 2)).length + (settlement approval a).length := by
    simp only [preface, List.length_append, List.length_cons, List.length_nil]
    omega
  rw [schedule, hlength, closing]
  simp [preface, List.drop_drop]

theorem steps_eq (hinsights : s.capabilities.insights = true) : steps s approval a =
    (s.client.uploadReport s.repository a.commit (.ofAnalysis a) >>= fun _ =>
      uploadAnnotations s a >>= fun upload =>
        stoppable upload (conclude s approval a upload)) := by
  unfold steps
  rw [if_pos hinsights]

theorem calls_steps (hinsights : s.capabilities.insights = true)
    (hlimit : 0 < s.capabilities.limit.batchSize) (q : List Answer) :
    (steps s approval a).Calls s a q (schedule s approval a q) := by
  rw [steps_eq hinsights, schedule_eq]
  apply (ends_uploadReport q).follows.calls_bind _
  intro _ _
  apply (posting_uploadAnnotations hlimit _).follows.calls_bind _
  intro upload _
  rw [Calls, said_stoppable]
  exact (ends_conclude upload _).follows.calls

theorem said_close (a : Analysis) (o : Outcome) (q : List Answer) :
    ((close a o).play q).said = [] := by
  unfold close
  cases closing? a o <;> rfl

theorem value_close (a : Analysis) (o : Outcome) (q : List Answer) :
    ((close a o).play q).value = .ok o := by
  unfold close
  cases closing? a o <;> rfl

/-- A run makes the calls of its schedule, up to the first that is fatal. -/
theorem said_run (hinsights : s.capabilities.insights = true)
    (hlimit : 0 < s.capabilities.limit.batchSize) (q : List Answer) :
    ((run s approval a).play q).said =
      (untilFatal (schedule s approval a q) q).map fun x => (x.1.call s a, x.2) := by
  have hsteps : (steps s approval a).Calls s a q (schedule s approval a q) :=
    calls_steps hinsights hlimit q
  unfold Calls Run.play at hsteps
  unfold run
  rw [Dialogue.play_bind, Played.andThen_said, hsteps]
  cases ((steps s approval a).run.play q).value with
  | ok outcome => simp [said_close]
  | error e => cases e <;> simp [said_close]

end PullGate.Decoration
