import PullGate.Proofs.Decoration.Service

/-! The requests of a decoration without tokens: one for each errand of its schedule, in their
order, up to the first errand that is fatal. -/

namespace PullGate.Client

open Decoration

variable {c : Client} {approval : Bool} {a : Analysis}

/-- The errands of a decoration whose requests reach the transport, on given replies. -/
def errands (c : Client) (approval : Bool) (a : Analysis) (replies : List Http.Reply) :
    List Errand :=
  let answers := replies.map Answer.ofReply
  (untilFatal (schedule c.setup approval a answers) answers).map Prod.fst

/-- A client without tokens sends the errands of its schedule, each once and in order, up to the
first that is fatal; it sends nothing if the address of the service is none that can be sent to. -/
theorem sent_decorate (c : Client) (approval : Bool) (a : Analysis) (w : Wire)
    (hplain : c.configuration.isOauth2 = false) (hheader : c.session.HeaderFits)
    (hurl : c.Preparable a) :
    ∃ requests, (c.decorate approval a w).2.sent = w.sent ++ requests ∧
      (c.Sendable a → List.Forall₂ (fun e r => (e.call c.setup a).Makes r)
        (c.errands approval a w.replies) requests) ∧
      (¬c.Sendable a → requests = []) := by
  have hbearer := bearer_of_plain hplain
  by_cases hs : c.Sendable a
  · obtain ⟨-, requests, hsent, -, hmakes⟩ := Session.carryOut_plain hbearer hheader
      (run c.setup approval a) (within_able hurl hs approval) w
    refine ⟨requests, hsent, fun _ => ?_, fun h => absurd hs h⟩
    rw [said_decorate, List.map_map] at hmakes
    rw [errands, List.forall₂_map_left_iff]
    exact List.forall₂_map_left_iff.mp hmakes
  · have hsent : (c.decorate approval a w).2.sent = w.sent :=
      (sent_of_not_sendable hplain hheader hurl hs).1
    exact ⟨[], by rw [hsent, List.append_nil], fun h => absurd h hs, fun _ => rfl⟩

/-- A report that is refused is the last that is sent. -/
theorem sent_decorate_sample :
    ∃ requests, (Sample.client.decorate true Sample.analysis
        { replies := [.ok (Sample.response 404), .ok (Sample.response 500)] }).2.sent =
        [] ++ requests ∧
      List.Forall₂ (fun (e : Errand) r => (e.call Sample.client.setup Sample.analysis).Makes r)
        [.clearReport, .putReport] requests := by
  obtain ⟨requests, hsent, hmakes, -⟩ := sent_decorate Sample.client true Sample.analysis
    { replies := [.ok (Sample.response 404), .ok (Sample.response 500)] } rfl Sample.headerFits
    Sample.preparable
  have herrands : Sample.client.errands true Sample.analysis
      [.ok (Sample.response 404), .ok (Sample.response 500)] = [.clearReport, .putReport] := rfl
  refine ⟨requests, hsent, ?_⟩
  rw [← herrands]
  exact hmakes Sample.sendable

end PullGate.Client
