import PullGate.Proofs.Decoration.Service
import PullGate.Proofs.Session.Settled

/-! Decoration with tokens, seen without them.  What is left of the traffic of a client with tokens,
once the exchanges and the requests that were sent again are dropped, is the traffic of a client
without tokens on the replies that are left. -/

namespace PullGate

open Decoration

namespace Decoration

theorem sendBatches_congr {s s' : Setup} (hlimit : s'.capabilities = s.capabilities)
    (hbatch : sendBatch s' = sendBatch s) (commit : Text) (total number count : Nat)
    (batches : List (List AnnotationPayload)) :
    sendBatches s' commit total number count batches =
      sendBatches s commit total number count batches := by
  induction batches generalizing number count with
  | nil => rfl
  | cons batch batches ih => simp only [sendBatches, hlimit, hbatch, ih]

end Decoration

theorem Call.Makes.gist_eq {c : Call} {r r' : Http.Request} (h : c.Makes r) (h' : c.Makes r') :
    r.gist = r'.gist := by
  have hurl : r.url = r'.url := Except.ok.inj (h.url.symm.trans h'.url)
  simp [Http.Request.gist, h.method, h'.method, hurl, h.body, h'.body]

theorem Call.gists_eq {calls : List Call} {requests requests' : List Http.Request}
    (h : List.Forall₂ Call.Makes calls requests) (h' : List.Forall₂ Call.Makes calls requests') :
    requests.map Http.Request.gist = requests'.map Http.Request.gist := by
  induction h generalizing requests' with
  | nil =>
    cases h'
    rfl
  | cons hmakes _ ih =>
    cases h' with
    | cons hmakes' h' => rw [List.map_cons, List.map_cons, hmakes.gist_eq hmakes', ih h']

namespace Client

/-- A client without tokens for the repository of another one, with its time limit and its way to
write hosts. -/
structure Counterpart (c plain : Client) : Prop where
  isOauth2 : plain.configuration.isOauth2 = false
  url : plain.configuration.url = c.configuration.url
  target : plain.configuration.target = c.configuration.target
  timeout : plain.timeout = c.timeout
  idna : plain.idna = c.idna
  headerFits : plain.session.HeaderFits

variable {c plain : Client} {a : Analysis} {approval : Bool}

/-- What a run does depends on the service, the repository and how it is connected to alone. -/
theorem run_congr {c c' : Client} (hurl : c'.configuration.url = c.configuration.url)
    (htarget : c'.configuration.target = c.configuration.target) (htimeout : c'.timeout = c.timeout)
    (hidna : c'.idna = c.idna) (approval : Bool) (a : Analysis) :
    run c'.setup approval a = run c.setup approval a := by
  obtain ⟨⟨url, token, key, repository, project⟩, timeout, idna⟩ := c
  obtain ⟨⟨url', token', key', repository', project'⟩, timeout', idna'⟩ := c'
  obtain ⟨rfl, rfl⟩ := Repository.mk.inj htarget
  obtain rfl : url' = url := hurl
  obtain rfl : timeout' = timeout := htimeout
  obtain rfl : idna' = idna := hidna
  let s := setup ⟨⟨url', token, key, repository', project'⟩, timeout', idna'⟩
  let s' := setup ⟨⟨url', token', key', repository', project'⟩, timeout', idna'⟩
  have hbatches : ∀ commit total number count batches,
      sendBatches s' commit total number count batches =
        sendBatches s commit total number count batches := sendBatches_congr rfl rfl
  have hupload : Decoration.uploadAnnotations s' a = Decoration.uploadAnnotations s a := by
    simp only [Decoration.uploadAnnotations, hbatches]
    rfl
  unfold run steps
  rw [show Decoration.uploadAnnotations s' a = _ from hupload]
  rfl

theorem Counterpart.run_eq (h : c.Counterpart plain) (approval : Bool) (a : Analysis) :
    run plain.setup approval a = run c.setup approval a :=
  run_congr h.url h.target h.timeout h.idna approval a

theorem Counterpart.reportUrl_eq (h : c.Counterpart plain) (commit : Text) :
    plain.reportUrl plain.configuration.target commit =
      c.reportUrl c.configuration.target commit := by
  rw [h.target]
  unfold reportUrl repositoryUrl
  rw [h.url]

theorem Counterpart.preparable (h : c.Counterpart plain) (hurl : c.Preparable a) :
    plain.Preparable a := by
  unfold Preparable
  rw [h.reportUrl_eq, h.idna]
  exact hurl

theorem Counterpart.sendable_iff (h : c.Counterpart plain) : plain.Sendable a ↔ c.Sendable a := by
  unfold Sendable
  rw [h.reportUrl_eq, h.idna]

/-- The wire that is left for a client without tokens: the replies to hops that settled a call, and
those that were not used. -/
def leftover (c : Client) (approval : Bool) (a : Analysis) (w : Wire) : Wire where
  replies := (c.session.settled (c.traffic approval a w)).filterMap Hop.reply ++
    w.replies.drop (c.traffic approval a w).length

section Leftover

variable {k : Token.Credentials} {w : Wire}

theorem answer_leftover {said : List (Call × Answer)}
    (h : Answered said (c.session.settled (c.traffic approval a w))) (i : Nat)
    (hi : i < said.length) :
    ((c.leftover approval a w).replies.map Answer.ofReply).getD i Answer.absent =
      (said.map Prod.snd).getD i Answer.absent := by
  have hsublist := Session.settled_sublist c.session (c.traffic approval a w)
  unfold leftover
  rw [h.answers_eq, traffic, length_hops]
  exact answers_of_sublist hsublist i (by rwa [← h.length_eq])

/-- If the service can be sent to, a call is settled by one hop. -/
theorem leftover_of_sendable (h : c.Counterpart plain) (hbearer : c.session.bearer = some k)
    (hk : ∃ r, k.request = .ok r) (hheader : c.session.HeaderFits) (hurl : c.Preparable a)
    (hgrants : c.session.Grants (c.traffic approval a w)) (hs : c.Sendable a) :
    (plain.decorate approval a (c.leftover approval a w)).1 = (c.decorate approval a w).1 ∧
      (plain.decorate approval a (c.leftover approval a w)).2.sent.map Http.Request.gist =
        (c.session.settled (c.traffic approval a w)).map fun hop => hop.request.gist := by
  have hwithin := within_able hurl hs approval
  obtain ⟨said, hserves, -, hsaid, hvalue⟩ := serves_decorate c approval a w
  have hable : ∀ x ∈ said, x.1.Able := by
    rw [← hsaid]
    exact hwithin _
  have hhops := (hserves.settled_hops hbearer hk hheader hable hgrants).1
  rw [← h.run_eq] at hwithin hsaid hvalue
  obtain ⟨hvalue', requests, hsent, -, hmakes⟩ := Session.carryOut_plain
    (bearer_of_plain h.isOauth2) h.headerFits (run plain.setup approval a) hwithin
    (c.leftover approval a w)
  obtain ⟨hsaid', -, hplay⟩ := (run plain.setup approval a).play_congr (said.map Prod.snd)
    ((c.leftover approval a w).replies.map Answer.ofReply)
    fun i hi => answer_leftover hhops i (by rwa [← hsaid])
  rw [hsaid', hsaid] at hmakes
  refine ⟨hvalue'.trans (hplay.trans hvalue), ?_⟩
  unfold decorate
  rw [hsent]
  simpa [leftover, Function.comp_def] using Call.gists_eq hmakes hhops.makes

theorem settled_of_not_sendable (hbearer : c.session.bearer = some k) (hk : ∃ r, k.request = .ok r)
    (hheader : c.session.HeaderFits) (hurl : c.Preparable a)
    (hgrants : c.session.Grants (c.traffic approval a w)) (hs : ¬c.Sendable a) :
    c.session.settled (c.traffic approval a w) = [] ∧
      ∃ address, Url.prepare c.idna (c.reportUrl c.configuration.target a.commit) [] = .ok address ∧
        (c.decorate approval a w).1 =
          ((run c.setup approval a).play [.error (.stop (.noTransport address))]).value := by
  obtain ⟨said, hserves, -, hsaid, hvalue⟩ := serves_decorate c approval a w
  have hready := ready_clearReport hurl
  obtain ⟨address, haddress, honly, hhandling⟩ := serves_of_not_sendable hs hsaid hserves
    fun first answer between hfirst hhandling => by
      have hgrants' : c.session.Grants first := fun h hh => hgrants h (hfirst.subset hh)
      obtain ⟨-, S, hS, -⟩ :=
        Session.handling_settled hbearer hk hheader hready hgrants' hhandling
      exact ⟨S, hS⟩
  obtain ⟨-, S, hS, hsettled⟩ :=
    Session.handling_settled hbearer hk hheader hready hgrants hhandling
  obtain ⟨rfl, -⟩ := comes_of_not_sendable hs hS
  refine ⟨?_, address, haddress, ?_⟩
  · simpa [Session.settled] using (hsettled [] c.session.opens_nil).1
  · rw [← hvalue, honly]
    rfl

/-- If the service cannot be sent to, neither client gets past the report. -/
theorem leftover_of_not_sendable (h : c.Counterpart plain) (hbearer : c.session.bearer = some k)
    (hk : ∃ r, k.request = .ok r) (hheader : c.session.HeaderFits) (hurl : c.Preparable a)
    (hgrants : c.session.Grants (c.traffic approval a w)) (hs : ¬c.Sendable a) :
    (plain.decorate approval a (c.leftover approval a w)).1 = (c.decorate approval a w).1 ∧
      (plain.decorate approval a (c.leftover approval a w)).2.sent.map Http.Request.gist =
        (c.session.settled (c.traffic approval a w)).map fun hop => hop.request.gist := by
  obtain ⟨hsettled, address, haddress, hvalue⟩ :=
    settled_of_not_sendable hbearer hk hheader hurl hgrants hs
  obtain ⟨hsent, address', haddress', hvalue'⟩ := sent_of_not_sendable h.isOauth2 h.headerFits
    (h.preparable hurl) (mt h.sendable_iff.mp hs)
  rw [h.reportUrl_eq, h.idna, haddress] at haddress'
  obtain rfl := Except.ok.inj haddress'
  rw [h.run_eq] at hvalue'
  refine ⟨hvalue'.trans hvalue.symm, ?_⟩
  rw [hsent, hsettled]
  rfl

/-- A client without tokens ends as one with tokens did, if it is given the replies that settled the
calls of that one and those that were left, and it sends what was sent to settle them: tokens are
transparent wherever every exchange grants one. -/
theorem decorate_leftover (c plain : Client) (h : c.Counterpart plain) (approval : Bool)
    (a : Analysis) (w : Wire) {k : Token.Credentials} (hbearer : c.session.bearer = some k)
    (hk : ∃ r, k.request = .ok r) (hheader : c.session.HeaderFits) (hurl : c.Preparable a)
    (hgrants : c.session.Grants (c.traffic approval a w)) :
    (plain.decorate approval a (c.leftover approval a w)).1 = (c.decorate approval a w).1 ∧
      (plain.decorate approval a (c.leftover approval a w)).2.sent.map Http.Request.gist =
        (c.session.settled (c.traffic approval a w)).map fun hop => hop.request.gist := by
  by_cases hs : c.Sendable a
  · exact leftover_of_sendable h hbearer hk hheader hurl hgrants hs
  · exact leftover_of_not_sendable h hbearer hk hheader hurl hgrants hs

end Leftover

end Client

namespace Decoration.Sample

def bearer : Client where
  configuration := { client.configuration with oauth2Key := "key" }
  timeout := client.timeout

def grant : Http.Response :=
  ⟨200, "OK", some "utf-8", Text.utf8 "\x7b\"access_token\": \"t\"\x7d", {}⟩

/-- Replies with which the first request is challenged and sent again, to no answer. -/
def script : Wire := { replies := [.ok grant, .ok (response 404), .ok grant] }

theorem grants : bearer.session.Grants (bearer.traffic true analysis script) := by
  have hall : (bearer.traffic true analysis script).all
      (fun h => !bearer.session.isExchange h || h.granted.toBool) = true := by decide +kernel
  intro h hh hexchange
  have hgranted := List.all_eq_true.mp hall h hh
  rw [hexchange] at hgranted
  cases hg : h.granted with
  | ok token => exact ⟨token, rfl⟩
  | error e => rw [hg] at hgranted; cases hgranted

end Decoration.Sample

/-- One of the four hops of the sample is left. -/
theorem Client.decorate_leftover_sample :
    (Sample.bearer.traffic true Sample.analysis Sample.script).length = 4 ∧
    (Sample.bearer.session.settled
      (Sample.bearer.traffic true Sample.analysis Sample.script)).length = 1 ∧
    (Sample.client.decorate true Sample.analysis
        (Sample.bearer.leftover true Sample.analysis Sample.script)).1 =
      (Sample.bearer.decorate true Sample.analysis Sample.script).1 ∧
    (Sample.client.decorate true Sample.analysis
        (Sample.bearer.leftover true Sample.analysis Sample.script)).2.sent.map
        Http.Request.gist =
      (Sample.bearer.session.settled
        (Sample.bearer.traffic true Sample.analysis Sample.script)).map
        fun hop => hop.request.gist := by
  have hcredentials :
      ∃ r, (⟨"key", "basic_token", .whole 10⟩ : Token.Credentials).request = .ok r := ⟨_, rfl⟩
  exact ⟨by decide +kernel, by decide +kernel,
    decorate_leftover Sample.bearer Sample.client ⟨rfl, rfl, rfl, rfl, rfl, Sample.headerFits⟩
      true Sample.analysis Sample.script rfl hcredentials Sample.headerFits Sample.preparable
      Sample.grants⟩

end PullGate
