import PullGate.Proofs.Decoration.Able
import PullGate.Proofs.Decoration.Schedule
import PullGate.Proofs.Session.Plain

/-! Decoration with a client of the cloud: what its addresses have to be like, and what then is true
of every call of a run. -/

namespace PullGate

open Decoration

namespace Client

/-- The repository that the configuration of a client names, on the cloud. -/
def setup (c : Client) : Setup := { client := c, repository := c.configuration.target }

/-- Publishes an analysis on its pull request. -/
def decorate (c : Client) (approval : Bool) (a : Analysis) :
    StateM Wire (Except Breakdown Outcome) :=
  c.session.carryOut (run c.setup approval a)

/-- The requests that a decoration sends, each with the reply to it. -/
def traffic (c : Client) (approval : Bool) (a : Analysis) (w : Wire) : List Hop :=
  hops ((c.decorate approval a w).2.sent.drop w.sent.length) w.replies

/-- A decoration is played on the answers to its calls, and its traffic serves these. -/
theorem serves_decorate (c : Client) (approval : Bool) (a : Analysis) (w : Wire) :
    ∃ said, c.session.Serves w.token said (c.traffic approval a w)
        (c.decorate approval a w).2.token ∧
      (c.decorate approval a w).2.sent =
        w.sent ++ (c.traffic approval a w).map Hop.request ∧
      ((run c.setup approval a).play (said.map Prod.snd)).said = said ∧
      ((run c.setup approval a).play (said.map Prod.snd)).value = (c.decorate approval a w).1 := by
  obtain ⟨H, said, hmoves, hserves, hsaid, hvalue⟩ :=
    Session.carryOut_serves c.session (run c.setup approval a) w
  have htraffic : c.traffic approval a w = H := by
    unfold traffic decorate
    rw [hmoves.sent, List.drop_left, ← hmoves.heard]
  rw [htraffic]
  exact ⟨said, hserves, hmoves.sent, hsaid, hvalue⟩

/-- The report, which a decoration begins with, has an address that can be prepared. -/
def Preparable (c : Client) (a : Analysis) : Prop :=
  Url.Preparable c.idna (c.reportUrl c.configuration.target a.commit) []

def Sendable (c : Client) (a : Analysis) : Prop :=
  ∃ address, Url.prepare c.idna (c.reportUrl c.configuration.target a.commit) [] = .ok address ∧
    Url.isSendable address = true

variable {c : Client} {a : Analysis}

theorem bearer_of_plain (hplain : c.configuration.isOauth2 = false) : c.session.bearer = none := by
  simp [session, hplain]

theorem ready_clearReport (hurl : c.Preparable a) : (Errand.clearReport.call c.setup a).Ready :=
  ⟨hurl, fun _ => Errand.isStandard_body c.setup a .clearReport⟩

/-- If the report can be sent to, every call of a decoration can be made. -/
theorem able_call (hurl : c.Preparable a) (hs : c.Sendable a) (e : Errand) :
    (e.call c.setup a).Able := by
  obtain ⟨address, haddress, hsendable⟩ := hs
  obtain ⟨prepared, hprepared, hplain⟩ := hurl
  obtain rfl := Except.ok.inj (haddress.symm.trans hprepared)
  have hreport : Url.Reachable (Errand.clearReport.call c.setup a).idna
      (Errand.clearReport.call c.setup a).url (Errand.clearReport.call c.setup a).query :=
    ⟨address, haddress, hsendable, hplain⟩
  exact ⟨Errand.reachable c.setup a hreport e, fun _ => e.isStandard_body c.setup a⟩

theorem batchSize_pos (c : Client) : 0 < c.setup.capabilities.limit.batchSize :=
  (by decide : (0 : Int) < 100)

/-- A decoration makes the calls of its schedule, up to the first that is fatal. -/
theorem said_decorate (c : Client) (approval : Bool) (a : Analysis) (q : List Answer) :
    ((run c.setup approval a).play q).said =
      (untilFatal (schedule c.setup approval a q) q).map fun x => (x.1.call c.setup a, x.2) :=
  said_run rfl c.batchSize_pos q

theorem within_able (hurl : c.Preparable a) (hs : c.Sendable a) (approval : Bool) :
    (run c.setup approval a).Within Call.Able := by
  intro q x hx
  rw [said_decorate, List.mem_map] at hx
  obtain ⟨y, -, rfl⟩ := hx
  exact able_call hurl hs y.1

theorem said_decorate_eq_cons (c : Client) (approval : Bool) (a : Analysis) (q : List Answer) :
    ∃ more, ((run c.setup approval a).play q).said =
      (Errand.clearReport.call c.setup a, Answer.next q) :: more ∧
      (Errand.clearReport.isFatal (Answer.next q) = true → more = []) := by
  rw [said_decorate]
  refine ⟨_, rfl, fun h => ?_⟩
  rw [if_pos h]
  rfl

theorem comes_of_not_sendable (hs : ¬c.Sendable a) {H : List Hop} {answer : Answer}
    (h : (Errand.clearReport.call c.setup a).Comes H answer) : H = [] ∧
      ∃ address, Url.prepare c.idna (c.reportUrl c.configuration.target a.commit) [] = .ok address ∧
        answer = .error (.stop (.noTransport address)) := by
  cases h with
  | sent hmakes h => exact absurd ⟨_, hmakes.url, h⟩ hs
  | barred hurl h => exact ⟨rfl, _, hurl, rfl⟩

/-- A decoration ends with the report if that cannot be sent to. -/
theorem serves_of_not_sendable {s : Session} {approval : Bool} {token token' : Json}
    {said : List (Call × Answer)} {H : List Hop} (hs : ¬c.Sendable a)
    (hsaid : ((run c.setup approval a).play (said.map Prod.snd)).said = said)
    (hserves : s.Serves token said H token')
    (hcomes : ∀ first answer between, first <+: H →
      s.Handling (Errand.clearReport.call c.setup a) token first answer between →
      ∃ S, (Errand.clearReport.call c.setup a).Comes S answer) :
    ∃ address, Url.prepare c.idna (c.reportUrl c.configuration.target a.commit) [] = .ok address ∧
      said = [(Errand.clearReport.call c.setup a, .error (.stop (.noTransport address)))] ∧
      s.Handling (Errand.clearReport.call c.setup a) token H
        (.error (.stop (.noTransport address))) token' := by
  obtain ⟨more, hcons, hlast⟩ := said_decorate_eq_cons c approval a (said.map Prod.snd)
  rw [hsaid] at hcons
  rw [hcons] at hserves
  obtain ⟨first, later, between, rfl, hhandling, hlater⟩ := hserves.cons_inv
  obtain ⟨S, hS⟩ := hcomes first _ between (List.prefix_append _ _) hhandling
  obtain ⟨-, address, haddress, hanswer⟩ := comes_of_not_sendable hs hS
  obtain rfl := hlast (by rw [hanswer]; rfl)
  obtain ⟨rfl, rfl⟩ := hlater.nil_inv
  rw [hanswer] at hcons hhandling
  exact ⟨address, haddress, hcons, by rwa [List.append_nil]⟩

theorem sent_of_not_sendable {approval : Bool} {w : Wire}
    (hplain : c.configuration.isOauth2 = false)
    (hheader : c.session.HeaderFits) (hurl : c.Preparable a) (hs : ¬c.Sendable a) :
    (c.decorate approval a w).2.sent = w.sent ∧
      ∃ address, Url.prepare c.idna (c.reportUrl c.configuration.target a.commit) [] = .ok address ∧
        (c.decorate approval a w).1 =
          ((run c.setup approval a).play [.error (.stop (.noTransport address))]).value := by
  have hbearer := bearer_of_plain hplain
  have hready := ready_clearReport hurl
  obtain ⟨said, hserves, hsent, hsaid, hvalue⟩ := serves_decorate c approval a w
  obtain ⟨address, haddress, honly, hhandling⟩ := serves_of_not_sendable hs hsaid hserves
    fun first _ _ _ h => ⟨first, h.plain_comes hbearer hheader hready⟩
  obtain ⟨hnone, -⟩ := comes_of_not_sendable hs (hhandling.plain_comes hbearer hheader hready)
  refine ⟨by simpa [hnone] using hsent, address, haddress, ?_⟩
  rw [← hvalue, honly]
  rfl

end Client

namespace Decoration.Sample

def address : Text :=
  "https://api.bitbucket.org/2.0/repositories/project/repository/commit/abc123" ++
    "/reports/sonarqube-analysis"

theorem prepare_report : Url.prepare client.idna
    (client.reportUrl client.configuration.target analysis.commit) [] = .ok address := by
  decide +kernel

theorem preparable : client.Preparable analysis := by
  refine ⟨address, prepare_report, fun user password h => ?_⟩
  have hnone : Url.credentials? address = none := by decide +kernel
  rw [hnone] at h
  cases h

theorem sendable : client.Sendable analysis := ⟨address, prepare_report, by decide +kernel⟩

theorem headerFits : client.session.HeaderFits := by
  intro value h
  obtain rfl := Option.some.inj h
  decide +kernel

end Decoration.Sample

end PullGate
