import Mathlib.Data.List.Forall2
import PullGate.Proofs.Address.Reach
import PullGate.Proofs.Session.Handling
import PullGate.Proofs.Text.Octets

/-! Sessions without tokens.  A call that can be prepared is one request and gets the next reply, so
a dialogue that is carried out goes as it is played on the script of replies. -/

namespace PullGate

namespace Call

/-- What of a request is settled by the call it was made from. -/
structure Makes (c : Call) (r : Http.Request) : Prop where
  method : r.method = c.method
  url : Url.prepare c.idna c.url c.query = .ok r.url
  body : r.body = c.body.map Json.write
  contentType : r.contentType = c.body.map fun _ => ("application/json" : Text)
  timeout : r.timeout = c.timeout

/-- A call whose address can be prepared and whose body has a standard form. -/
structure Ready (c : Call) : Prop where
  preparable : Url.Preparable c.idna c.url c.query
  standard : ∀ body, c.body = some body → body.isStandard = true

/-- A call that is ready, and whose address can be sent to. -/
structure Able (c : Call) : Prop where
  reachable : Url.Reachable c.idna c.url c.query
  standard : ∀ body, c.body = some body → body.isStandard = true

theorem Able.ready {c : Call} (h : c.Able) : c.Ready := by
  obtain ⟨prepared, hprepared, -, hplain⟩ := h.reachable
  exact ⟨⟨prepared, hprepared, hplain⟩, h.standard⟩

/-- What comes of a call that is ready: one request, or none if its address cannot be sent to. -/
inductive Comes (c : Call) : List Hop → Answer → Prop where
  | barred {url : Text} (hurl : Url.prepare c.idna c.url c.query = .ok url)
    (h : Url.isSendable url = false) : Comes c [] (.error (.stop (.noTransport url)))
  | sent {hop : Hop} (hmakes : c.Makes hop.request)
    (h : Url.isSendable hop.request.url = true) : Comes c [hop] hop.answer

theorem Comes.of_able {c : Call} {H : List Hop} {answer : Answer} (hc : c.Able)
    (h : c.Comes H answer) : ∃ hop, H = [hop] ∧ answer = hop.answer ∧ c.Makes hop.request := by
  cases h with
  | sent hmakes _ => exact ⟨_, rfl, rfl, hmakes⟩
  | barred hurl h =>
    obtain ⟨prepared, hprepared, hsendable, -⟩ := hc.reachable
    obtain rfl := Except.ok.inj (hurl.symm.trans hprepared)
    rw [h] at hsendable
    cases hsendable

end Call

/-- Calls with their answers, and hops of which each makes one of the calls and answers it. -/
def Answered (said : List (Call × Answer)) (H : List Hop) : Prop :=
  List.Forall₂ (fun x hop => x.2 = hop.answer ∧ x.1.Makes hop.request) said H

namespace Answered

variable {said : List (Call × Answer)} {H : List Hop}

theorem length_eq (h : Answered said H) : said.length = H.length := List.Forall₂.length_eq h

theorem answers_eq (h : Answered said H) : said.map Prod.snd = H.map Hop.answer := by
  rw [← List.forall₂_eq_eq_eq, List.forall₂_map_left_iff, List.forall₂_map_right_iff]
  exact List.Forall₂.imp (fun _ _ h => h.1) h

theorem makes (h : Answered said H) :
    List.Forall₂ Call.Makes (said.map Prod.fst) (H.map Hop.request) := by
  rw [List.forall₂_map_left_iff, List.forall₂_map_right_iff]
  exact List.Forall₂.imp (fun _ _ h => h.2) h

end Answered

/-- All calls of a dialogue, on any answers, are as stated. -/
def Dialogue.Within {α : Type} (d : Dialogue α) (P : Call → Prop) : Prop :=
  ∀ q, ∀ x ∈ (d.play q).said, P x.1

namespace Session

/-- The authorization of a session, if it has one, is a header value. -/
def HeaderFits (s : Session) : Prop :=
  ∀ value, s.authorization = some value → isHeaderValue value = true

variable {s : Session} {c : Call}

def draft (s : Session) (c : Call) (url : Text) : Http.Request where
  method := c.method
  url := url
  authorization := s.authorization
  accept := some s.accept
  contentType := c.body.map fun _ => ("application/json" : Text)
  timeout := c.timeout
  body := c.body.map Json.write

/-- A call is prepared exactly if its address, its header and its body are in order. -/
theorem prepare_eq_ok {r : Http.Request} : s.prepare c = .ok r ↔
    ∃ url, Url.prepare c.idna c.url c.query = .ok url ∧ s.HeaderFits ∧
      (∀ body, c.body = some body → body.isStandard = true) ∧ s.draft c url = r := by
  unfold prepare HeaderFits draft
  cases Url.prepare c.idna c.url c.query with
  | error fault => simp [Except.mapError, bind, Except.bind]
  | ok url =>
    cases s.authorization with
    | none =>
      cases c.body with
      | none => simp [Except.mapError, bind, Except.bind, pure, Except.pure]
      | some body =>
        cases hb : body.isStandard <;>
          simp [hb, Except.mapError, bind, Except.bind, pure, Except.pure]
    | some value =>
      cases hv : isHeaderValue value with
      | false => simp [hv, Except.mapError, bind, Except.bind]
      | true =>
        cases c.body with
        | none => simp [hv, Except.mapError, bind, Except.bind, pure, Except.pure]
        | some body =>
          cases hb : body.isStandard <;>
            simp [hv, hb, Except.mapError, bind, Except.bind, pure, Except.pure]

theorem withAddressCredentials_of_plain {r : Http.Request} (h : Url.PlainCredentials r.url) :
    ∃ authorization, withAddressCredentials r = .ok { r with authorization } := by
  unfold withAddressCredentials
  cases hnamed : Url.credentials? r.url with
  | none => exact ⟨r.authorization, rfl⟩
  | some named =>
    obtain ⟨huser, hpassword⟩ := h named.1 named.2 hnamed
    obtain ⟨user, huser⟩ := Latin1.encode_of_all huser
    obtain ⟨password, hpassword⟩ := Latin1.encode_of_all hpassword
    exact ⟨_, by simp [huser, hpassword, bind, Except.bind, pure, Except.pure]; rfl⟩

theorem plainCredentials_of_ok {r r' : Http.Request} (h : withAddressCredentials r = .ok r') :
    Url.PlainCredentials r.url := by
  intro user password hnamed
  unfold withAddressCredentials at h
  rw [hnamed] at h
  cases huser : Latin1.encode user with
  | error fault => simp [huser, bind, Except.bind] at h
  | ok octets =>
    cases hpassword : Latin1.encode password with
    | error fault => simp [huser, hpassword, bind, Except.bind] at h
    | ok octets => exact ⟨Latin1.all_of_encode huser, Latin1.all_of_encode hpassword⟩

theorem exists_authorization {r r' : Http.Request} (h : withAddressCredentials r = .ok r') :
    ∃ authorization, r' = { r with authorization } := by
  obtain ⟨authorization, h'⟩ := withAddressCredentials_of_plain (plainCredentials_of_ok h)
  exact ⟨authorization, Except.ok.inj (h.symm.trans h')⟩

theorem Delivery.comes {r : Http.Request} {token token' : Json} {H : List Hop} {answer : Answer}
    {url : Text} (hurl : Url.prepare c.idna c.url c.query = .ok url)
    (hr : ∃ authorization, r = { s.draft c url with authorization })
    (h : Delivery r token H answer token') : c.Comes H answer := by
  obtain ⟨authorization, rfl⟩ := hr
  cases h with
  | barred h => exact .barred hurl h
  | sent h hrequest =>
    refine .sent ?_ ?_
    · rw [hrequest]
      exact ⟨rfl, hurl, rfl, rfl, rfl⟩
    · rw [hrequest]
      exact h

theorem Handling.plain_comes {token token' : Json} {H : List Hop} {answer : Answer}
    (hplain : s.bearer = none) (hs : s.HeaderFits) (hc : c.Ready)
    (h : Handling s c token H answer token') : c.Comes H answer := by
  obtain ⟨url, hurl, hcredentials⟩ := hc.preparable
  have hprepare : s.prepare c = .ok (s.draft c url) :=
    prepare_eq_ok.mpr ⟨url, hurl, hs, hc.standard, rfl⟩
  obtain ⟨authorization, hauthorized⟩ :=
    withAddressCredentials_of_plain (r := s.draft c url) hcredentials
  cases h with
  | unprepared h => rw [hprepare] at h; cases h
  | bearer _ hbearer _ => rw [hplain] at hbearer; cases hbearer
  | plain h _ hhandling =>
    obtain rfl := Except.ok.inj (hprepare.symm.trans h)
    cases hhandling with
    | barred h => rw [hauthorized] at h; cases h
    | delivered h hdelivery =>
      obtain rfl := Except.ok.inj (hauthorized.symm.trans h)
      exact hdelivery.comes hurl ⟨authorization, rfl⟩

/-- A plain session makes at most one request for a call, and gives the reply to it. -/
theorem Handling.plain_cases {token token' : Json} {H : List Hop} {answer : Answer}
    (hplain : s.bearer = none) (h : Handling s c token H answer token') :
    H = [] ∨ ∃ hop, H = [hop] ∧ answer = hop.answer ∧ c.Makes hop.request := by
  cases h with
  | unprepared => exact .inl rfl
  | bearer _ hbearer _ => rw [hplain] at hbearer; cases hbearer
  | plain h _ hhandling =>
    obtain ⟨url, hurl, -, -, rfl⟩ := prepare_eq_ok.mp h
    cases hhandling with
    | barred => exact .inl rfl
    | delivered h hdelivery =>
      cases hdelivery.comes hurl (exists_authorization h) with
      | barred => exact .inl rfl
      | sent hmakes => exact .inr ⟨_, rfl, rfl, hmakes⟩

/-- Calls that a plain session can make are one request each, in their order. -/
theorem Serves.plain_hops {token token' : Json} {said : List (Call × Answer)} {H : List Hop}
    (hplain : s.bearer = none) (hs : s.HeaderFits) (hc : ∀ x ∈ said, x.1.Able)
    (h : Serves s token said H token') : Answered said H := by
  induction h with
  | nil => exact List.Forall₂.nil
  | cons h _ ih =>
    have hable := hc _ (.head _)
    obtain ⟨hop, rfl, hanswer, hmakes⟩ := (h.plain_comes hplain hs hable.ready).of_able hable
    exact List.Forall₂.cons ⟨hanswer, hmakes⟩ (ih fun x hx => hc x (.tail _ hx))

/-- A plain session carries out a dialogue as it is played on the script, one hop a call. -/
theorem carryOut_answered {α : Type} (hplain : s.bearer = none) (hs : s.HeaderFits) (d : Dialogue α)
    (hd : d.Within Call.Able) (w : Wire) :
    (s.carryOut d w).1 = (d.play (w.replies.map Answer.ofReply)).value ∧
    ∃ H, w.Moves H (s.carryOut d w).2 ∧
      Answered (d.play (w.replies.map Answer.ofReply)).said H := by
  obtain ⟨H, said, hmoves, hserves, hsaid, hvalue⟩ := carryOut_serves s d w
  have hable : ∀ x ∈ said, x.1.Able := by
    rw [← hsaid]
    exact hd _
  have hhops := hserves.plain_hops hplain hs hable
  have hcongr := d.play_congr (said.map Prod.snd) (w.replies.map Answer.ofReply) ?_
  · rw [hcongr.1, hcongr.2.2, hvalue, hsaid]
    exact ⟨rfl, H, hmoves, hhops⟩
  · intro i hi
    rw [hsaid, hhops.length_eq, ← List.length_map Hop.request] at hi
    rw [hhops.answers_eq, hmoves.heard, hops_answer _ _ _ hi]

/-- A plain session carries out a dialogue as it is played on the script, one request a call. -/
theorem carryOut_plain {α : Type} (hplain : s.bearer = none) (hs : s.HeaderFits) (d : Dialogue α)
    (hd : d.Within Call.Able) (w : Wire) :
    (s.carryOut d w).1 = (d.play (w.replies.map Answer.ofReply)).value ∧
    ∃ requests, (s.carryOut d w).2.sent = w.sent ++ requests ∧
      (s.carryOut d w).2.replies = w.replies.drop requests.length ∧
      List.Forall₂ Call.Makes ((d.play (w.replies.map Answer.ofReply)).said.map Prod.fst)
        requests := by
  obtain ⟨hvalue, H, hmoves, hanswered⟩ := carryOut_answered hplain hs d hd w
  refine ⟨hvalue, H.map Hop.request, hmoves.sent, ?_, hanswered.makes⟩
  rw [List.length_map]
  exact hmoves.replies

end Session

end PullGate
