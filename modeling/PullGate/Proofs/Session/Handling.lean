import PullGate.Proofs.Session.Traffic

/-! How a session handles a call.  Each step of a session has a relation of its own that says what
it sends, what comes of it and which token is left in the slot; a call is handled by these in
sequence, and a dialogue by the calls that it makes. -/

namespace PullGate

open Net

namespace Hop

/-- The token that a hop to the endpoint grants, or why it grants none. -/
def granted (h : Hop) : Except Failure Json :=
  match h.heard with
  | .ok response => Token.ofResponse response
  | .error fault => .error (Token.ofFault fault)

end Hop

/-- An exchange of credentials for a token: nothing is sent if they cannot be written down, and only
an exchange that grants a token changes the slot. -/
inductive Token.Renewal (k : Token.Credentials) : Traffic Json where
  | unwritable {token : Json} {fault : Latin1.Fault} (h : k.request = .error fault) :
    Renewal k token [] (.error (.stop (.auth (.credentials fault)))) token
  | refused {token : Json} {hop : Hop} {e : Failure} (h : k.request = .ok hop.request)
    (hrefused : hop.granted = .error e) : Renewal k token [hop] (.error e) token
  | granted {token new : Json} {hop : Hop} (h : k.request = .ok hop.request)
    (hgranted : hop.granted = .ok new) : Renewal k token [hop] (.ok new) new

/-- The token for a request: the one in the slot, or a new one if that is empty. -/
inductive Token.Attachment (k : Token.Credentials) : Traffic Json where
  | kept {token : Json} (h : token.isTruthy = true) : Attachment k token [] (.ok token) token
  | renewed {token token' : Json} {H : List Hop} {result : Except Failure Json}
    (h : token.isTruthy = false) (hrenewal : Renewal k token H result token') :
    Attachment k token H result token'

namespace Session

/-- A request on its way: it is sent, if its address is one that can be sent to. -/
inductive Delivery (r : Http.Request) : Traffic Http.Response where
  | barred {token : Json} (h : Url.isSendable r.url = false) :
    Delivery r token [] (.error (.stop (.noTransport r.url))) token
  | sent {token : Json} {hop : Hop} (h : Url.isSendable r.url = true) (hrequest : hop.request = r) :
    Delivery r token [hop] hop.answer token

/-- A request of a session without tokens. -/
inductive PlainHandling (r : Http.Request) : Traffic Http.Response where
  | barred {token : Json} {fault : Latin1.Fault} (h : withAddressCredentials r = .error fault) :
    PlainHandling r token [] (.error (.breakdown (.credentials fault))) token
  | delivered {token token' : Json} {r' : Http.Request} {H : List Hop} {answer : Answer}
    (h : withAddressCredentials r = .ok r') (hdelivery : Delivery r' token H answer token') :
    PlainHandling r token H answer token'

def bearing (token : Json) (r : Http.Request) : Http.Request :=
  { r with authorization := some (Token.header token) }

/-- An answer that may be due to a stale token. -/
def Challenging (answer : Answer) : Prop :=
  ∃ response, answer = .ok response ∧ isChallenge response.status = true

/-- A request of a session with tokens. The answer to it is the last one: a challenge is answered by
a new token and the same request again. -/
inductive BearerHandling (k : Token.Credentials) (r : Http.Request) : Traffic Http.Response where
  | unattached {token token' : Json} {H : List Hop} {e : Failure}
    (hattach : Token.Attachment k token H (.error e) token') :
    BearerHandling k r token H (.error e) token'
  | taken {token attached token' : Json} {H H' : List Hop} {answer : Answer}
    (hattach : Token.Attachment k token H (.ok attached) attached)
    (hdelivery : Delivery (bearing attached r) attached H' answer token')
    (h : ¬Challenging answer) : BearerHandling k r token (H ++ H') answer token'
  | unrenewed {token attached token' : Json} {H H' H'' : List Hop} {first : Answer} {e : Failure}
    (hattach : Token.Attachment k token H (.ok attached) attached)
    (hdelivery : Delivery (bearing attached r) attached H' first attached)
    (h : Challenging first) (hrenewal : Token.Renewal k attached H'' (.error e) token') :
    BearerHandling k r token (H ++ (H' ++ H'')) (.error e) token'
  | resent {token attached new token' : Json} {H H' H'' H''' : List Hop} {first answer : Answer}
    (hattach : Token.Attachment k token H (.ok attached) attached)
    (hdelivery : Delivery (bearing attached r) attached H' first attached)
    (h : Challenging first) (hrenewal : Token.Renewal k attached H'' (.ok new) new)
    (hdelivery' : Delivery (bearing new r) new H''' answer token') :
    BearerHandling k r token (H ++ (H' ++ (H'' ++ H'''))) answer token'

inductive Handling (s : Session) (c : Call) : Traffic Http.Response where
  | unprepared {token : Json} {cause : Stop} (h : s.prepare c = .error cause) :
    Handling s c token [] (.error (.stop cause)) token
  | plain {token token' : Json} {r : Http.Request} {H : List Hop} {answer : Answer}
    (h : s.prepare c = .ok r) (hplain : s.bearer = none)
    (hhandling : PlainHandling r token H answer token') : Handling s c token H answer token'
  | bearer {token token' : Json} {k : Token.Credentials} {r : Http.Request} {H : List Hop}
    {answer : Answer} (h : s.prepare c = .ok r) (hbearer : s.bearer = some k)
    (hhandling : BearerHandling k r token H answer token') : Handling s c token H answer token'

end Session

/-! ### Every step does as stated -/

namespace Wire

def hop (w : Wire) (r : Http.Request) : Hop := ⟨r, w.replies.head?⟩

def after (w : Wire) (r : Http.Request) : Wire :=
  { w with sent := w.sent ++ [r], replies := w.replies.tail }

theorem moves_after (w : Wire) (r : Http.Request) : w.Moves [w.hop r] (w.after r) :=
  ⟨rfl, rfl, by simp [after]⟩

end Wire

namespace Net

variable {α : Type}

theorem on_transmit (r : Http.Request) (w : Wire) :
    on (liftM (Wire.transmit r) : Net Http.Reply) w = (.ok (w.hop r).heard, w.after r) := by
  obtain ⟨replies, sent, token, log⟩ := w
  cases replies <;> rfl

theorem on_record (entry : Log.Entry) (w : Wire) :
    on (liftM (Wire.record entry) : Net Unit) w = (.ok (), { w with log := w.log ++ [entry] }) :=
  rfl

theorem on_keepToken (token : Json) (w : Wire) :
    on (liftM (Wire.keepToken token) : Net Unit) w = (.ok (), { w with token }) := rfl

theorem on_except (x : Except Failure α) (w : Wire) : on (liftM x : Net α) w = (x, w) := by
  cases x <;> rfl

theorem on_get (w : Wire) : on (get : Net Wire) w = (.ok w, w) := rfl

end Net

theorem Token.does_renew (k : Token.Credentials) : Does (renew k) (Renewal k) := by
  intro w
  unfold renew
  cases hk : k.request with
  | error fault => exact ⟨[], .of_same rfl rfl, .unwritable hk⟩
  | ok r =>
    have hmoves := w.moves_after r
    rw [on_bind, on_pure]
    simp only [on_bind, on_transmit]
    cases hheard : (w.hop r).heard with
    | error fault =>
      refine ⟨[w.hop r], hmoves, .refused hk ?_⟩
      simp [Hop.granted, hheard]
    | ok response =>
      have hgranted : (w.hop r).granted = ofResponse response := by simp [Hop.granted, hheard]
      simp only [on_bind, on_pure, on_except, on_record, on_keepToken]
      cases hresponse : ofResponse response with
      | error e => exact ⟨[w.hop r], hmoves, .refused hk (hgranted.trans hresponse)⟩
      | ok new =>
        refine ⟨[w.hop r], ?_, .granted hk (hgranted.trans hresponse)⟩
        exact ⟨hmoves.sent, hmoves.heard, hmoves.replies⟩

theorem Token.on_current (k : Token.Credentials) (w : Wire) : on (current k) w =
    if w.token.isTruthy then (.ok w.token, w) else on (renew k) w := by
  unfold current
  rw [on_bind, on_get]
  simp only
  split <;> rfl

theorem Token.does_current (k : Token.Credentials) : Does (current k) (Attachment k) := by
  intro w
  rw [on_current]
  cases ht : w.token.isTruthy with
  | true => exact ⟨[], .of_same rfl rfl, .kept ht⟩
  | false =>
    obtain ⟨H, hmoves, hrenewal⟩ := does_renew k w
    exact ⟨H, hmoves, .renewed ht hrenewal⟩

theorem Token.Renewal.slot {k : Token.Credentials} {token new token' : Json} {H : List Hop}
    (h : Renewal k token H (.ok new) token') : token' = new := by
  cases h
  rfl

theorem Token.Attachment.slot {k : Token.Credentials} {token attached token' : Json} {H : List Hop}
    (h : Attachment k token H (.ok attached) token') : token' = attached := by
  cases h with
  | kept => rfl
  | renewed _ hrenewal => exact hrenewal.slot

namespace Session

variable {k : Token.Credentials} {r : Http.Request}

theorem Delivery.slot {token token' : Json} {H : List Hop} {answer : Answer}
    (h : Delivery r token H answer token') : token' = token := by
  cases h <;> rfl

theorem Delivery.sendable_of_ok {token token' : Json} {H : List Hop} {response : Http.Response}
    (h : Delivery r token H (.ok response) token') : Url.isSendable r.url = true := by
  generalize hanswer : (.ok response : Answer) = answer at h
  cases h with
  | barred => cases hanswer
  | sent h _ => exact h

theorem does_deliver (r : Http.Request) : Does (deliver r) (Delivery r) := by
  intro w
  unfold deliver
  cases hs : Url.isSendable r.url with
  | false => exact ⟨[], .of_same rfl rfl, .barred hs⟩
  | true =>
    have hsent : Delivery r w.token [w.hop r] (w.hop r).answer w.token := .sent hs rfl
    unfold Hop.answer at hsent
    refine ⟨[w.hop r], ?_⟩
    simp only [on_bind, on_transmit, ↓reduceIte]
    cases hheard : (w.hop r).heard with
    | error fault =>
      rw [hheard] at hsent
      exact ⟨w.moves_after r, hsent⟩
    | ok response =>
      rw [hheard] at hsent
      exact ⟨w.moves_after r, hsent⟩

theorem does_sendPlain (r : Http.Request) : Does (sendPlain r) fun token H result token' =>
    PlainHandling r token H (result.map Exchange.response) token' := by
  unfold sendPlain
  cases hr : withAddressCredentials r with
  | error fault => exact fun w => ⟨[], .of_same rfl rfl, .barred hr⟩
  | ok r' =>
    refine ((does_deliver r').bind_pure fun response => (⟨r', response, []⟩ : Exchange)).imp ?_
    rintro token H result token' ⟨v, hdelivery, rfl⟩
    cases v <;> exact .delivered hr hdelivery

theorem does_attach (k : Token.Credentials) (r : Http.Request) :
    Does (attach k r) fun token H result token' =>
      ∃ v, Token.Attachment k token H v token' ∧ result = v.map (bearing · r) :=
  (Token.does_current k).bind_pure (bearing · r)

theorem does_reauthenticate (k : Token.Credentials) (r : Http.Request) (status : Nat) :
    Does (reauthenticate k r status) fun token H result token' =>
      ∃ v, Token.Renewal k token H v token' ∧ result = v.map (bearing · r) := by
  intro w
  obtain ⟨H, hmoves, hrenewal⟩ := ((Token.does_renew k).bind_pure (bearing · r))
    { w with log := w.log ++ [⟨.info, .auth, "Provider answered " ++ Text.ofNat status ++ " for "
      ++ r.url ++ ", refreshing the access token"⟩] }
  have hsame : w.Moves [] { w with log := w.log ++ [⟨.info, .auth, "Provider answered "
      ++ Text.ofNat status ++ " for " ++ r.url ++ ", refreshing the access token"⟩] } :=
    .of_same rfl rfl
  exact ⟨H, hsame.trans hmoves, hrenewal⟩

/-- What follows a first answer: nothing, or a new token and the same request again. -/
inductive Retry (k : Token.Credentials) (r : Http.Request) (first : Http.Response) :
    Traffic Exchange where
  | none {token : Json} {e : Exchange} (h : isChallenge first.status = false)
    (he : e.response = first) : Retry k r first token [] (.ok e) token
  | unrenewed {token token' : Json} {H : List Hop} {e : Failure}
    (h : isChallenge first.status = true) (hrenewal : Token.Renewal k token H (.error e) token') :
    Retry k r first token H (.error e) token'
  | resent {token new token' : Json} {H H' : List Hop} {result : Except Failure Exchange}
    (h : isChallenge first.status = true) (hrenewal : Token.Renewal k token H (.ok new) new)
    (hdelivery : Delivery (bearing new r) new H' (result.map Exchange.response) token') :
    Retry k r first token (H ++ H') result token'

theorem does_retry (k : Token.Credentials) (r : Http.Request) (first : Http.Response) :
    Does (if isChallenge first.status then do
        let retry ← reauthenticate k r first.status
        return ⟨retry, ← deliver retry, [first.status]⟩
      else return ⟨r, first, []⟩ : Net Exchange) (Retry k r first) := by
  cases hc : isChallenge first.status with
  | false => exact fun w => ⟨[], .of_same rfl rfl, .none hc rfl⟩
  | true =>
    refine ((does_reauthenticate k r first.status).bind fun retry =>
      (does_deliver retry).bind_pure fun response =>
        (⟨retry, response, [first.status]⟩ : Exchange)).imp ?_
    intro token H result token' h
    cases h with
    | failed h =>
      obtain ⟨v, hrenewal, hv⟩ := h
      cases v <;> cases hv
      exact .unrenewed hc hrenewal
    | went h hnext =>
      obtain ⟨v, hrenewal, hv⟩ := h
      cases v <;> cases hv
      obtain rfl := hrenewal.slot
      obtain ⟨v, hdelivery, rfl⟩ := hnext
      apply Retry.resent hc hrenewal
      cases v <;> exact hdelivery

theorem does_sendWithToken (k : Token.Credentials) (r : Http.Request) :
    Does (sendWithToken k r) fun token H result token' =>
      BearerHandling k r token H (result.map Exchange.response) token' := by
  refine ((does_attach k r).bind fun sent =>
    (does_deliver sent).bind fun first => does_retry k sent first).imp ?_
  intro token H result token' h
  cases h with
  | failed h =>
    obtain ⟨v, hattach, hv⟩ := h
    cases v <;> cases hv
    exact .unattached hattach
  | went h hnext =>
    obtain ⟨v, hattach, hv⟩ := h
    cases v <;> cases hv
    obtain rfl := hattach.slot
    cases hnext with
    | failed hdelivery =>
      exact .taken hattach hdelivery fun ⟨_, h, _⟩ => nomatch h
    | went hdelivery hnext =>
      obtain rfl := hdelivery.slot
      cases hnext with
      | @none _ e hc he =>
        subst he
        rw [List.append_nil]
        apply BearerHandling.taken hattach hdelivery
        rintro ⟨response, heq, hr⟩
        obtain rfl := Except.ok.inj heq
        simp [hc] at hr
      | unrenewed hc hrenewal => exact .unrenewed hattach hdelivery ⟨_, rfl, hc⟩ hrenewal
      | resent hc hrenewal hdelivery' =>
        exact .resent hattach hdelivery ⟨_, rfl, hc⟩ hrenewal hdelivery'

theorem does_exchange (s : Session) (c : Call) :
    Does (s.exchange c) fun token H result token' =>
      Handling s c token H (result.map Exchange.response) token' := by
  unfold exchange
  cases hr : s.prepare c with
  | error cause => exact fun w => ⟨[], .of_same rfl rfl, .unprepared hr⟩
  | ok r =>
    cases hk : s.bearer with
    | none => exact (does_sendPlain r).imp (.plain hr hk)
    | some k => exact (does_sendWithToken k r).imp (.bearer hr hk)

theorem does_perform (s : Session) (c : Call) : Does (s.perform c) (Handling s c) := by
  apply ((does_exchange s c).bind_pure Exchange.response).imp
  rintro token H result token' ⟨v, h, rfl⟩
  exact h

/-- A session serves calls one after the other, with the token that the last one left. -/
inductive Serves (s : Session) : Json → List (Call × Answer) → List Hop → Json → Prop where
  | nil {token : Json} : Serves s token [] [] token
  | cons {token between token' : Json} {c : Call} {answer : Answer} {said : List (Call × Answer)}
    {H H' : List Hop} (h : Handling s c token H answer between)
    (hserves : Serves s between said H' token') :
    Serves s token ((c, answer) :: said) (H ++ H') token'

theorem Serves.nil_inv {s : Session} {token token' : Json} {H : List Hop}
    (h : Serves s token [] H token') : H = [] ∧ token' = token := by
  cases h
  exact ⟨rfl, rfl⟩

theorem Serves.cons_inv {s : Session} {token token' : Json} {c : Call} {answer : Answer}
    {said : List (Call × Answer)} {H : List Hop}
    (h : Serves s token ((c, answer) :: said) H token') :
    ∃ first later between, H = first ++ later ∧ Handling s c token first answer between ∧
      Serves s between said later token' := by
  cases h with
  | cons h hserves => exact ⟨_, _, _, rfl, h, hserves⟩

/-- A dialogue that is carried out goes as it is played on the answers that its calls got. -/
theorem carryOut_serves {α : Type} (s : Session) (d : Dialogue α) (w : Wire) :
    ∃ H said, w.Moves H (s.carryOut d w).2 ∧ Serves s w.token said H (s.carryOut d w).2.token ∧
      (d.play (said.map Prod.snd)).said = said ∧
      (d.play (said.map Prod.snd)).value = (s.carryOut d w).1 := by
  induction d generalizing w with
  | done value => exact ⟨[], [], .of_same rfl rfl, .nil, rfl, rfl⟩
  | log entry next ih =>
    have hlog : s.carryOut (.log entry next) w =
        s.carryOut next { w with log := w.log ++ [entry] } := rfl
    obtain ⟨H, said, hmoves, hserves, hsaid, hvalue⟩ := ih { w with log := w.log ++ [entry] }
    rw [hlog]
    exact ⟨H, said, ⟨hmoves.sent, hmoves.heard, hmoves.replies⟩, hserves, hsaid, hvalue⟩
  | call c next ih =>
    obtain ⟨H, hmoves, hhandling⟩ := does_perform s c w
    have hcall : s.carryOut (.call c next) w =
        s.carryOut (next (on (s.perform c) w).1) (on (s.perform c) w).2 := rfl
    obtain ⟨H', said, hmoves', hserves, hsaid, hvalue⟩ :=
      ih (on (s.perform c) w).1 (on (s.perform c) w).2
    rw [hcall]
    refine ⟨H ++ H', (c, (on (s.perform c) w).1) :: said, hmoves.trans hmoves',
      .cons hhandling hserves, ?_, ?_⟩
    · simp [hsaid]
    · simpa using hvalue

end Session

end PullGate
