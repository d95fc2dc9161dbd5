import PullGate.Proofs.Session.Exchange

/-! The secrets of a session with tokens.  Two such sessions that differ in their secrets alone go
the same way on the same replies, and send the same requests but for the authorization of those for
a token; all other requests carry a token. -/

namespace PullGate

open Net

/-! ### Two wires and two actions -/

/-- One request, or two for a token that differ in their authorization. -/
inductive Http.Request.Alike : Http.Request → Http.Request → Prop
  | same (r : Http.Request) : Alike r r
  | exchange (r : Http.Request) (authorization : Option Text) (h : r.url = Token.endpoint) :
    Alike r { r with authorization }

/-- Wires that differ at most in the secrets that were sent. -/
structure Wire.Alike (w w' : Wire) : Prop where
  replies : w.replies = w'.replies
  sent : List.Forall₂ Http.Request.Alike w.sent w'.sent
  token : w.token = w'.token
  log : w.log = w'.log

theorem Wire.Alike.refl (w : Wire) : w.Alike w :=
  ⟨rfl, List.forall₂_same.mpr fun r _ => .same r, rfl, rfl⟩

namespace Net

variable {α β : Type} {x x' : Net α} {f f' : α → Net β}

/-- From wires that are alike, both actions come to one result and to wires that are alike. -/
def Twin (x x' : Net α) : Prop :=
  ∀ ⦃w w' : Wire⦄, w.Alike w' →
    (on x w).1 = (on x' w').1 ∧ (on x w).2.Alike (on x' w').2

theorem Twin.except (result : Except Failure α) : Twin (liftM result) (liftM result) := by
  intro w w' h
  rw [on_except, on_except]
  exact ⟨rfl, h⟩

theorem Twin.pure (a : α) : Twin (Pure.pure a) (Pure.pure a) := fun _ _ h => ⟨rfl, h⟩

theorem Twin.throw (e : Failure) : Twin (MonadExcept.throw e : Net α) (MonadExcept.throw e) :=
  fun _ _ h => ⟨rfl, h⟩

theorem Twin.throw_bind (e : Failure) :
    Twin (MonadExcept.throw e >>= f) (MonadExcept.throw e >>= f') :=
  fun _ _ h => ⟨rfl, h⟩

theorem Twin.bind (hx : Twin x x') (hf : ∀ a, Twin (f a) (f' a)) :
    Twin (x >>= f) (x' >>= f') := by
  intro w w' h
  obtain ⟨hresult, hwires⟩ := hx h
  rw [on_bind, on_bind]
  cases hv : on x w with
  | mk v u =>
    cases hv' : on x' w' with
    | mk v' u' =>
      rw [hv, hv'] at hresult hwires
      obtain rfl : v = v' := hresult
      cases v with
      | error e => exact ⟨rfl, hwires⟩
      | ok a => exact hf a hwires

theorem Twin.transmit {r r' : Http.Request} (hr : r.Alike r') :
    Twin (liftM (Wire.transmit r)) (liftM (Wire.transmit r')) := by
  intro w w' h
  rw [on_transmit, on_transmit]
  refine ⟨?_, ?_, ?_, h.token, h.log⟩
  · rw [Hop.heard, Hop.heard, Wire.hop, Wire.hop, h.replies]
  · exact congrArg List.tail h.replies
  · exact List.rel_append h.sent (.cons hr .nil)

theorem Twin.record (entry : Log.Entry) :
    Twin (liftM (Wire.record entry)) (liftM (Wire.record entry)) :=
  fun _ _ h => ⟨rfl, h.replies, h.sent, h.token, congrArg (· ++ [entry]) h.log⟩

theorem Twin.keepToken (token : Json) :
    Twin (liftM (Wire.keepToken token)) (liftM (Wire.keepToken token)) :=
  fun _ _ h => ⟨rfl, h.replies, h.sent, rfl, h.log⟩

end Net

/-! ### Two sessions -/

namespace Token

variable {k k' : Credentials}

theorem Credentials.alike_request {r r' : Http.Request} (htimeout : k.timeout = k'.timeout)
    (hk : k.request = .ok r) (hk' : k'.request = .ok r') : r.Alike r' := by
  unfold Credentials.request at hk hk'
  split at hk
  · cases hk
  · split at hk'
    · cases hk'
    · obtain rfl := Except.ok.inj hk
      obtain rfl := Except.ok.inj hk'
      rw [← htimeout]
      exact .exchange _ _ rfl

theorem twin_renew {r r' : Http.Request} (hk : k.request = .ok r) (hk' : k'.request = .ok r')
    (hr : r.Alike r') : Twin (renew k) (renew k') := by
  unfold renew
  rw [hk, hk']
  simp only [pure_bind]
  refine .bind (.transmit hr) fun reply => ?_
  cases reply with
  | error fault => exact .throw_bind _
  | ok response =>
    exact .bind (.except _) fun token =>
      .bind (.record _) fun _ => .bind (.keepToken token) fun _ => .pure token

theorem twin_current (h : Twin (renew k) (renew k')) : Twin (current k) (current k') := by
  intro w w' hw
  rw [on_current, on_current, ← hw.token]
  split
  · exact ⟨rfl, hw⟩
  · exact h hw

end Token

/-- What of a call is checked to make it into a request, whatever the session. -/
def Call.checked (c : Call) : Except Stop Text := do
  let url ← (Url.prepare c.idna c.url c.query).mapError .address
  if c.body.all Json.isStandard then return url else throw .unwritableBody

namespace Session

variable {k k' : Token.Credentials} {r r' : Http.Request} {s s' : Session}

theorem twin_deliver (r : Http.Request) : Twin (deliver r) (deliver r) := by
  unfold deliver
  cases Url.isSendable r.url with
  | false => exact .throw _
  | true =>
    refine .bind (.transmit (.same r)) fun reply => ?_
    cases reply with
    | error fault => exact .throw _
    | ok response => exact .pure response

theorem twin_sendWithToken (h : Twin (Token.renew k) (Token.renew k'))
    (hr : ∀ token, bearing token r = bearing token r') :
    Twin (sendWithToken k r) (sendWithToken k' r') := by
  have hattach : Twin (attach k r) (attach k' r') :=
    .bind (Token.twin_current h) fun token =>
      show Twin (pure (bearing token r)) (pure (bearing token r')) from hr token ▸ .pure _
  have hagain : ∀ sent status, Twin (reauthenticate k sent status)
      (reauthenticate k' sent status) := fun sent status =>
    .bind (.record _) fun _ => .bind h fun token => .pure _
  refine .bind hattach fun sent => .bind (twin_deliver sent) fun first => ?_
  split
  · exact .bind (hagain sent _) fun retry => .bind (twin_deliver retry) fun _ => .pure _
  · exact .pure _

/-- Sessions with tokens that differ in their secrets alone, with none that cannot be sent. -/
structure Rekeyed (s s' : Session) : Prop where
  accept : s.accept = s'.accept
  headerFits : s.HeaderFits
  headerFits' : s'.HeaderFits
  bearers : ∃ k k' r r', s.bearer = some k ∧ s'.bearer = some k' ∧ k.timeout = k'.timeout ∧
    k.request = .ok r ∧ k'.request = .ok r'

theorem prepare_of_headerFits (h : s.HeaderFits) (c : Call) :
    s.prepare c = c.checked.map (s.draft c) := by
  unfold prepare Call.checked draft
  cases Url.prepare c.idna c.url c.query with
  | error fault => rfl
  | ok url =>
    cases hvalue : s.authorization with
    | none =>
      cases c.body with
      | none => rfl
      | some body => cases hb : body.isStandard <;> simp [hb] <;> rfl
    | some value =>
      cases c.body with
      | none => simp [h value hvalue] ; rfl
      | some body => cases hb : body.isStandard <;> simp [hb, h value hvalue] <;> rfl

theorem Rekeyed.twin_perform (h : s.Rekeyed s') (c : Call) :
    Twin (s.perform c) (s'.perform c) := by
  obtain ⟨k, k', r, r', hk, hk', htimeout, hrequest, hrequest'⟩ := h.bearers
  have hrenew : Twin (Token.renew k) (Token.renew k') := Token.twin_renew hrequest hrequest'
    (Token.Credentials.alike_request htimeout hrequest hrequest')
  refine .bind ?_ fun e => .pure e.response
  unfold exchange
  rw [prepare_of_headerFits h.headerFits, prepare_of_headerFits h.headerFits', hk, hk']
  cases c.checked with
  | error cause => exact .throw _
  | ok url =>
    refine twin_sendWithToken hrenew fun token => ?_
    simp only [bearing, draft, h.accept]

/-- What a session does with a dialogue, another that differs in its secrets does as well. -/
theorem Rekeyed.carryOut {α : Type} (h : s.Rekeyed s') (d : Dialogue α) :
    ∀ ⦃w w' : Wire⦄, w.Alike w' → (s.carryOut d w).1 = (s'.carryOut d w').1 ∧
      (s.carryOut d w).2.Alike (s'.carryOut d w').2 := by
  induction d with
  | done value => exact fun w w' hw => ⟨rfl, hw⟩
  | log entry next ih =>
    intro w w' hw
    exact ih ⟨hw.replies, hw.sent, hw.token, congrArg (· ++ [entry]) hw.log⟩
  | call c next ih =>
    intro w w' hw
    have hcall : ∀ (s : Session) (w : Wire), s.carryOut (.call c next) w =
        s.carryOut (next (on (s.perform c) w).1) (on (s.perform c) w).2 := fun _ _ => rfl
    obtain ⟨hanswer, hwires⟩ := h.twin_perform c hw
    rw [hcall, hcall, hanswer]
    exact ih _ hwires

end Session

/-! ### What is not an exchange -/

theorem Token.header_ne_basic (token : Json) (t : Text) : header token ≠ "Basic " ++ t := by
  intro h
  have hsecond : (header token)[1]? = ("Basic " ++ t : Text)[1]? := congrArg (·[1]?) h
  cases hsecond

/-- The hop is an exchange of the credentials, or its request carries a token. -/
def Token.Credentials.Spares (k : Token.Credentials) (h : Hop) : Prop :=
  k.isExchange h = true ∨ ∃ token, h.request.authorization = some (Token.header token)

section Spares

variable {k : Token.Credentials} {token token' : Json} {H : List Hop}

theorem Token.Renewal.spares {result : Except Failure Json}
    (h : Renewal k token H result token') : ∀ hop ∈ H, k.Spares hop := by
  cases h with
  | unwritable => exact List.forall_mem_nil _
  | refused h | granted h =>
    exact List.forall_mem_singleton.mpr (.inl (Credentials.isExchange_of_request h))

theorem Token.Attachment.spares {result : Except Failure Json}
    (h : Attachment k token H result token') : ∀ hop ∈ H, k.Spares hop := by
  cases h with
  | kept => exact List.forall_mem_nil _
  | renewed _ hrenewal => exact hrenewal.spares

namespace Session

variable {s : Session} {r : Http.Request} {answer : Answer}

theorem Delivery.spares {attached : Json}
    (h : Delivery (bearing attached r) token H answer token') : ∀ hop ∈ H, k.Spares hop := by
  cases h with
  | barred => exact List.forall_mem_nil _
  | sent _ hrequest =>
    exact List.forall_mem_singleton.mpr (.inr ⟨attached, by rw [hrequest]; rfl⟩)

theorem BearerHandling.spares (h : BearerHandling k r token H answer token') :
    ∀ hop ∈ H, k.Spares hop := by
  cases h with
  | unattached hattach => exact hattach.spares
  | taken hattach hdelivery =>
    exact List.forall_mem_append.mpr ⟨hattach.spares, hdelivery.spares⟩
  | unrenewed hattach hdelivery _ hrenewal =>
    exact List.forall_mem_append.mpr ⟨hattach.spares,
      List.forall_mem_append.mpr ⟨hdelivery.spares, hrenewal.spares⟩⟩
  | resent hattach hdelivery _ hrenewal hdelivery' =>
    exact List.forall_mem_append.mpr ⟨hattach.spares, List.forall_mem_append.mpr
      ⟨hdelivery.spares, List.forall_mem_append.mpr ⟨hrenewal.spares, hdelivery'.spares⟩⟩⟩

/-- A session with tokens sends its credentials to no address but that of the endpoint. -/
theorem Serves.spares {said : List (Call × Answer)} (hk : s.bearer = some k)
    (h : s.Serves token said H token') : ∀ hop ∈ H, k.Spares hop := by
  induction h with
  | nil => exact List.forall_mem_nil _
  | cons h _ ih =>
    refine List.forall_mem_append.mpr ⟨?_, ih⟩
    cases h with
    | unprepared => exact List.forall_mem_nil _
    | plain _ hplain => rw [hk] at hplain; cases hplain
    | bearer _ hbearer hhandling =>
      obtain rfl := Option.some.inj (hk.symm.trans hbearer)
      exact hhandling.spares

end Session

end Spares

end PullGate
