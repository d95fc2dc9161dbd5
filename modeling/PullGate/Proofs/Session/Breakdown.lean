import PullGate.Proofs.Dialogue.Breakdown
import PullGate.Proofs.Session.Settled

/-! Breakdowns of a session.  A call breaks down on a hop whose answer is looked into and is a
reason to, or because the address names credentials that do not fit into a header; nothing else of
what is sent and heard does it.  The answer to a challenged request is not looked into, as long as a
new token can be sought for it. -/

namespace PullGate

namespace Session

/-! ### Hops whose answers are looked into -/

/-- Whether a new token is sought for a challenge: the exchange for it follows, unless the
credentials cannot be written down. -/
def isPassedOver (s : Session) (h : Hop) (H : List Hop) : Bool :=
  !s.isExchange h && isChallenged h && s.bearer.any fun k =>
    match k.request with
    | .ok _ => H.head?.any s.isExchange
    | .error _ => true

/-- The hops whose answers are looked into. -/
def heeded (s : Session) : List Hop → List Hop
  | [] => []
  | h :: H => if s.isPassedOver h H then s.heeded H else h :: s.heeded H

variable {s : Session} {c : Call} {k : Token.Credentials} {cause : Breakdown} {h : Hop}
  {H H' : List Hop}

theorem isPassedOver_exchange (he : s.isExchange h = true) (H : List Hop) :
    s.isPassedOver h H = false := by
  simp [isPassedOver, he]

theorem isPassedOver_plain (hs : s.bearer = none) (h : Hop) (H : List Hop) :
    s.isPassedOver h H = false := by
  simp [isPassedOver, hs]

theorem isPassedOver_opens (hH : s.Opens H) : s.isPassedOver h H = s.isPassedOver h [] := by
  have hhead : H.head?.any s.isExchange = false := by
    cases hH' : H.head? with
    | none => rfl
    | some x => exact hH x hH'
  simp [isPassedOver, hhead]

theorem heeded_exchanges (he : ∀ x ∈ H, s.isExchange x = true) (H' : List Hop) :
    s.heeded (H ++ H') = H ++ s.heeded H' := by
  induction H with
  | nil => rfl
  | cons x H ih =>
    obtain ⟨hx, hH⟩ := List.forall_mem_cons.mp he
    rw [List.cons_append, heeded, isPassedOver_exchange hx, ih hH]
    rfl

/-- Hops in front of which no exchange stands are heeded on their own. -/
theorem heeded_append (hH : s.Opens H') (H : List Hop) :
    s.heeded (H ++ H') = s.heeded H ++ s.heeded H' := by
  induction H with
  | nil => rfl
  | cons x H ih =>
    have hx : s.isPassedOver x (H ++ H') = s.isPassedOver x H := by
      cases H with
      | nil => exact isPassedOver_opens hH
      | cons y H => rfl
    rw [List.cons_append, heeded, heeded, hx, ih]
    split <;> rfl

/-! ### The slot between calls -/

theorem opens_plain (hs : s.bearer = none) (H : List Hop) : s.Opens H :=
  fun _ _ => by simp [isExchange, hs]

theorem Opens.append (hH : s.Opens H) (hH' : s.Opens H') : s.Opens (H ++ H') := by
  cases H with
  | nil => exact hH'
  | cons x H => exact hH

theorem isTruthy_of_renewal {token token' : Json} {result : Except Failure Json}
    (h : Token.Renewal k token H result token') (ht : token.isTruthy = true) :
    token'.isTruthy = true := by
  cases h with
  | unwritable => exact ht
  | refused => exact ht
  | granted _ hgranted => exact Hop.isTruthy_of_granted hgranted

/-- A token that is attached fills the slot, and takes no exchange if the slot was not empty. -/
theorem isTruthy_of_attachment {token token' attached : Json}
    (h : Token.Attachment k token H (.ok attached) token') :
    attached.isTruthy = true ∧ (token.isTruthy = true → H = []) := by
  cases h with
  | kept ht => exact ⟨ht, fun _ => rfl⟩
  | renewed ht hrenewal =>
    refine ⟨?_, fun h => ?_⟩
    · cases hrenewal with
      | granted _ hgranted => exact Hop.isTruthy_of_granted hgranted
    · rw [ht] at h
      cases h

theorem not_unattached {token token' : Json} {e : Failure}
    (h : Token.Attachment k token H (.error e) token') : token.isTruthy = false := by
  cases h with
  | renewed ht _ => exact ht

/-- A call leaves a token in the slot, or came to nothing but an exchange. -/
theorem slot_bearer {r : Http.Request} {token token' : Json} {answer : Answer}
    (hr : s.prepare c = .ok r) (hs : s.bearer = some k)
    (h : BearerHandling k r token H answer token') :
    ((∀ x ∈ H, s.isExchange x = true) ∨ token'.isTruthy = true) ∧
      (token.isTruthy = true → s.Opens H ∧ token'.isTruthy = true) := by
  have hopens : ∀ {H₁ H₂ H₃ : List Hop} {attached between : Json} {first : Answer},
      Token.Attachment k token H₁ (.ok attached) attached →
      Delivery (bearing attached r) attached H₂ first between →
      (H₂ = [] → s.Opens H₃) → token.isTruthy = true → s.Opens (H₁ ++ (H₂ ++ H₃)) := by
    intro H₁ H₂ H₃ attached between first hattach hdelivery hH₃ ht
    rw [(isTruthy_of_attachment hattach).2 ht]
    have hnone := isExchange_of_delivery hr hdelivery
    cases H₂ with
    | nil => exact hH₃ rfl
    | cons x H₂ =>
      rintro y hy
      obtain rfl := Option.some.inj hy
      exact hnone _ (.head _)
  cases h with
  | unattached hattach =>
    refine ⟨.inl (isExchange_of_attachment hs hattach), fun ht => ?_⟩
    rw [not_unattached hattach] at ht
    cases ht
  | @taken _ _ _ _ _ _ hattach hdelivery _ =>
    have ht := (isTruthy_of_attachment hattach).1
    rw [← hdelivery.slot] at ht
    refine ⟨.inr ht, fun h => ⟨?_, ht⟩⟩
    have hall := hopens hattach hdelivery (fun _ => s.opens_nil) h
    rwa [List.append_nil] at hall
  | unrenewed hattach hdelivery hfirst hrenewal =>
    have ht := isTruthy_of_renewal hrenewal (isTruthy_of_attachment hattach).1
    obtain ⟨hop, rfl, -⟩ := hdelivery.of_challenging hfirst
    exact ⟨.inr ht, fun h => ⟨hopens hattach hdelivery (fun h => nomatch h) h, ht⟩⟩
  | resent hattach hdelivery hfirst hrenewal hdelivery' =>
    have ht := isTruthy_of_renewal hrenewal (isTruthy_of_attachment hattach).1
    rw [← hdelivery'.slot] at ht
    obtain ⟨hop, rfl, -⟩ := hdelivery.of_challenging hfirst
    exact ⟨.inr ht, fun h => ⟨hopens hattach hdelivery (fun h => nomatch h) h, ht⟩⟩

theorem slot_handling {token token' : Json} {answer : Answer}
    (h : Handling s c token H answer token') :
    (s.bearer = none ∨ (∀ x ∈ H, s.isExchange x = true) ∨ token'.isTruthy = true) ∧
      (token.isTruthy = true → s.Opens H ∧ token'.isTruthy = true) := by
  cases h with
  | unprepared => exact ⟨.inr (.inl fun _ hx => nomatch hx), fun ht => ⟨s.opens_nil, ht⟩⟩
  | plain _ hplain hhandling =>
    refine ⟨.inl hplain, fun ht => ⟨opens_plain hplain H, ?_⟩⟩
    cases hhandling with
    | barred => exact ht
    | delivered _ hdelivery => rwa [hdelivery.slot]
  | bearer h hbearer hhandling =>
    obtain ⟨hslot, hopens⟩ := slot_bearer h hbearer hhandling
    exact ⟨.inr hslot, hopens⟩

theorem Serves.opens {said : List (Call × Answer)} {token token' : Json}
    (h : Serves s token said H token') (ht : token.isTruthy = true) : s.Opens H := by
  induction h with
  | nil => exact s.opens_nil
  | cons h _ ih =>
    obtain ⟨hopens, ht'⟩ := (slot_handling h).2 ht
    exact hopens.append (ih ht')

/-- The hops of a call are heeded on their own. -/
theorem heeded_cons {token between token' : Json} {answer : Answer} {said : List (Call × Answer)}
    (h : Handling s c token H answer between) (hserves : Serves s between said H' token') :
    s.heeded (H ++ H') = s.heeded H ++ s.heeded H' := by
  rcases (slot_handling h).1 with hplain | hexchanges | ht
  · exact heeded_append (opens_plain hplain H') H
  · have hall := heeded_exchanges hexchanges []
    rw [List.append_nil] at hall
    rw [heeded_exchanges hexchanges, hall]
    simp [heeded]
  · exact heeded_append (hserves.opens ht) H

/-! ### Breakdowns -/

/-- Why a hop breaks a session down, if it does: an exchange by the answer of the endpoint, any
other hop by the answer to the call. -/
def breakdown? (s : Session) (h : Hop) : Option Breakdown :=
  if s.isExchange h then
    match h.granted with
    | .error (.breakdown cause) => some cause
    | _ => none
  else h.answer.breakdown? h.request.method h.request.body

/-- A plain session cannot write down the credentials that an address names. -/
def Unwritable (s : Session) (c : Call) (cause : Breakdown) : Prop :=
  s.bearer = none ∧ ∃ r fault, s.prepare c = .ok r ∧
    withAddressCredentials r = .error fault ∧ cause = .credentials fault

def Breaks (s : Session) (H : List Hop) (cause : Breakdown) : Prop :=
  ∃ h ∈ s.heeded H, s.breakdown? h = some cause

theorem not_breaks_nil : ¬s.Breaks [] cause := by simp [Breaks, heeded]

theorem breaks_append (h : s.heeded (H ++ H') = s.heeded H ++ s.heeded H') :
    s.Breaks (H ++ H') cause ↔ s.Breaks H cause ∨ s.Breaks H' cause := by
  simp only [Breaks, h, List.mem_append, or_and_right, exists_or]

theorem breaks_exchanges (he : ∀ x ∈ H, s.isExchange x = true) :
    s.Breaks (H ++ H') cause ↔ s.Breaks H cause ∨ s.Breaks H' cause := by
  have hall := heeded_exchanges he []
  rw [List.append_nil] at hall
  apply breaks_append
  rw [heeded_exchanges he, hall]
  simp [heeded]

theorem breaks_singleton (h : Hop) (hh : s.isPassedOver h [] = false) :
    s.Breaks [h] cause ↔ s.breakdown? h = some cause := by
  simp [Breaks, heeded, hh]

theorem breakdown?_exchange (he : s.isExchange h = true) :
    s.breakdown? h = some cause ↔ h.granted = .error (.breakdown cause) := by
  unfold breakdown?
  rw [if_pos he]
  cases h.granted with
  | ok token => simp
  | error e => cases e <;> simp

theorem breaks_renewal {token token' : Json} {result : Except Failure Json}
    (hs : s.bearer = some k) (h : Token.Renewal k token H result token') :
    s.Breaks H cause ↔ result = .error (.breakdown cause) := by
  have hexchange := isExchange_of_renewal hs h
  cases h with
  | unwritable => simp [not_breaks_nil]
  | refused hk hrefused =>
    have he := hexchange _ (.head _)
    rw [breaks_singleton _ (isPassedOver_exchange he []), breakdown?_exchange he, hrefused]
  | granted hk hgranted =>
    have he := hexchange _ (.head _)
    rw [breaks_singleton _ (isPassedOver_exchange he []), breakdown?_exchange he, hgranted]

theorem breaks_attachment {token token' : Json} {result : Except Failure Json}
    (hs : s.bearer = some k) (h : Token.Attachment k token H result token') :
    s.Breaks H cause ↔ result = .error (.breakdown cause) := by
  cases h with
  | kept => simp [not_breaks_nil]
  | renewed _ hrenewal => exact breaks_renewal hs hrenewal

theorem breaks_delivery {r : Http.Request} {token token' : Json} {answer : Answer}
    {authorization : Option Text} (hr : s.prepare c = .ok r)
    (h : Delivery { r with authorization } token H answer token')
    (hheeded : ∀ x ∈ H, s.isPassedOver x [] = false) :
    s.Breaks H cause ↔ c.breakdown? answer = some cause := by
  have hexchange := isExchange_of_delivery hr h
  obtain ⟨url, -, -, -, hdraft⟩ := prepare_eq_ok.mp hr
  cases h with
  | barred => simp [not_breaks_nil, Call.breakdown?, Answer.breakdown?]
  | @sent _ hop _ hrequest =>
    have hmethod : hop.request.method = c.method := by rw [hrequest, ← hdraft]; rfl
    have hbody : hop.request.body = c.body.map Json.write := by rw [hrequest, ← hdraft]; rfl
    rw [breaks_singleton _ (hheeded _ (.head _)), breakdown?, hexchange _ (.head _), hmethod, hbody]
    rfl

/-- A challenge that a new token is sought for is passed over. -/
theorem heeded_challenge {token between token' : Json} {result : Except Failure Json}
    {r : Http.Request} {first : Answer} {authorization : Option Text} (hr : s.prepare c = .ok r)
    (hs : s.bearer = some k) (h : Delivery { r with authorization } token H first between)
    (hfirst : Challenging first) (hrenewal : Token.Renewal k between H' result token')
    (rest : List Hop) : s.heeded (H ++ (H' ++ rest)) = s.heeded (H' ++ rest) := by
  have hexchange := isExchange_of_delivery hr h
  obtain ⟨hop, rfl, -, -, hchallenged⟩ := h.of_challenging hfirst
  have hpassed : s.isPassedOver hop (H' ++ rest) = true := by
    unfold isPassedOver
    rw [hexchange _ (.head _), hchallenged, hs]
    cases hrenewal with
    | unwritable hfault => simp [hfault]
    | refused hk _ => simp [hk, isExchange_of_request hs hk]
    | granted hk _ => simp [hk, isExchange_of_request hs hk]
  rw [List.singleton_append, heeded, if_pos hpassed]

theorem not_isChallenged_of_delivery {r : Http.Request} {token token' : Json} {answer : Answer}
    (h : Delivery r token H answer token') (hanswer : ¬Challenging answer) :
    ∀ x ∈ H, isChallenged x = false := by
  cases h with
  | barred => exact fun _ hx => nomatch hx
  | @sent _ hop _ _ =>
    rw [List.forall_mem_singleton]
    unfold isChallenged
    cases hheard : hop.heard with
    | error fault => rfl
    | ok response =>
      have hresponse : hop.answer = .ok response := by simp [Hop.answer, Answer.ofReply, hheard]
      exact Bool.eq_false_iff.mpr fun hc => hanswer ⟨response, hresponse, hc⟩

theorem breaks_bearer {r : Http.Request} {token token' : Json} {answer : Answer}
    (hr : s.prepare c = .ok r) (hs : s.bearer = some k)
    (h : BearerHandling k r token H answer token') :
    s.Breaks H cause ↔ c.breakdown? answer = some cause := by
  cases h with
  | unattached hattach =>
    rw [breaks_attachment hs hattach, Call.breakdown?, Answer.breakdown?_error, Except.error.injEq]
  | @taken _ _ _ _ last _ hattach hdelivery hanswer =>
    have hheeded : ∀ x ∈ last, s.isPassedOver x [] = false := fun x hx => by
      simp [isPassedOver, not_isChallenged_of_delivery hdelivery hanswer x hx]
    rw [breaks_exchanges (isExchange_of_attachment hs hattach), breaks_attachment hs hattach,
      breaks_delivery hr hdelivery hheeded]
    simp
  | @unrenewed _ _ _ _ first exchange _ _ hattach hdelivery hfirst hrenewal =>
    have hchallenge := heeded_challenge hr hs hdelivery hfirst hrenewal []
    rw [List.append_nil] at hchallenge
    have hbreaks : s.Breaks (first ++ exchange) cause ↔ s.Breaks exchange cause := by
      rw [Breaks, hchallenge, Breaks]
    rw [breaks_exchanges (isExchange_of_attachment hs hattach), breaks_attachment hs hattach,
      hbreaks, breaks_renewal hs hrenewal, Call.breakdown?, Answer.breakdown?_error]
    simp
  | @resent _ _ _ _ _ first exchange last _ _ hattach hdelivery hfirst hrenewal hdelivery' =>
    have hbreaks : s.Breaks (first ++ (exchange ++ last)) cause ↔
        s.Breaks (exchange ++ last) cause := by
      rw [Breaks, heeded_challenge hr hs hdelivery hfirst hrenewal, Breaks]
    -- a second challenge is an answer for good: no new token is sought for it
    have hheeded : ∀ x ∈ last, s.isPassedOver x [] = false := fun x _ => by
      cases hrenewal with
      | granted hk _ => simp [isPassedOver, hs, hk]
    rw [breaks_exchanges (isExchange_of_attachment hs hattach), breaks_attachment hs hattach,
      hbreaks, breaks_exchanges (isExchange_of_renewal hs hrenewal), breaks_renewal hs hrenewal,
      breaks_delivery hr hdelivery' hheeded]
    simp

/-- A call breaks down on one of its hops, or on the credentials of its address. -/
theorem breaks_handling {token token' : Json} {answer : Answer}
    (h : Handling s c token H answer token') :
    c.breakdown? answer = some cause ↔ s.Unwritable c cause ∨ s.Breaks H cause := by
  unfold Unwritable
  cases h with
  | unprepared h => simp [Call.breakdown?, Answer.breakdown?, not_breaks_nil, h]
  | plain h hplain hhandling =>
    cases hhandling with
    | barred hfault =>
      simp [Call.breakdown?, Answer.breakdown?, not_breaks_nil, hplain, h, hfault, eq_comm]
    | delivered hok hdelivery =>
      obtain ⟨authorization, rfl⟩ := exists_authorization hok
      rw [breaks_delivery h hdelivery fun x _ => isPassedOver_plain hplain x []]
      simp [h, hok]
  | bearer h hbearer hhandling =>
    rw [breaks_bearer h hbearer hhandling]
    simp [hbearer]

theorem Unwritable.not_plain {url : Text} (h : s.Unwritable c cause)
    (hurl : Url.prepare c.idna c.url c.query = .ok url) : ¬Url.PlainCredentials url := by
  obtain ⟨-, r, fault, hr, hfault, -⟩ := h
  obtain ⟨url', hurl', -, -, rfl⟩ := prepare_eq_ok.mp hr
  obtain rfl := Except.ok.inj (hurl.symm.trans hurl')
  intro hplain
  obtain ⟨authorization, hok⟩ := withAddressCredentials_of_plain (r := s.draft c url) hplain
  rw [hfault] at hok
  cases hok

theorem Handling.reachable_of_ok {token token' : Json} {H : List Hop} {response : Http.Response}
    (hplain : s.bearer = none) (h : Handling s c token H (.ok response) token') :
    Url.Reachable c.idna c.url c.query := by
  cases h with
  | bearer _ hbearer _ => rw [hplain] at hbearer; cases hbearer
  | plain h _ hhandling =>
    obtain ⟨url, hurl, -, -, rfl⟩ := prepare_eq_ok.mp h
    cases hhandling with
    | delivered hok hdelivery =>
      have hcredentials := plainCredentials_of_ok hok
      obtain ⟨authorization, rfl⟩ := exists_authorization hok
      exact ⟨url, hurl, hdelivery.sendable_of_ok, hcredentials⟩

/-- A session breaks down on a call exactly if it does on a hop whose answer is looked into, or on
the credentials of an address. -/
theorem breaks_serves {token token' : Json} {said : List (Call × Answer)}
    (h : Serves s token said H token') :
    (∃ x ∈ said, x.1.breakdown? x.2 = some cause) ↔
      (∃ x ∈ said, s.Unwritable x.1 cause) ∨ s.Breaks H cause := by
  induction h with
  | nil => simp [not_breaks_nil]
  | cons h hserves ih =>
    simp only [List.mem_cons, exists_eq_or_imp, ih, breaks_handling h,
      breaks_append (heeded_cons h hserves)]
    exact or_or_or_comm

end Session

end PullGate
