import PullGate.Proofs.Session.Settled

/-! Which hop settles a call.  A call is answered by the last request that was sent for it, or by a
failure of the session's own; the requests before that one were challenged.  So the faults of the
network that calls come to are those that their requests came to. -/

namespace PullGate.Session

variable {s : Session} {c : Call} {k : Token.Credentials} {r : Http.Request} {token token' : Json}
  {H H' : List Hop} {answer : Answer} {e : Failure}

/-- A failure that is neither of the network nor an answer of the service. -/
def IsOwn : Failure → Prop
  | .stop (.network _ _) | .stop (.provider _ _) => False
  | _ => True

/-- A hop that settles nothing: an exchange, or a request that is sent again. -/
def Passing (s : Session) (h : Hop) : Prop := s.isExchange h = true ∨ isChallenged h = true

/-- How the hops for a call settle it. -/
structure Settles (s : Session) (c : Call) (H : List Hop) (answer : Answer) : Prop where
  makes : ∀ h ∈ H, s.isExchange h = false → c.Makes h.request
  settled : (∃ before last, H = before ++ [last] ∧ (∀ h ∈ before, s.Passing h) ∧
      s.isExchange last = false ∧ answer = last.answer) ∨
    (∀ h ∈ H, s.Passing h) ∧ ∃ e, answer = .error e ∧ IsOwn e

theorem Settles.of_own (h : IsOwn e) : s.Settles c [] (.error e) :=
  ⟨by simp, .inr ⟨by simp, e, rfl, h⟩⟩

/-- A call is sent, unless a failure of the session's own keeps it from that. -/
theorem Settles.exists_call (h : s.Settles c H answer) :
    (∃ hop ∈ H, s.isExchange hop = false) ∨ ∃ e, answer = .error e ∧ IsOwn e := by
  rcases h.settled with ⟨before, last, rfl, -, hlast, -⟩ | ⟨-, hown⟩
  · exact .inl ⟨last, List.mem_append_right _ (.head _), hlast⟩
  · exact .inr hown

/-- What comes after hops that settle nothing settles the call. -/
theorem Settles.append (hmakes : ∀ h ∈ H, s.isExchange h = false → c.Makes h.request)
    (hpassing : ∀ h ∈ H, s.Passing h) (h : s.Settles c H' answer) :
    s.Settles c (H ++ H') answer := by
  constructor
  · intro hop hhop
    rcases List.mem_append.mp hhop with hhop | hhop
    · exact hmakes hop hhop
    · exact h.makes hop hhop
  · rcases h.settled with ⟨before, last, rfl, hbefore, hlast⟩ | ⟨hall, hown⟩
    · refine .inl ⟨H ++ before, last, (List.append_assoc _ _ _).symm, ?_, hlast⟩
      exact List.forall_mem_append.mpr ⟨hpassing, hbefore⟩
    · exact .inr ⟨List.forall_mem_append.mpr ⟨hpassing, hall⟩, hown⟩

/-- The fault of an exchange is told as one of the authorization. -/
theorem isOwn_of_granted {h : Hop} (hrefused : h.granted = .error e) : IsOwn e := by
  unfold Hop.granted Token.ofResponse Token.ofMembers at hrefused
  split at hrefused
  · split at hrefused
    · cases hrefused
      trivial
    · split at hrefused
      · split at hrefused
        · cases hrefused
          trivial
        · split at hrefused
          · split at hrefused <;> cases hrefused <;> trivial
          · split at hrefused <;> cases hrefused
            trivial
      · cases hrefused
        trivial
      · cases hrefused
        trivial
  · next transport _ => cases transport <;> cases hrefused <;> trivial

/-- A call is refused for its address, for the header of the session, or for its body. -/
theorem prepare_error_cases {cause : Stop} (h : s.prepare c = .error cause) :
    (∃ fault, cause = .address fault) ∨ (∃ value, cause = .header value) ∨
      cause = .unwritableBody := by
  unfold prepare at h
  cases hurl : Url.prepare c.idna c.url c.query with
  | error fault =>
    simp only [hurl, Except.mapError, bind, Except.bind, Except.error.injEq] at h
    exact .inl ⟨fault, h.symm⟩
  | ok url =>
    simp only [hurl, Except.mapError, bind, Except.bind, pure, Except.pure, throw, throwThe,
      MonadExceptOf.throw] at h
    split at h
    · next value _ =>
      split at h
      · split at h
        · split at h
          · cases h
          · exact .inr (.inr (Except.error.inj h).symm)
        · cases h
      · exact .inr (.inl ⟨value, (Except.error.inj h).symm⟩)
    · split at h
      · split at h
        · cases h
        · exact .inr (.inr (Except.error.inj h).symm)
      · cases h

theorem isOwn_of_prepare {cause : Stop} (h : s.prepare c = .error cause) :
    IsOwn (.stop cause) := by
  rcases prepare_error_cases h with ⟨_, rfl⟩ | ⟨_, rfl⟩ | rfl
  · trivial
  · trivial
  · trivial

/-- A request of a call that is on its way settles it. -/
theorem Delivery.settles {authorization : Option Text} (hr : s.prepare c = .ok r)
    (h : Delivery { r with authorization } token H answer token') : s.Settles c H answer := by
  have hnone := isExchange_of_delivery hr h
  obtain ⟨url, hurl, -, -, rfl⟩ := prepare_eq_ok.mp hr
  cases h with
  | barred => exact .of_own trivial
  | @sent _ hop _ hrequest =>
    have hexchange : s.isExchange hop = false := hnone hop (.head _)
    refine ⟨?_, .inl ⟨[], hop, rfl, by simp, hexchange, rfl⟩⟩
    intro h hh _
    rw [List.mem_singleton.mp hh, hrequest]
    exact ⟨rfl, hurl, rfl, rfl, rfl⟩

theorem isOwn_of_renewal (h : Token.Renewal k token H (.error e) token') : IsOwn e := by
  cases h with
  | unwritable => trivial
  | refused _ hrefused => exact isOwn_of_granted hrefused

theorem isOwn_of_attachment (h : Token.Attachment k token H (.error e) token') : IsOwn e := by
  cases h with
  | renewed _ hrenewal => exact isOwn_of_renewal hrenewal

theorem Settles.after_exchanges (hH : ∀ hop ∈ H, s.isExchange hop = true)
    (h : s.Settles c H' answer) : s.Settles c (H ++ H') answer := by
  refine h.append ?_ fun hop hhop => .inl (hH hop hhop)
  intro hop hhop hexchange
  rw [hH hop hhop] at hexchange
  cases hexchange

theorem BearerHandling.settles (hs : s.bearer = some k) (hr : s.prepare c = .ok r)
    (h : BearerHandling k r token H answer token') : s.Settles c H answer := by
  cases h with
  | unattached hattach =>
    rw [← List.append_nil H]
    exact (Settles.of_own (isOwn_of_attachment hattach)).after_exchanges
      (isExchange_of_attachment hs hattach)
  | taken hattach hdelivery =>
    exact (hdelivery.settles hr).after_exchanges (isExchange_of_attachment hs hattach)
  | @unrenewed _ _ _ _ _ H'' _ _ hattach hdelivery hfirst hrenewal =>
    obtain ⟨hop, rfl, -, -, hchallenged⟩ := hdelivery.of_challenging hfirst
    apply Settles.after_exchanges (isExchange_of_attachment hs hattach)
    apply Settles.append (hdelivery.settles hr).makes (by simp [Passing, hchallenged])
    rw [← List.append_nil H'']
    exact (Settles.of_own (isOwn_of_renewal hrenewal)).after_exchanges
      (isExchange_of_renewal hs hrenewal)
  | resent hattach hdelivery hfirst hrenewal hdelivery' =>
    obtain ⟨hop, rfl, -, -, hchallenged⟩ := hdelivery.of_challenging hfirst
    apply Settles.after_exchanges (isExchange_of_attachment hs hattach)
    apply Settles.append (hdelivery.settles hr).makes (by simp [Passing, hchallenged])
    exact (hdelivery'.settles hr).after_exchanges (isExchange_of_renewal hs hrenewal)

/-- Every call is settled by the hops that are made for it. -/
theorem Handling.settles (h : Handling s c token H answer token') : s.Settles c H answer := by
  cases h with
  | unprepared h => exact .of_own (isOwn_of_prepare h)
  | plain h _ hhandling =>
    cases hhandling with
    | barred => exact .of_own trivial
    | delivered hok hdelivery =>
      obtain ⟨authorization, rfl⟩ := exists_authorization hok
      exact hdelivery.settles h
  | bearer h hbearer hhandling => exact hhandling.settles hbearer h

/-! ### Where requests are sent -/

theorem Delivery.sendable (h : Delivery r token H answer token') :
    ∀ hop ∈ H, Url.isSendable hop.request.url = true := by
  cases h with
  | barred => exact List.forall_mem_nil _
  | sent h hrequest =>
    rw [List.forall_mem_singleton, hrequest]
    exact h

/-- The requests for a call, exchanges apart, have addresses that can be sent to. -/
theorem BearerHandling.sendable (hs : s.bearer = some k)
    (h : BearerHandling k r token H answer token') :
    ∀ hop ∈ H, s.isExchange hop = false → Url.isSendable hop.request.url = true := by
  have hexchanges : ∀ {H : List Hop}, (∀ hop ∈ H, s.isExchange hop = true) →
      ∀ hop ∈ H, s.isExchange hop = false → Url.isSendable hop.request.url = true := by
    intro H hH hop hhop hexchange
    rw [hH hop hhop] at hexchange
    cases hexchange
  have hdelivered : ∀ {r : Http.Request} {token token' : Json} {H : List Hop} {answer : Answer},
      Delivery r token H answer token' →
        ∀ hop ∈ H, s.isExchange hop = false → Url.isSendable hop.request.url = true :=
    fun h hop hhop _ => h.sendable hop hhop
  cases h with
  | unattached hattach => exact hexchanges (isExchange_of_attachment hs hattach)
  | taken hattach hdelivery =>
    exact List.forall_mem_append.mpr
      ⟨hexchanges (isExchange_of_attachment hs hattach), hdelivered hdelivery⟩
  | unrenewed hattach hdelivery _ hrenewal =>
    exact List.forall_mem_append.mpr ⟨hexchanges (isExchange_of_attachment hs hattach),
      List.forall_mem_append.mpr
        ⟨hdelivered hdelivery, hexchanges (isExchange_of_renewal hs hrenewal)⟩⟩
  | resent hattach hdelivery _ hrenewal hdelivery' =>
    exact List.forall_mem_append.mpr ⟨hexchanges (isExchange_of_attachment hs hattach),
      List.forall_mem_append.mpr ⟨hdelivered hdelivery, List.forall_mem_append.mpr
        ⟨hexchanges (isExchange_of_renewal hs hrenewal), hdelivered hdelivery'⟩⟩⟩

theorem Handling.sendable (h : Handling s c token H answer token') :
    ∀ hop ∈ H, s.isExchange hop = false → Url.isSendable hop.request.url = true := by
  cases h with
  | unprepared => exact List.forall_mem_nil _
  | plain _ _ hhandling =>
    cases hhandling with
    | barred => exact List.forall_mem_nil _
    | delivered _ hdelivery => exact fun hop hhop _ => hdelivery.sendable hop hhop
  | bearer _ hbearer hhandling => exact hhandling.sendable hbearer

/-! ### Faults of the network -/

/-- A request that is no exchange came to a fault of the network. -/
def Faults (s : Session) (H : List Hop) (fault : NetworkFault) (message : Text) : Prop :=
  ∃ h ∈ H, s.isExchange h = false ∧ h.heard = .error (.network fault message)

section Faults

variable {fault : NetworkFault} {message : Text}

theorem not_faults_of_passing (h : ∀ hop ∈ H, s.Passing hop) : ¬s.Faults H fault message := by
  rintro ⟨hop, hhop, hexchange, hheard⟩
  rcases h hop hhop with h | h
  · rw [hexchange] at h
    cases h
  · unfold isChallenged at h
    rw [hheard] at h
    cases h

theorem faults_append : s.Faults (H ++ H') fault message ↔
    s.Faults H fault message ∨ s.Faults H' fault message := by
  simp only [Faults, List.mem_append, or_and_right, exists_or]

theorem answer_eq_network_iff {hop : Hop} :
    hop.answer = .error (.stop (.network fault message)) ↔
      hop.heard = .error (.network fault message) := by
  unfold Hop.answer Answer.ofReply Failure.ofTransport
  cases hop.heard with
  | ok response => simp
  | error transport => cases transport <;> simp

/-- A call comes to a fault of the network exactly if a request for it did. -/
theorem Settles.network_iff (h : s.Settles c H answer) :
    answer = .error (.stop (.network fault message)) ↔ s.Faults H fault message := by
  rcases h.settled with ⟨before, last, rfl, hbefore, hexchange, rfl⟩ | ⟨hall, e, rfl, hown⟩
  · rw [faults_append, answer_eq_network_iff]
    constructor
    · exact fun hheard => .inr ⟨last, .head _, hexchange, hheard⟩
    · rintro (hfaults | ⟨hop, hhop, -, hheard⟩)
      · exact absurd hfaults (not_faults_of_passing hbefore)
      · rwa [List.mem_singleton.mp hhop] at hheard
  · refine iff_of_false ?_ (not_faults_of_passing hall)
    intro heq
    obtain rfl := Except.error.inj heq
    exact hown

theorem Serves.network_iff {said : List (Call × Answer)} (h : Serves s token said H token') :
    (∃ x ∈ said, x.2 = .error (.stop (.network fault message))) ↔ s.Faults H fault message := by
  induction h with
  | nil => simp [Faults]
  | cons h _ ih =>
    simp only [List.mem_cons, exists_eq_or_imp, ih, faults_append, h.settles.network_iff]

end Faults

end PullGate.Session
