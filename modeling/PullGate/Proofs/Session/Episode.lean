import PullGate.Proofs.Session.Settled

/-! Episodes.  What a session with tokens sends for one call is an episode of at most four hops: an
exchange if the slot is empty, the request, and after a challenge another exchange and the request
once more.  The token in the slot is at any time that of the last exchange that granted one. -/

namespace PullGate

namespace Token

/-- A response that grants a token: a JSON object, of no server's failure, without an error, with a
lifetime that makes sense and a token that is not empty. -/
structure Grant (r : Http.Response) (members : List (Text × Json)) (token : Json) : Prop where
  status : ¬(500 ≤ r.status ∧ r.status < 600)
  body : r.json = .ok (.object members)
  error : Json.lookup "error" members = none
  lifetime : checkLifetime members = .ok ()
  accessToken : Json.lookup "access_token" members = some token
  isTruthy : token.isTruthy = true

theorem ofMembers_eq_ok_iff {members : List (Text × Json)} {token : Json} :
    ofMembers members = .ok token ↔ Json.lookup "error" members = none ∧
      checkLifetime members = .ok () ∧ Json.lookup "access_token" members = some token ∧
        token.isTruthy = true := by
  have hgiven : given? "access_token" members = some token ↔
      Json.lookup "access_token" members = some token ∧ token.isTruthy = true :=
    Option.filter_eq_some_iff
  rw [← hgiven]
  unfold ofMembers
  cases Json.lookup "error" members with
  | some error => simp
  | none =>
    cases checkLifetime members with
    | error fault => simp
    | ok lifetime =>
      cases given? "access_token" members with
      | none => simp
      | some found => simp

theorem ofResponse_eq_ok_iff {r : Http.Response} {token : Json} :
    ofResponse r = .ok token ↔ ∃ members, Grant r members token := by
  unfold ofResponse
  constructor
  · intro h
    split at h
    · cases h
    · next hstatus =>
      split at h
      · next members hread =>
        obtain ⟨herror, hlifetime, htoken, htruthy⟩ := ofMembers_eq_ok_iff.mp h
        exact ⟨members, by simpa using hstatus, hread, herror, hlifetime, htoken, htruthy⟩
      · cases h
      · cases h
  · rintro ⟨members, hstatus, hread, herror, hlifetime, htoken, htruthy⟩
    rw [if_neg (by simpa using hstatus), hread]
    exact ofMembers_eq_ok_iff.mpr ⟨herror, hlifetime, htoken, htruthy⟩

end Token

/-- An exchange grants a token exactly if it is answered, and the response grants it. -/
theorem Hop.granted_eq_ok_iff {h : Hop} {token : Json} : h.granted = .ok token ↔
    ∃ r members, h.heard = .ok r ∧ Token.Grant r members token := by
  unfold granted
  cases h.heard with
  | error fault => simp
  | ok r => simp [Token.ofResponse_eq_ok_iff]

namespace Token.Credentials

/-- The token in the slot after a hop: only an exchange that grants a token changes it. -/
def keep (k : Token.Credentials) (token : Json) (h : Hop) : Json :=
  match k.isExchange h, h.granted with
  | true, .ok new => new
  | _, _ => token

/-- The token in the slot after some hops: that of the last exchange among them that granted one. -/
def latest (k : Token.Credentials) (token : Json) (H : List Hop) : Json := H.foldl k.keep token

variable {k : Token.Credentials} {token : Json} {h : Hop}

theorem keep_of_granted {new : Json} (hk : k.isExchange h = true) (hg : h.granted = .ok new) :
    k.keep token h = new := by
  simp [keep, hk, hg]

theorem keep_of_refused {e : Failure} (hg : h.granted = .error e) : k.keep token h = token := by
  simp [keep, hg]

theorem keep_of_request (hk : k.isExchange h = false) : k.keep token h = token := by
  simp [keep, hk]

@[simp] theorem latest_nil : k.latest token [] = token := rfl

@[simp] theorem latest_cons (H : List Hop) :
    k.latest token (h :: H) = k.latest (k.keep token h) H := rfl

theorem latest_append (H H' : List Hop) :
    k.latest token (H ++ H') = k.latest (k.latest token H) H' := List.foldl_append

end Token.Credentials

namespace Session

/-- A call, the hops that were made for it, and what it came to. -/
structure Episode where
  call : Call
  opening : Option Hop := none
  first : Option Hop := none
  renewal : Option Hop := none
  second : Option Hop := none
  answer : Answer

namespace Episode

def hops (e : Episode) : List Hop :=
  e.opening.toList ++ (e.first.toList ++ (e.renewal.toList ++ e.second.toList))

/-- The token with which the first request of an episode goes out, `token` being in the slot before
the episode. -/
def held (k : Token.Credentials) (token : Json) (e : Episode) : Json :=
  k.latest token e.opening.toList

/-- The token with which a request goes out again. -/
def renewed (k : Token.Credentials) (token : Json) (e : Episode) : Json :=
  k.latest (e.held k token) e.renewal.toList

/-- An episode as it should be, `token` being in the slot before it. -/
structure Regular (k : Token.Credentials) (token : Json) (e : Episode) : Prop where
  exchange : ∀ h ∈ e.opening.toList ++ e.renewal.toList, k.request = .ok h.request
  opening_iff : e.opening.isSome = true ↔ token.isTruthy = false
  first_iff : e.first.isSome = true ↔ (e.held k token).isTruthy = true ∧
    ∃ url, Url.prepare e.call.idna e.call.url e.call.query = .ok url ∧ Url.isSendable url = true
  first : ∀ h ∈ e.first, k.isExchange h = false ∧ e.call.Makes h.request ∧
    h.request.authorization = some (Token.header (e.held k token))
  renewal_iff : e.renewal.isSome = true ↔ ∃ h ∈ e.first, isChallenged h = true
  second_iff : e.second.isSome = true ↔ ∃ h ∈ e.renewal, ∃ new, h.granted = .ok new
  second : ∀ h ∈ e.first, ∀ h' ∈ e.second, k.isExchange h' = false ∧
    h'.request = bearing (e.renewed k token) h.request
  refused : ∀ h ∈ e.opening.toList ++ e.renewal.toList, ∀ f, h.granted = .error f →
    e.hops.getLast? = some h ∧ e.answer = .error f
  answer_barred : e.first = none → (e.held k token).isTruthy = true → ∃ url,
    Url.prepare e.call.idna e.call.url e.call.query = .ok url ∧
      e.answer = .error (.stop (.noTransport url))
  answer_first : ∀ h ∈ e.first, isChallenged h = false → e.answer = h.answer
  answer_second : ∀ h ∈ e.second, e.answer = h.answer

end Episode

/-! ### The episodes of a session -/

/-- The exchange, if there is one, with which `attached` came to be in the slot. -/
structure Opened (k : Token.Credentials) (token attached : Json) (opening : Option Hop) : Prop where
  isSome_iff : opening.isSome = true ↔ token.isTruthy = false
  exchange : ∀ h ∈ opening, k.request = .ok h.request
  granted : ∀ h ∈ opening, h.granted = .ok attached
  latest : k.latest token opening.toList = attached
  isTruthy : attached.isTruthy = true

section Bearer

variable {s : Session} {c : Call} {k : Token.Credentials} {r : Http.Request}
  {token token' attached : Json} {H : List Hop} {answer : Answer} {opening : Option Hop}

theorem Opened.of_attachment (h : Token.Attachment k token H (.ok attached) token') :
    ∃ opening, H = opening.toList ∧ Opened k token attached opening := by
  cases h with
  | kept htoken => exact ⟨none, rfl, by simp [htoken], by simp, by simp, rfl, htoken⟩
  | renewed htoken hrenewal =>
    cases hrenewal with
    | @granted _ _ hop hrequest hgranted =>
      have hexchange := Token.Credentials.isExchange_of_request hrequest
      refine ⟨some hop, rfl, by simp [htoken], ?_, ?_, ?_, Hop.isTruthy_of_granted hgranted⟩
      · simpa using hrequest
      · simpa using hgranted
      · exact Token.Credentials.keep_of_granted hexchange hgranted

/-- An exchange that is refused is not the opening. -/
theorem Opened.mem_of_refused (h : Opened k token attached opening) {renewal : Option Hop}
    {hop : Hop} {f : Failure} (hhop : hop ∈ opening.toList ++ renewal.toList)
    (hf : hop.granted = .error f) : hop ∈ renewal := by
  rcases List.mem_append.mp hhop with hopened | hrenewal
  · rw [h.granted hop (Option.mem_toList.mp hopened)] at hf
    cases hf
  · exact Option.mem_toList.mp hrenewal

theorem refused_of_renewal {f : Failure} (hk : ∃ r, k.request = .ok r)
    (h : Token.Renewal k token H (.error f) token') :
    ∃ hop, H = [hop] ∧ k.request = .ok hop.request ∧ hop.granted = .error f ∧ token' = token := by
  cases h with
  | unwritable hfault =>
    obtain ⟨r, hr⟩ := hk
    rw [hr] at hfault
    cases hfault
  | refused hrequest hrefused => exact ⟨_, rfl, hrequest, hrefused, rfl⟩

theorem granted_of_renewal {new : Json} (h : Token.Renewal k token H (.ok new) token') :
    ∃ hop, H = [hop] ∧ k.request = .ok hop.request ∧ hop.granted = .ok new := by
  cases h with
  | granted hrequest hgranted => exact ⟨_, rfl, hrequest, hgranted⟩

theorem isChallenged_iff {hop : Hop} : isChallenged hop = true ↔ Challenging hop.answer := by
  unfold isChallenged Challenging Hop.answer Answer.ofReply
  cases hop.heard with
  | error fault => simp
  | ok response => simp

/-- The request of a call as a session prepares it, sent with a token. -/
structure Bears (s : Session) (c : Call) (token : Json) (h : Hop) : Prop where
  sendable : ∃ url, Url.prepare c.idna c.url c.query = .ok url ∧ Url.isSendable url = true
  makes : c.Makes h.request
  authorization : h.request.authorization = some (Token.header token)
  isExchange : ∀ k : Token.Credentials, k.isExchange h = false

theorem Bears.of_prepare {hop : Hop} (hr : s.prepare c = .ok r)
    (hsendable : Url.isSendable r.url = true) (hrequest : hop.request = bearing token r) :
    s.Bears c token hop := by
  have hexchange : ∀ k : Token.Credentials, k.isExchange hop = false :=
    fun k => isExchange_of_prepare hr (by rw [hrequest]; rfl)
  obtain ⟨url, hurl, -, -, rfl⟩ := prepare_eq_ok.mp hr
  refine ⟨⟨url, hurl, hsendable⟩, ?_, by rw [hrequest]; rfl, hexchange⟩
  rw [hrequest]
  exact ⟨rfl, hurl, rfl, rfl, rfl⟩

namespace Episode

/-- An exchange that grants nothing is followed by no request. -/
theorem regular_unopened {hop : Hop} {f : Failure} (htoken : token.isTruthy = false)
    (hrequest : k.request = .ok hop.request) (hrefused : hop.granted = .error f) :
    Regular k token { call := c, opening := some hop, answer := .error f } := by
  have hkeep : k.keep token hop = token := Token.Credentials.keep_of_refused hrefused
  constructor <;> simp [held, hkeep, htoken, hrequest, hrefused, hops]

/-- Nothing is sent to an address that cannot be sent to. -/
theorem regular_barred (h : Opened k token attached opening) {url : Text}
    (hurl : Url.prepare c.idna c.url c.query = .ok url) (hbarred : Url.isSendable url = false) :
    Regular k token { call := c, opening, answer := .error (.stop (.noTransport url)) } where
  exchange := by simpa using h.exchange
  opening_iff := h.isSome_iff
  first_iff := by simp [hurl, hbarred]
  first := by simp
  renewal_iff := by simp
  second_iff := by simp
  second := by simp
  refused _ hx _ hf := absurd (h.mem_of_refused hx hf) (Option.not_mem_none _)
  answer_barred := fun _ _ => ⟨url, hurl, rfl⟩
  answer_first := by simp
  answer_second := by simp

/-- A request that is not challenged is the last one. -/
theorem regular_taken (h : Opened k token attached opening) {hop : Hop}
    (hfirst : s.Bears c attached hop) (hsettled : isChallenged hop = false) :
    Regular k token { call := c, opening, first := some hop, answer := hop.answer } where
  exchange := by simpa using h.exchange
  opening_iff := h.isSome_iff
  first_iff := by simpa [held, h.latest, h.isTruthy] using hfirst.sendable
  first := by simpa [held, h.latest] using ⟨hfirst.isExchange k, hfirst.makes, hfirst.authorization⟩
  renewal_iff := by simp [hsettled]
  second_iff := by simp
  second := by simp
  refused _ hx _ hf := absurd (h.mem_of_refused hx hf) (Option.not_mem_none _)
  answer_barred := by simp
  answer_first := by simp
  answer_second := by simp

/-- A challenge is the end if no new token is granted. -/
theorem regular_unrenewed (h : Opened k token attached opening) {hop exchange : Hop} {f : Failure}
    (hfirst : s.Bears c attached hop) (hchallenged : isChallenged hop = true)
    (hrequest : k.request = .ok exchange.request) (hrefused : exchange.granted = .error f) :
    Regular k token
      { call := c, opening, first := some hop, renewal := some exchange, answer := .error f } where
  exchange := by
    simpa [or_imp, forall_and] using ⟨h.exchange, hrequest⟩
  opening_iff := h.isSome_iff
  first_iff := by simpa [held, h.latest, h.isTruthy] using hfirst.sendable
  first := by simpa [held, h.latest] using ⟨hfirst.isExchange k, hfirst.makes, hfirst.authorization⟩
  renewal_iff := by simp [hchallenged]
  second_iff := by simp [hrefused]
  second := by simp
  refused := by
    intro x hx f' hf
    obtain rfl := Option.some.inj (h.mem_of_refused hx hf)
    obtain rfl := Except.error.inj (hrefused.symm.trans hf)
    simp [hops]
  answer_barred := by simp
  answer_first := by simp [hchallenged]
  answer_second := by simp

/-- With a new token the request goes out once more, and that is the last of it. -/
theorem regular_resent (h : Opened k token attached opening) {hop exchange again : Hop} {new : Json}
    (hfirst : s.Bears c attached hop) (hchallenged : isChallenged hop = true)
    (hrequest : k.request = .ok exchange.request) (hgranted : exchange.granted = .ok new)
    (hexchange : k.isExchange again = false) (hagain : again.request = bearing new hop.request) :
    Regular k token
      { call := c, opening, first := some hop, renewal := some exchange, second := some again,
        answer := again.answer } where
  exchange := by
    simpa [or_imp, forall_and] using ⟨h.exchange, hrequest⟩
  opening_iff := h.isSome_iff
  first_iff := by simpa [held, h.latest, h.isTruthy] using hfirst.sendable
  first := by simpa [held, h.latest] using ⟨hfirst.isExchange k, hfirst.makes, hfirst.authorization⟩
  renewal_iff := by simp [hchallenged]
  second_iff := by simp [hgranted]
  second := by
    have hkeep : k.keep attached exchange = new := Token.Credentials.keep_of_granted
      (Token.Credentials.isExchange_of_request hrequest) hgranted
    simp [renewed, held, h.latest, hkeep, hexchange, hagain]
  refused := by
    intro x hx f hf
    obtain rfl := Option.some.inj (h.mem_of_refused hx hf)
    rw [hgranted] at hf
    cases hf
  answer_barred := by simp
  answer_first := by simp [hchallenged]
  answer_second := by simp

end Episode

/-- What a session with tokens does for a call is a regular episode, which leaves the latest token
in the slot. -/
theorem BearerHandling.exists_regular (hk : ∃ r, k.request = .ok r) (hr : s.prepare c = .ok r)
    (h : BearerHandling k r token H answer token') :
    ∃ e : Episode, e.Regular k token ∧ e.call = c ∧ e.answer = answer ∧ e.hops = H ∧
      k.latest token H = token' := by
  cases h with
  | unattached hattach =>
    cases hattach with
    | renewed htoken hrenewal =>
      obtain ⟨hop, rfl, hrequest, hrefused, rfl⟩ := refused_of_renewal hk hrenewal
      refine ⟨_, Episode.regular_unopened (c := c) htoken hrequest hrefused, rfl, rfl, rfl, ?_⟩
      exact Token.Credentials.keep_of_refused hrefused
  | taken hattach hdelivery hsettled =>
    obtain ⟨opening, rfl, hopened⟩ := Opened.of_attachment hattach
    cases hdelivery with
    | barred hbarred =>
      obtain ⟨url, hurl, -, -, rfl⟩ := prepare_eq_ok.mp hr
      exact ⟨_, Episode.regular_barred hopened hurl hbarred, rfl, rfl, rfl, by
        simpa using hopened.latest⟩
    | @sent _ hop hsendable hrequest =>
      have hfirst := Bears.of_prepare hr hsendable hrequest
      refine ⟨_, Episode.regular_taken hopened hfirst ?_, rfl, rfl, rfl, ?_⟩
      · exact Bool.eq_false_iff.mpr fun hc => hsettled (isChallenged_iff.mp hc)
      · simp [Token.Credentials.latest_append, hopened.latest,
          Token.Credentials.keep_of_request (hfirst.isExchange k)]
  | unrenewed hattach hdelivery hfirst hrenewal =>
    obtain ⟨opening, rfl, hopened⟩ := Opened.of_attachment hattach
    obtain ⟨exchange, rfl, hexchange, hrefused, rfl⟩ := refused_of_renewal hk hrenewal
    obtain ⟨hop, rfl, hrequest, hsendable, hchallenged⟩ := hdelivery.of_challenging hfirst
    have hbears := Bears.of_prepare hr hsendable hrequest
    refine ⟨_, Episode.regular_unrenewed hopened hbears hchallenged hexchange hrefused, rfl, rfl,
      rfl, ?_⟩
    simp [Token.Credentials.latest_append, hopened.latest,
      Token.Credentials.keep_of_request (hbears.isExchange k),
      Token.Credentials.keep_of_refused hrefused]
  | resent hattach hdelivery hfirst hrenewal hdelivery' =>
    obtain ⟨opening, rfl, hopened⟩ := Opened.of_attachment hattach
    obtain ⟨exchange, rfl, hexchange, hgranted⟩ := granted_of_renewal hrenewal
    obtain ⟨hop, rfl, hrequest, hsendable, hchallenged⟩ := hdelivery.of_challenging hfirst
    have hbears := Bears.of_prepare hr hsendable hrequest
    cases hdelivery' with
    | barred hbarred => exact absurd (hsendable.symm.trans hbarred) (by decide)
    | @sent _ again hsendable' hrequest' =>
      have hagain := Bears.of_prepare hr hsendable' hrequest'
      refine ⟨_, Episode.regular_resent hopened hbears hchallenged hexchange hgranted
        (hagain.isExchange k) (by rw [hrequest, hrequest']; rfl), rfl, rfl, rfl, ?_⟩
      simp [Token.Credentials.latest_append, hopened.latest,
        Token.Credentials.keep_of_request (hbears.isExchange k),
        Token.Credentials.keep_of_request (hagain.isExchange k),
        Token.Credentials.keep_of_granted
          (Token.Credentials.isExchange_of_request hexchange) hgranted]

end Bearer

/-! ### Episodes one after the other -/

/-- Every episode is regular, with the token that those before it left in the slot. -/
inductive Regulars (k : Token.Credentials) : Json → List Episode → Prop where
  | nil {token : Json} : Regulars k token []
  | cons {token : Json} {e : Episode} {episodes : List Episode} (h : e.Regular k token)
    (hrest : Regulars k (k.latest token e.hops) episodes) : Regulars k token (e :: episodes)

section Run

variable {s : Session} {k : Token.Credentials} {token token' : Json} {said : List (Call × Answer)}
  {H H' : List Hop} {e : Episode} {episodes : List Episode}

theorem Serves.exists_regulars (hs : s.bearer = some k) (hk : ∃ r, k.request = .ok r)
    (hsaid : ∀ x ∈ said, ∃ r, s.prepare x.1 = .ok r) (h : Serves s token said H token') :
    ∃ episodes, Regulars k token episodes ∧ episodes.map (fun e => (e.call, e.answer)) = said ∧
      episodes.flatMap Episode.hops = H ∧ k.latest token H = token' := by
  induction h with
  | nil => exact ⟨[], .nil, rfl, rfl, rfl⟩
  | cons hhandling _ ih =>
    obtain ⟨r, hr⟩ := hsaid _ (.head _)
    obtain ⟨episodes, hregulars, rfl, rfl, rfl⟩ := ih fun x hx => hsaid x (.tail _ hx)
    cases hhandling with
    | unprepared h => rw [hr] at h; cases h
    | plain _ hplain _ => rw [hs] at hplain; cases hplain
    | bearer h hbearer hhandling =>
      obtain rfl := Option.some.inj (hs.symm.trans hbearer)
      obtain ⟨e, hregular, rfl, rfl, rfl, rfl⟩ := hhandling.exists_regular hk h
      exact ⟨e :: episodes, .cons hregular hregulars, rfl, rfl, Token.Credentials.latest_append _ _⟩

theorem Regulars.exists_regular (h : Regulars k token episodes) (he : e ∈ episodes) :
    ∃ token', e.Regular k token' := by
  induction h with
  | nil => cases he
  | cons h _ ih =>
    rcases List.mem_cons.mp he with rfl | he
    · exact ⟨_, h⟩
    · exact ih he

/-- Every request but an exchange carries the token that is the latest when it goes out. -/
def Carry (k : Token.Credentials) (token : Json) (H : List Hop) : Prop :=
  ∀ before h after, H = before ++ h :: after → k.isExchange h = false →
    (k.latest token before).isTruthy = true ∧
      h.request.authorization = some (Token.header (k.latest token before))

theorem carry_nil : Carry k token [] := by
  intro before h after hH
  simp at hH

theorem carry_cons {h : Hop} (hhop : k.isExchange h = false → token.isTruthy = true ∧
    h.request.authorization = some (Token.header token)) (hH : Carry k (k.keep token h) H) :
    Carry k token (h :: H) := by
  intro before h' after heq hexchange
  cases before with
  | nil =>
    obtain ⟨rfl, rfl⟩ := List.cons.inj heq
    exact hhop hexchange
  | cons b before =>
    obtain ⟨rfl, rfl⟩ := List.cons.inj heq
    exact hH before h' after rfl hexchange

theorem Carry.append (h : Carry k token H) (h' : Carry k (k.latest token H) H') :
    Carry k token (H ++ H') := by
  induction H generalizing token with
  | nil => exact h'
  | cons hop H ih =>
    refine carry_cons (h [] hop H rfl) (ih (fun before h' after heq hexchange => ?_) h')
    exact h (hop :: before) h' after (by rw [heq, List.cons_append]) hexchange

theorem carry_option {hop : Option Hop} (h : ∀ h ∈ hop, k.isExchange h = false →
    token.isTruthy = true ∧ h.request.authorization = some (Token.header token)) :
    Carry k token hop.toList := by
  cases hop with
  | none => exact carry_nil
  | some hop => exact carry_cons (h hop rfl) carry_nil

theorem Episode.Regular.latest_first (h : e.Regular k token) :
    k.latest (e.held k token) e.first.toList = e.held k token := by
  cases hfirst : e.first with
  | none => rfl
  | some hop => exact Token.Credentials.keep_of_request (h.first hop hfirst).1

/-- A request goes out again only behind a first one and an exchange that granted a token. -/
theorem Episode.Regular.of_second (h : e.Regular k token) {again : Hop}
    (hagain : again ∈ e.second) :
    ∃ hop ∈ e.first, ∃ exchange ∈ e.renewal, ∃ new, exchange.granted = .ok new := by
  obtain ⟨exchange, hexchange, hgranted⟩ :=
    h.second_iff.mp (Option.isSome_iff_exists.mpr ⟨again, hagain⟩)
  obtain ⟨hop, hfirst, -⟩ := h.renewal_iff.mp (Option.isSome_iff_exists.mpr ⟨exchange, hexchange⟩)
  exact ⟨hop, hfirst, exchange, hexchange, hgranted⟩

/-- A request that goes out again carries a token that was granted for it. -/
theorem Episode.Regular.second_carries (h : e.Regular k token) {again : Hop}
    (hagain : again ∈ e.second) : k.isExchange again = false ∧
      (e.renewed k token).isTruthy = true ∧
      again.request.authorization = some (Token.header (e.renewed k token)) := by
  obtain ⟨hop, hfirst, exchange, hexchange, new, hgranted⟩ := h.of_second hagain
  have hrequest : k.request = .ok exchange.request :=
    h.exchange exchange (List.mem_append_right _ (Option.mem_toList.mpr hexchange))
  have hrenewed : e.renewed k token = new := by
    unfold renewed
    rw [show e.renewal = some exchange from hexchange]
    exact Token.Credentials.keep_of_granted
      (Token.Credentials.isExchange_of_request hrequest) hgranted
  obtain ⟨hapart, hbearing⟩ := h.second hop hfirst again hagain
  rw [hrenewed] at hbearing ⊢
  exact ⟨hapart, Hop.isTruthy_of_granted hgranted, by rw [hbearing]; rfl⟩

theorem Episode.Regular.carry (h : e.Regular k token) : Carry k token e.hops := by
  have hvacuous : ∀ {hop token'}, hop ∈ e.opening.toList ++ e.renewal.toList →
      k.isExchange hop = false → token'.isTruthy = true ∧
        hop.request.authorization = some (Token.header token') := by
    intro hop token' hhop hexchange
    rw [Token.Credentials.isExchange_of_request (h.exchange hop hhop)] at hexchange
    cases hexchange
  apply Carry.append
  · exact carry_option fun hop hhop =>
      hvacuous (List.mem_append_left _ (Option.mem_toList.mpr hhop))
  change Carry k (e.held k token) _
  apply Carry.append
  · apply carry_option
    intro hop hhop _
    have htruthy := (h.first_iff.mp (Option.isSome_iff_exists.mpr ⟨hop, hhop⟩)).1
    exact ⟨htruthy, (h.first hop hhop).2.2⟩
  rw [h.latest_first]
  apply Carry.append
  · exact carry_option fun hop hhop =>
      hvacuous (List.mem_append_right _ (Option.mem_toList.mpr hhop))
  · exact carry_option fun hop hhop _ => (h.second_carries hhop).2

/-- Along a whole run every request carries the token that was granted last. -/
theorem Regulars.carry (h : Regulars k token episodes) :
    Carry k token (episodes.flatMap Episode.hops) := by
  induction h with
  | nil => exact carry_nil
  | cons h _ ih => exact h.carry.append ih

end Run

end Session

end PullGate
