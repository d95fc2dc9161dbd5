import PullGate.Proofs.Session.Exchange

/-! Sessions with tokens, seen without them.  Of the hops of a session those that settle a call are
left: no exchange, and no request that was challenged and sent again.  As long as every exchange
grants a token, one hop is left for each call that can be made, and the call is answered by it. -/

namespace PullGate

/-- What of a request matters to a call: not who sends it. -/
def Http.Request.gist (r : Http.Request) : Text × Text × Option Text := (r.method, r.url, r.body)

namespace Session

def isChallenged (h : Hop) : Bool :=
  match h.heard with
  | .ok response => isChallenge response.status
  | .error _ => false

/-- Whether a request was challenged, and after an exchange sent again. -/
def isSuperseded (s : Session) (h : Hop) : List Hop → Bool
  | exchange :: again :: _ =>
    isChallenged h && s.isExchange exchange && h.request.gist = again.request.gist
  | _ => false

/-- The hops that settle calls. -/
def settled (s : Session) : List Hop → List Hop
  | [] => []
  | h :: H => if s.isExchange h || s.isSuperseded h H then settled s H else h :: settled s H

/-- Hops that do not begin with an exchange. -/
def Opens (s : Session) (H : List Hop) : Prop := ∀ h ∈ H.head?, s.isExchange h = false

theorem opens_nil (s : Session) : s.Opens [] := by
  intro h hh
  cases hh

def Grants (s : Session) (H : List Hop) : Prop :=
  ∀ h ∈ H, s.isExchange h = true → ∃ token, h.granted = .ok token

variable {s : Session} {h : Hop} {H H' : List Hop}

theorem grants_append : s.Grants (H ++ H') ↔ s.Grants H ∧ s.Grants H' :=
  List.forall_mem_append

theorem settled_sublist (s : Session) (H : List Hop) : (s.settled H).Sublist H := by
  induction H with
  | nil => exact .slnil
  | cons h H ih =>
    rw [settled]
    split
    · exact ih.cons h
    · exact ih.cons_cons h

theorem settled_exchange (he : s.isExchange h = true) : s.settled (h :: H) = s.settled H := by
  simp [settled, he]

theorem settled_superseded {exchange again : Hop} (hc : isChallenged h = true)
    (he : s.isExchange exchange = true) (hg : h.request.gist = again.request.gist) :
    s.settled (h :: exchange :: again :: H) = s.settled (again :: H) := by
  have hsuperseded : s.isSuperseded h (exchange :: again :: H) = true := by
    simp [isSuperseded, hc, he, hg]
  rw [settled, hsuperseded, Bool.or_true, if_pos rfl, settled_exchange he]

theorem settled_cons (he : s.isExchange h = false) (hH : s.Opens H) :
    s.settled (h :: H) = h :: s.settled H := by
  have hlast : s.isSuperseded h H = false := by
    unfold isSuperseded
    split
    · next exchange again rest => simp [hH exchange rfl]
    · rfl
  simp [settled, he, hlast]

end Session

/-! ### Tokens that are granted -/

theorem Token.isTruthy_of_ofResponse {r : Http.Response} {token : Json}
    (h : ofResponse r = .ok token) : token.isTruthy = true := by
  unfold ofResponse at h
  split at h
  · cases h
  · split at h
    · next members _ =>
      unfold ofMembers at h
      split at h
      · cases h
      · split at h
        · cases h
        · split at h
          · next found hfound =>
            obtain rfl := Except.ok.inj h
            exact (Option.filter_eq_some_iff.mp hfound).2
          · cases h
    · cases h
    · cases h

theorem Hop.isTruthy_of_granted {h : Hop} {token : Json} (hg : h.granted = .ok token) :
    token.isTruthy = true := by
  unfold granted at hg
  split at hg
  · exact Token.isTruthy_of_ofResponse hg
  · cases hg

namespace Session

variable {s : Session} {c : Call} {k : Token.Credentials} {r : Http.Request} {token token' : Json}
  {H : List Hop} {answer : Answer}

theorem isExchange_of_request {hop : Hop} (hs : s.bearer = some k)
    (hk : k.request = .ok hop.request) : s.isExchange hop = true := by
  simpa [isExchange, hs] using Token.Credentials.isExchange_of_request hk

theorem isExchange_of_delivery {authorization : Option Text} (hr : s.prepare c = .ok r)
    (h : Delivery { r with authorization } token H answer token') :
    ∀ hop ∈ H, s.isExchange hop = false := by
  cases h with
  | barred => exact fun _ hhop => nomatch hhop
  | @sent _ hop _ hrequest =>
    rw [List.forall_mem_singleton]
    unfold isExchange
    cases s.bearer with
    | none => rfl
    | some k => exact isExchange_of_prepare hr (by rw [hrequest])

theorem isExchange_of_renewal {result : Except Failure Json} (hs : s.bearer = some k)
    (h : Token.Renewal k token H result token') : ∀ hop ∈ H, s.isExchange hop = true := by
  cases h with
  | unwritable => exact fun _ hhop => nomatch hhop
  | refused hk _ => exact List.forall_mem_singleton.mpr (isExchange_of_request hs hk)
  | granted hk _ => exact List.forall_mem_singleton.mpr (isExchange_of_request hs hk)

theorem isExchange_of_attachment {result : Except Failure Json} (hs : s.bearer = some k)
    (h : Token.Attachment k token H result token') : ∀ hop ∈ H, s.isExchange hop = true := by
  cases h with
  | kept => exact fun _ hhop => nomatch hhop
  | renewed _ hrenewal => exact isExchange_of_renewal hs hrenewal

theorem renewal_of_grants {result : Except Failure Json} (hs : s.bearer = some k)
    (hk : ∃ r, k.request = .ok r) (hg : s.Grants H) (h : Token.Renewal k token H result token') :
    ∃ hop new, H = [hop] ∧ s.isExchange hop = true ∧ result = .ok new ∧ new.isTruthy = true := by
  cases h with
  | unwritable hfault =>
    obtain ⟨r, hr⟩ := hk
    rw [hr] at hfault
    cases hfault
  | refused hrequest hrefused =>
    obtain ⟨new, hnew⟩ := hg _ (.head _) (isExchange_of_request hs hrequest)
    rw [hrefused] at hnew
    cases hnew
  | granted hrequest hgranted =>
    exact ⟨_, _, rfl, isExchange_of_request hs hrequest, rfl, Hop.isTruthy_of_granted hgranted⟩

/-- A token is attached, and a hop that was needed for it settles nothing. -/
theorem attachment_of_grants {result : Except Failure Json} (hs : s.bearer = some k)
    (hk : ∃ r, k.request = .ok r) (hg : s.Grants H) (h : Token.Attachment k token H result token') :
    (∃ attached, result = .ok attached ∧ attached.isTruthy = true) ∧
      (∀ rest, s.settled (H ++ rest) = s.settled rest) ∧ (token.isTruthy = true → H = []) := by
  cases h with
  | kept htoken => exact ⟨⟨_, rfl, htoken⟩, fun _ => rfl, fun _ => rfl⟩
  | renewed htoken hrenewal =>
    obtain ⟨hop, new, rfl, hexchange, rfl, hnew⟩ := renewal_of_grants hs hk hg hrenewal
    refine ⟨⟨new, rfl, hnew⟩, fun rest => settled_exchange hexchange, fun h => ?_⟩
    rw [htoken] at h
    cases h

/-- The request of a call comes of it, and is settled if no exchange follows. -/
theorem delivery_settled {authorization : Option Text} (hr : s.prepare c = .ok r)
    (h : Delivery { r with authorization } token H answer token') : c.Comes H answer ∧
      ∀ rest, s.Opens rest → s.settled (H ++ rest) = H ++ s.settled rest ∧ s.Opens (H ++ rest) := by
  obtain ⟨url, hurl, -, -, hdraft⟩ := prepare_eq_ok.mp hr
  have hnone := isExchange_of_delivery hr h
  refine ⟨h.comes (s := s) hurl ⟨authorization, by rw [hdraft]⟩, fun rest hrest => ?_⟩
  cases h with
  | barred => exact ⟨rfl, hrest⟩
  | @sent _ hop _ hrequest =>
    have hexchange : s.isExchange hop = false := hnone hop (.head _)
    refine ⟨settled_cons hexchange hrest, ?_⟩
    rintro x hx
    obtain rfl := Option.some.inj hx
    exact hexchange

/-- A challenge is an answer, so the request was sent. -/
theorem Delivery.of_challenging (h : Delivery r token H answer token') (hc : Challenging answer) :
    ∃ hop, H = [hop] ∧ hop.request = r ∧ Url.isSendable r.url = true ∧
      isChallenged hop = true := by
  obtain ⟨response, hanswer, hstatus⟩ := hc
  cases h with
  | barred => cases hanswer
  | @sent _ hop hsendable hrequest =>
    refine ⟨hop, rfl, hrequest, hsendable, ?_⟩
    unfold Hop.answer Answer.ofReply at hanswer
    unfold isChallenged
    cases hheard : hop.heard with
    | error fault => simp [hheard] at hanswer
    | ok first =>
      simp only [hheard, Except.ok.injEq] at hanswer
      rw [hanswer]
      exact hstatus

/-- What is left of the hops of a call is what comes of it, and leaves a token in the slot. -/
theorem bearer_settled (hs : s.bearer = some k) (hk : ∃ r, k.request = .ok r)
    (hr : s.prepare c = .ok r) (hg : s.Grants H) (h : BearerHandling k r token H answer token') :
    token'.isTruthy = true ∧ ∃ S, c.Comes S answer ∧ ∀ rest, s.Opens rest →
      s.settled (H ++ rest) = S ++ s.settled rest ∧
        (token.isTruthy = true → s.Opens (H ++ rest)) := by
  cases h with
  | unattached hattach =>
    obtain ⟨⟨attached, hattached, -⟩, -⟩ := attachment_of_grants hs hk hg hattach
    cases hattached
  | taken hattach hdelivery =>
    obtain ⟨hg, -⟩ := grants_append.mp hg
    obtain ⟨⟨attached, hattached, htruthy⟩, hleft, hnone⟩ := attachment_of_grants hs hk hg hattach
    obtain rfl := Except.ok.inj hattached
    obtain ⟨hcomes, hsettled⟩ := delivery_settled hr hdelivery
    refine ⟨by rw [hdelivery.slot]; exact htruthy, _, hcomes, fun rest hrest => ⟨?_, fun h => ?_⟩⟩
    · rw [List.append_assoc, hleft, (hsettled rest hrest).1]
    · rw [hnone h]
      exact (hsettled rest hrest).2
  | unrenewed hattach hdelivery hfirst hrenewal =>
    obtain ⟨-, hg⟩ := grants_append.mp hg
    obtain ⟨-, hg⟩ := grants_append.mp hg
    obtain ⟨hop, new, -, -, hnew, -⟩ := renewal_of_grants hs hk hg hrenewal
    cases hnew
  | resent hattach hdelivery hfirst hrenewal hdelivery' =>
    obtain ⟨hg, hg'⟩ := grants_append.mp hg
    obtain ⟨-, hg'⟩ := grants_append.mp hg'
    obtain ⟨hg', -⟩ := grants_append.mp hg'
    obtain ⟨-, hleft, hnone⟩ := attachment_of_grants hs hk hg hattach
    obtain ⟨exchange, new, rfl, hexchange, hnew, htruthy⟩ := renewal_of_grants hs hk hg' hrenewal
    obtain rfl := Except.ok.inj hnew
    obtain ⟨hcomes, hsettled⟩ := delivery_settled hr hdelivery'
    obtain ⟨first, rfl, hrequest, hsendable, hchallenged⟩ := hdelivery.of_challenging hfirst
    have hopens := ((delivery_settled hr hdelivery).2 [] s.opens_nil).2
    -- the challenged request and the exchange behind it are dropped, the second request is left
    refine ⟨by rw [hdelivery'.slot]; exact htruthy, _, hcomes, fun rest hrest => ⟨?_, fun h => ?_⟩⟩
    · cases hdelivery' with
      | barred hbarred => exact absurd (hsendable.symm.trans hbarred) (by decide)
      | @sent _ again _ hrequest' =>
        have hgist : first.request.gist = again.request.gist := by rw [hrequest, hrequest']; rfl
        rw [List.append_assoc, hleft, ← (hsettled rest hrest).1]
        exact settled_superseded hchallenged hexchange hgist
    · rw [hnone h]
      exact fun x hx => hopens x hx

theorem handling_settled (hs : s.bearer = some k) (hk : ∃ r, k.request = .ok r)
    (hheader : s.HeaderFits) (hc : c.Ready) (hg : s.Grants H)
    (h : Handling s c token H answer token') :
    token'.isTruthy = true ∧ ∃ S, c.Comes S answer ∧ ∀ rest, s.Opens rest →
      s.settled (H ++ rest) = S ++ s.settled rest ∧
        (token.isTruthy = true → s.Opens (H ++ rest)) := by
  obtain ⟨url, hurl, -⟩ := hc.preparable
  have hprepare : s.prepare c = .ok (s.draft c url) :=
    prepare_eq_ok.mpr ⟨url, hurl, hheader, hc.standard, rfl⟩
  cases h with
  | unprepared h => rw [hprepare] at h; cases h
  | plain _ hplain _ => rw [hs] at hplain; cases hplain
  | bearer h hbearer hhandling =>
    obtain rfl := Option.some.inj (hs.symm.trans hbearer)
    exact bearer_settled hs hk h hg hhandling

/-- Calls that can be made are settled by one hop each, in their order. -/
theorem Serves.settled_hops {said : List (Call × Answer)} (hs : s.bearer = some k)
    (hk : ∃ r, k.request = .ok r) (hheader : s.HeaderFits) (hc : ∀ x ∈ said, x.1.Able)
    (hg : s.Grants H) (h : Serves s token said H token') :
    Answered said (s.settled H) ∧ (token.isTruthy = true → s.Opens H) := by
  induction h with
  | nil => exact ⟨List.Forall₂.nil, fun _ => s.opens_nil⟩
  | @cons _ _ _ c answer _ _ later h _ ih =>
    obtain ⟨hg, hg'⟩ := grants_append.mp hg
    have hable : c.Able := hc _ (.head _)
    obtain ⟨htruthy, S, hcomes, hsettled⟩ := handling_settled hs hk hheader hable.ready hg h
    obtain ⟨hhops, hopens⟩ := ih (fun x hx => hc x (.tail _ hx)) hg'
    obtain ⟨heq, hopens'⟩ := hsettled later (hopens htruthy)
    obtain ⟨hop, rfl, hanswer, hmakes⟩ := hcomes.of_able hable
    rw [heq]
    exact ⟨List.Forall₂.cons ⟨hanswer, hmakes⟩ hhops, hopens'⟩

end Session

theorem reply_of_mem_hops_nil {requests : List Http.Request} {h : Hop}
    (hh : h ∈ hops requests []) : h.reply = none := by
  induction requests with
  | nil => cases hh
  | cons r requests ih =>
    rcases List.mem_cons.mp hh with rfl | hh
    · rfl
    · exact ih hh

/-- Hops that are left of a script come to what their replies, and those after all hops, come to. -/
theorem answers_of_sublist {S : List Hop} {requests : List Http.Request}
    {replies : List Http.Reply} (h : S.Sublist (hops requests replies)) (i : Nat)
    (hi : i < S.length) :
    ((S.filterMap Hop.reply ++ replies.drop requests.length).map Answer.ofReply).getD i
      Answer.absent = (S.map Hop.answer).getD i Answer.absent := by
  -- every request takes a reply, whether its hop is among those that are left or not
  induction requests generalizing replies S i with
  | nil =>
    obtain rfl := List.sublist_nil.mp h
    cases hi
  | cons r requests ih =>
    cases replies with
    | nil =>
      have hnone : ∀ x ∈ S, x.reply = none := fun x hx => reply_of_mem_hops_nil (h.mem hx)
      have hreplies : S.filterMap Hop.reply = [] := List.filterMap_eq_nil_iff.mpr hnone
      have hanswer : S[i].answer = Answer.absent := by
        unfold Hop.answer Hop.heard
        rw [hnone _ (List.getElem_mem hi)]
        rfl
      simp [hreplies, hi, hanswer]
    | cons reply replies =>
      rw [hops] at h
      cases h with
      | cons _ h => exact ih h i hi
      | @cons_cons S _ _ h =>
        cases i with
        | zero => rfl
        | succ i => exact ih h i (Nat.lt_of_succ_lt_succ hi)

end PullGate
