import PullGate.Proofs.Session.Secrets

/-! How credentials reach the endpoint.  Those in Latin-1 go out with every exchange, in a request
from which they can be read back.  Others never go out: every attempt to get a token for them is
refused at once, and the slot stays as it is. -/

namespace PullGate

open Net

namespace Token

/-- A request that is authorized by a token. -/
def CarriedBy (r : Http.Request) : Prop := ∃ token, r.authorization = some (header token)

namespace Credentials

/-- Key and secret, with a colon between. -/
def plain (k : Credentials) : Text := k.key ++ .scalar ':' :: k.secret

/-- A request for a token from which the credentials can be read: behind `Basic` stands, in Base64,
an octet for each of their code points. -/
structure PresentedBy (k : Credentials) (r : Http.Request) : Prop where
  method : r.method = "POST"
  url : r.url = endpoint
  body : r.body = some "grant_type=client_credentials"
  authorization : ∃ (code : Text) (octets : Octets), r.authorization = some ("Basic " ++ code) ∧
    Base64.decode? code = some octets ∧ octets.map UInt8.toNat = k.plain.map CodePoint.toNat

/-- Every exchange of the credentials is a request that presents them. -/
structure Presented (k : Credentials) : Prop where
  renewal : ∀ w, ∃ r, (on (renew k) w).2.sent = w.sent ++ [r] ∧ k.PresentedBy r
  session : ∀ s : Session, s.bearer = some k → ∀ {α : Type} (d : Dialogue α) (w : Wire),
    ∃ requests, (s.carryOut d w).2.sent = w.sent ++ requests ∧
      ∀ r ∈ requests, k.PresentedBy r ↔ ¬CarriedBy r

/-- No exchange of the credentials is attempted: a call for a token is refused at once, and leaves
the wire as it was. -/
structure Withheld (k : Credentials) : Prop where
  renewal : ∀ w, ∃ fault, Latin1.encode k.plain = .error fault ∧
    on (renew k) w = (.error (.stop (.auth (.credentials fault))), w)
  session : ∀ s : Session, s.bearer = some k → ∀ {α : Type} (d : Dialogue α) (w : Wire),
    (s.carryOut d w).2.token = w.token ∧
    ∃ requests, (s.carryOut d w).2.sent = w.sent ++ requests ∧ (∀ r ∈ requests, CarriedBy r) ∧
      (w.token.isTruthy = false → requests = [])

variable {k : Credentials} {r : Http.Request} {fault : Latin1.Fault}

theorem request_of_error (h : Latin1.encode k.plain = .error fault) : k.request = .error fault := by
  unfold plain at h
  unfold request
  rw [h]

theorem exists_request (h : k.plain.all Latin1.isLatin1 = true) : ∃ r, k.request = .ok r := by
  obtain ⟨octets, hoctets⟩ := Latin1.encode_of_all h
  unfold plain at hoctets
  unfold request
  rw [hoctets]
  exact ⟨_, rfl⟩

theorem presentedBy_of_request (h : k.request = .ok r) : k.PresentedBy r := by
  unfold request at h
  split at h
  · cases h
  · next octets hencode =>
    obtain rfl := Except.ok.inj h
    exact ⟨rfl, rfl, rfl, Base64.encode octets, octets, rfl, Base64.decode?_encode octets,
      Latin1.map_toNat_of_encode hencode⟩

theorem PresentedBy.not_carriedBy (h : k.PresentedBy r) : ¬CarriedBy r := by
  rintro ⟨token, htoken⟩
  obtain ⟨code, octets, hcode, -⟩ := h.authorization
  exact header_ne_basic token code (Option.some.inj (htoken.symm.trans hcode))

theorem presentedBy_of_isExchange {hop : Hop} (h : k.isExchange hop = true) :
    k.PresentedBy hop.request := by
  unfold isExchange at h
  cases hk : k.request with
  | error fault => simp [hk] at h
  | ok r =>
    obtain rfl : hop.request = r := by simpa [hk] using h
    exact presentedBy_of_request hk

end Credentials

section Traffic

variable {k : Credentials} {fault : Latin1.Fault} {token token' : Json} {H : List Hop}

theorem Renewal.of_request {r : Http.Request} {result : Except Failure Json}
    (hk : k.request = .ok r) (h : Renewal k token H result token') :
    ∃ hop, H = [hop] ∧ k.request = .ok hop.request := by
  cases h with
  | unwritable h => rw [hk] at h; cases h
  | refused h => exact ⟨_, rfl, h⟩
  | granted h => exact ⟨_, rfl, h⟩

theorem Renewal.of_error {result : Except Failure Json} (hk : k.request = .error fault)
    (h : Renewal k token H result token') :
    H = [] ∧ token' = token ∧ ∃ e, result = .error e := by
  cases h with
  | unwritable => exact ⟨rfl, rfl, _, rfl⟩
  | refused h => rw [hk] at h; cases h
  | granted h => rw [hk] at h; cases h

/-- Without exchanges there is a token only if one is in the slot. -/
theorem Attachment.of_error {result : Except Failure Json} (hk : k.request = .error fault)
    (h : Attachment k token H result token') :
    H = [] ∧ token' = token ∧ (token.isTruthy = false → ∃ e, result = .error e) := by
  cases h with
  | kept h => exact ⟨rfl, rfl, fun hempty => absurd (h.symm.trans hempty) (by decide)⟩
  | renewed _ hrenewal =>
    obtain ⟨hnone, hslot, hrefused⟩ := hrenewal.of_error hk
    exact ⟨hnone, hslot, fun _ => hrefused⟩

theorem Attachment.not_empty_of_error {attached : Json} (hk : k.request = .error fault)
    (h : Attachment k token H (.ok attached) token') : token.isTruthy ≠ false := by
  intro hempty
  obtain ⟨-, -, hrefused⟩ := h.of_error hk
  obtain ⟨e, he⟩ := hrefused hempty
  cases he

end Traffic

end Token

namespace Session

variable {s : Session} {k : Token.Credentials} {fault : Latin1.Fault} {token token' : Json}
  {H : List Hop}

theorem BearerHandling.of_error {r : Http.Request} {answer : Answer}
    (hk : k.request = .error fault) (h : BearerHandling k r token H answer token') :
    token' = token ∧ (token.isTruthy = false → H = []) := by
  cases h with
  | unattached hattach =>
    obtain ⟨hnone, hslot, -⟩ := hattach.of_error hk
    exact ⟨hslot, fun _ => hnone⟩
  | taken hattach hdelivery =>
    have hslot := (hattach.of_error hk).2.1
    have hfull := hattach.not_empty_of_error hk
    exact ⟨hdelivery.slot.trans hslot, fun hempty => absurd hempty hfull⟩
  | unrenewed hattach _ _ hrenewal =>
    have hslot := (hattach.of_error hk).2.1
    have hfull := hattach.not_empty_of_error hk
    obtain ⟨-, hkept, -⟩ := hrenewal.of_error hk
    exact ⟨hkept.trans hslot, fun hempty => absurd hempty hfull⟩
  | resent _ _ _ hrenewal =>
    obtain ⟨-, -, e, he⟩ := hrenewal.of_error hk
    cases he

/-- However long it is asked, a session whose credentials have no octets changes nothing in the
slot, and sends nothing while that is empty. -/
theorem Serves.of_error {said : List (Call × Answer)} (hs : s.bearer = some k)
    (hk : k.request = .error fault) (h : s.Serves token said H token') :
    token' = token ∧ (token.isTruthy = false → H = []) := by
  induction h with
  | nil => exact ⟨rfl, fun _ => rfl⟩
  | cons h _ ih =>
    obtain ⟨hslot, hnone⟩ := ih
    cases h with
    | unprepared => exact ⟨hslot, hnone⟩
    | plain _ hplain => rw [hs] at hplain; cases hplain
    | bearer _ hbearer hhandling =>
      obtain rfl := Option.some.inj (hs.symm.trans hbearer)
      obtain ⟨rfl, hnone'⟩ := hhandling.of_error hk
      exact ⟨hslot, fun hempty => by rw [hnone' hempty, hnone hempty, List.append_nil]⟩

end Session

namespace Token.Credentials

variable {k : Credentials} {fault : Latin1.Fault}

theorem presented (h : k.plain.all Latin1.isLatin1 = true) : k.Presented where
  renewal := by
    intro w
    obtain ⟨r, hr⟩ := exists_request h
    obtain ⟨H, hmoves, hrenewal⟩ := does_renew k w
    obtain ⟨hop, rfl, hrequest⟩ := hrenewal.of_request hr
    exact ⟨hop.request, hmoves.sent, presentedBy_of_request hrequest⟩
  session := by
    intro s hs α d w
    obtain ⟨H, said, hmoves, hserves, -⟩ := s.carryOut_serves d w
    refine ⟨H.map Hop.request, hmoves.sent, List.forall_mem_map.mpr fun hop hhop => ?_⟩
    refine ⟨PresentedBy.not_carriedBy, fun hcarried => ?_⟩
    exact presentedBy_of_isExchange ((hserves.spares hs hop hhop).resolve_right hcarried)

theorem withheld (h : k.plain.all Latin1.isLatin1 = false) : k.Withheld := by
  obtain ⟨fault, hfault⟩ := Latin1.encode_of_not_all h
  have hk := request_of_error hfault
  constructor
  · intro w
    refine ⟨fault, hfault, ?_⟩
    unfold renew
    rw [hk]
    rfl
  · intro s hs α d w
    obtain ⟨H, said, hmoves, hserves, -⟩ := s.carryOut_serves d w
    obtain ⟨hslot, hnone⟩ := hserves.of_error hs hk
    refine ⟨hslot, H.map Hop.request, hmoves.sent, List.forall_mem_map.mpr fun hop hhop => ?_,
      fun hempty => by rw [hnone hempty, List.map_nil]⟩
    refine (hserves.spares hs hop hhop).resolve_left fun hexchange => ?_
    simp [isExchange, hk] at hexchange

/-- Whatever they are, credentials are presented in full or not at all. -/
theorem presented_or_withheld (k : Credentials) :
    if k.plain.all Latin1.isLatin1 then k.Presented else k.Withheld := by
  split
  · next h => exact presented h
  · next h => exact withheld (Bool.eq_false_iff.mpr h)

end Token.Credentials

end PullGate
