import PullGate.Proofs.Session.Plain

/-! Exchanges among the hops of a session.  A request for a token is told from the requests of calls
by its content type, so the hops themselves show which of them are exchanges. -/

namespace PullGate

/-- Whether a hop is an exchange of these credentials for a token. -/
def Token.Credentials.isExchange (k : Token.Credentials) (h : Hop) : Bool :=
  match k.request with
  | .ok r => h.request = r
  | .error _ => false

/-- Whether a hop of a session is an exchange. -/
def Session.isExchange (s : Session) (h : Hop) : Bool := s.bearer.any (·.isExchange h)

namespace Token.Credentials

variable {k : Token.Credentials} {h : Hop}

theorem isExchange_of_request (hk : k.request = .ok h.request) : k.isExchange h = true := by
  simp [isExchange, hk]

theorem contentType_of_isExchange (he : k.isExchange h = true) : h.request.contentType =
    some ("application/x-www-form-urlencoded;charset=UTF-8" : Text) := by
  unfold isExchange at he
  cases hk : k.request with
  | error fault => simp [hk] at he
  | ok r =>
    obtain rfl : h.request = r := by simpa [hk] using he
    unfold request at hk
    split at hk
    · cases hk
    · exact congrArg Http.Request.contentType (Except.ok.inj hk).symm

end Token.Credentials

namespace Session

variable {s : Session} {c : Call} {r : Http.Request}

/-- The request of a call is none for a token. -/
theorem isExchange_of_prepare {k : Token.Credentials} {h : Hop} (hr : s.prepare c = .ok r)
    (hh : h.request.contentType = r.contentType) : k.isExchange h = false := by
  obtain ⟨url, -, -, -, rfl⟩ := prepare_eq_ok.mp hr
  rw [Bool.eq_false_iff]
  intro he
  have htype := Token.Credentials.contentType_of_isExchange he
  rw [hh] at htype
  unfold draft at htype
  cases hbody : c.body with
  | none => simp [hbody] at htype
  | some body =>
    simp only [hbody, Option.map_some, Option.some.injEq] at htype
    exact absurd htype (by decide)

end Session

end PullGate
