import PullGate.Proofs.Decoration.Transparent
import PullGate.Proofs.Session.Credentials

/-! Decoration keeps its secrets.  Two clients with tokens that differ in key and secret alone end
alike and send alike, but for the authorization of their exchanges; and nothing else that a client
with tokens sends is authorized by its configuration. -/

namespace PullGate

open Decoration

namespace Session

theorem mem_of_mem_dropLineEnd {c : CodePoint} {t : Text} (h : c ∈ dropLineEnd t) : c ∈ t := by
  unfold dropLineEnd at h
  split at h
  · next rest hrest =>
    rw [← List.mem_reverse, hrest]
    exact .tail _ (List.mem_reverse.mp h)
  · exact h

theorem isHeaderValue_cons {c : CodePoint} {t : Text} (hc : c.isSpacing = false)
    (ht : ∀ x ∈ t, x ≠ .scalar '\r' ∧ x ≠ .scalar '\n') : isHeaderValue (c :: t) = true := by
  have hline : ∀ x ∈ dropLineEnd t, (x ≠ .scalar '\r' && x ≠ .scalar '\n') = true :=
    fun x hx => by simpa using ht x (mem_of_mem_dropLineEnd hx)
  rw [isHeaderValue, hc, List.all_eq_true.mpr hline]
  rfl

end Session

/-- A key and a secret that can be exchanged for a token, on one line each. -/
structure Configuration.Exchangeable (c : Configuration) : Prop where
  isOauth2 : c.isOauth2 = true
  key : c.oauth2Key.all Latin1.isLatin1 = true
  token : c.token.all Latin1.isLatin1 = true
  line : ∀ x ∈ c.token, x ≠ .scalar '\r' ∧ x ≠ .scalar '\n'

namespace Client

variable {c c' : Client}

theorem bearer_of_isOauth2 (h : c.configuration.isOauth2 = true) : c.session.bearer =
    some ⟨c.configuration.oauth2Key, c.configuration.token, c.timeout⟩ := by
  simp [session, h]

theorem headerFits_of_exchangeable (h : c.configuration.Exchangeable) : c.session.HeaderFits := by
  intro value hvalue
  obtain rfl := Option.some.inj hvalue
  refine Session.isHeaderValue_cons (c := .scalar 'B') (t := "asic " ++ c.configuration.token)
    (by decide) ?_
  exact List.forall_mem_append.mpr ⟨by decide, h.line⟩

theorem request_of_exchangeable (h : c.configuration.Exchangeable) (timeout : Http.Seconds) :
    ∃ r, Token.Credentials.request ⟨c.configuration.oauth2Key, c.configuration.token, timeout⟩ =
      .ok r := by
  refine Token.Credentials.exists_request ?_
  rw [Token.Credentials.plain, List.all_append, List.all_cons, h.key, h.token]
  decide

/-- Two clients that differ in key and secret alone. -/
structure Rekeyed (c c' : Client) : Prop where
  url : c'.configuration.url = c.configuration.url
  target : c'.configuration.target = c.configuration.target
  timeout : c'.timeout = c.timeout
  idna : c'.idna = c.idna
  exchangeable : c.configuration.Exchangeable
  exchangeable' : c'.configuration.Exchangeable

theorem Rekeyed.session (h : c.Rekeyed c') : c.session.Rekeyed c'.session where
  accept := rfl
  headerFits := headerFits_of_exchangeable h.exchangeable
  headerFits' := headerFits_of_exchangeable h.exchangeable'
  bearers := by
    obtain ⟨r, hr⟩ := request_of_exchangeable h.exchangeable c.timeout
    obtain ⟨r', hr'⟩ := request_of_exchangeable h.exchangeable' c'.timeout
    exact ⟨_, _, r, r', bearer_of_isOauth2 h.exchangeable.isOauth2,
      bearer_of_isOauth2 h.exchangeable'.isOauth2, h.timeout.symm, hr, hr'⟩

theorem Rekeyed.decorate (h : c.Rekeyed c') (approval : Bool) (a : Analysis) (w : Wire) :
    (c.decorate approval a w).1 = (c'.decorate approval a w).1 ∧
      (c.decorate approval a w).2.Alike (c'.decorate approval a w).2 := by
  unfold Client.decorate
  rw [run_congr h.url h.target h.timeout h.idna]
  exact h.session.carryOut _ (.refl w)

/-- What is not sent to the endpoint carries a token, and with it no secret. -/
theorem authorization_of_not_isExchange (h : c.configuration.isOauth2 = true) {approval : Bool}
    {a : Analysis} {w : Wire} {hop : Hop} (hmem : hop ∈ c.traffic approval a w)
    (hcall : c.session.isExchange hop = false) :
    (∃ token, hop.request.authorization = some (Token.header token)) ∧
      hop.request.authorization ≠ c.session.authorization := by
  have hbearer := bearer_of_isOauth2 h
  obtain ⟨said, hserves, -⟩ := serves_decorate c approval a w
  rw [Session.isExchange, hbearer] at hcall
  obtain hexchange | ⟨token, htoken⟩ := hserves.spares hbearer hop hmem
  · rw [Option.any_some, hexchange] at hcall
    cases hcall
  · refine ⟨⟨token, htoken⟩, fun heq => ?_⟩
    exact Token.header_ne_basic token _ (Option.some.inj (htoken.symm.trans heq))

/-- Key and secret stay at the endpoint: they have no influence on a run but in the authorization of
its exchanges, and every other request is authorized by a token. -/
theorem secrets_stay (approval : Bool) (a : Analysis) (w : Wire) :
    (∀ c c' : Client, c.Rekeyed c' →
      (c.decorate approval a w).1 = (c'.decorate approval a w).1 ∧
        (c.decorate approval a w).2.Alike (c'.decorate approval a w).2) ∧
    ∀ c : Client, c.configuration.isOauth2 = true → ∀ hop ∈ c.traffic approval a w,
      c.session.isExchange hop = false →
        (∃ token, hop.request.authorization = some (Token.header token)) ∧
          hop.request.authorization ≠ c.session.authorization :=
  ⟨fun _ _ h => h.decorate approval a w,
    fun _ h _ hmem hcall => authorization_of_not_isExchange h hmem hcall⟩

end Client

namespace Decoration.Sample

def rekeyed : Client where
  configuration := { bearer.configuration with oauth2Key := "other", token := "secret" }
  timeout := bearer.timeout

theorem rekeyed_bearer : bearer.Rekeyed rekeyed :=
  ⟨rfl, rfl, rfl, rfl, ⟨rfl, by decide, by decide, by decide⟩,
    ⟨rfl, by decide, by decide, by decide⟩⟩

end Decoration.Sample

/-- Two runs of the sample that do send different requests, and one that sends a call. -/
theorem Client.secrets_stay_sample :
    Sample.bearer.Rekeyed Sample.rekeyed ∧
    (Sample.bearer.decorate true Sample.analysis Sample.script).2.sent ≠
      (Sample.rekeyed.decorate true Sample.analysis Sample.script).2.sent ∧
    (Sample.bearer.decorate true Sample.analysis Sample.script).2.Alike
      (Sample.rekeyed.decorate true Sample.analysis Sample.script).2 ∧
    Sample.bearer.configuration.isOauth2 = true ∧
    ∃ hop ∈ Sample.bearer.traffic true Sample.analysis Sample.script,
      Sample.bearer.session.isExchange hop = false ∧
        hop.request.authorization ≠ Sample.bearer.session.authorization := by
  obtain ⟨hruns, hcalls⟩ := secrets_stay true Sample.analysis Sample.script
  have hcall : ∃ hop ∈ Sample.bearer.traffic true Sample.analysis Sample.script,
      Sample.bearer.session.isExchange hop = false := by decide +kernel
  obtain ⟨hop, hmem, hother⟩ := hcall
  exact ⟨Sample.rekeyed_bearer, by decide +kernel, (hruns _ _ Sample.rekeyed_bearer).2, rfl, hop,
    hmem, hother, (hcalls _ rfl hop hmem hother).2⟩

end PullGate
