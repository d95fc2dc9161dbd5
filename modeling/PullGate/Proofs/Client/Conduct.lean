import PullGate.Proofs.Client.Operation
import PullGate.Proofs.Decoration.Transparent

/-! The conduct of a client with tokens.  Whatever operations it is asked for and whatever replies
come, its traffic is a sequence of regular episodes, one for each call, and every request carries
the token that was granted last. -/

namespace PullGate

namespace Session

variable {k : Token.Credentials} {token : Json} {e : Episode} {episodes : List Episode}

theorem length_filter_toList_le {α : Type} (p : α → Bool) (x : Option α) :
    (x.toList.filter p).length ≤ 1 :=
  (List.length_filter_le p _).trans Option.length_toList_le

/-- An episode has at most two exchanges and two requests. -/
theorem Episode.Regular.bounded (h : e.Regular k token) :
    (e.hops.filter k.isExchange).length ≤ 2 ∧
      (e.hops.filter fun hop => !k.isExchange hop).length ≤ 2 := by
  have hfirst : e.first.toList.filter k.isExchange = [] := by
    refine List.filter_eq_nil_iff.mpr fun hop hhop => ?_
    simp [(h.first hop (Option.mem_toList.mp hhop)).1]
  have hsecond : e.second.toList.filter k.isExchange = [] := by
    refine List.filter_eq_nil_iff.mpr fun hop hhop => ?_
    simp [(h.second_carries (Option.mem_toList.mp hhop)).1]
  have hexchange : ∀ hop ∈ e.opening.toList ++ e.renewal.toList, k.isExchange hop = true :=
    fun hop hhop => Token.Credentials.isExchange_of_request (h.exchange hop hhop)
  have hopening : e.opening.toList.filter (fun hop => !k.isExchange hop) = [] := by
    refine List.filter_eq_nil_iff.mpr fun hop hhop => ?_
    simp [hexchange hop (List.mem_append_left _ hhop)]
  have hrenewal : e.renewal.toList.filter (fun hop => !k.isExchange hop) = [] := by
    refine List.filter_eq_nil_iff.mpr fun hop hhop => ?_
    simp [hexchange hop (List.mem_append_right _ hhop)]
  unfold Episode.hops
  simp only [List.filter_append, List.length_append, hfirst, hsecond, hopening, hrenewal]
  have hle := length_filter_toList_le k.isExchange
  have hle' := length_filter_toList_le fun hop => !k.isExchange hop
  have := hle e.opening
  have := hle e.renewal
  have := hle' e.first
  have := hle' e.second
  constructor <;> simp only [List.length_nil] <;> omega

end Session

namespace Client

open Session

/-- What the operations of a client with tokens come to: for each call one regular episode, with the
answer that the operation goes on with. -/
structure Conduct (c : Client) (k : Token.Credentials) (ops : List Operation) (w : Wire)
    (episodes : List Episode) : Prop where
  calls : ((c.operate ops).play (episodes.map Episode.answer)).said =
    episodes.map fun e => (e.call, e.answer)
  results : (c.carryOut ops w).1 = ((c.operate ops).play (episodes.map Episode.answer)).value
  sent : (c.carryOut ops w).2.sent = w.sent ++ (c.operationTraffic ops w).map Hop.request
  traffic : episodes.flatMap Episode.hops = c.operationTraffic ops w
  regular : Regulars k w.token episodes
  bounded : ∀ e ∈ episodes, (e.hops.filter k.isExchange).length ≤ 2 ∧
    (e.hops.filter fun hop => !k.isExchange hop).length ≤ 2
  carry : Carry k w.token (c.operationTraffic ops w)
  slot : (c.carryOut ops w).2.token = k.latest w.token (c.operationTraffic ops w)
  granted : ∀ hop ∈ c.operationTraffic ops w, ∀ token, hop.granted = .ok token ↔
    ∃ response members, hop.heard = .ok response ∧ Token.Grant response members token

variable {c : Client}

/-- Operations are played on the answers to their calls, and their traffic serves these. -/
theorem serves_carryOut (c : Client) (ops : List Operation) (w : Wire) :
    ∃ said, c.session.Serves w.token said (c.operationTraffic ops w) (c.carryOut ops w).2.token ∧
      (c.carryOut ops w).2.sent = w.sent ++ (c.operationTraffic ops w).map Hop.request ∧
      ((c.operate ops).play (said.map Prod.snd)).said = said ∧
      ((c.operate ops).play (said.map Prod.snd)).value = (c.carryOut ops w).1 := by
  obtain ⟨H, said, hmoves, hserves, hsaid, hvalue⟩ :=
    Session.carryOut_serves c.session (c.operate ops) w
  rw [c.operationTraffic_eq hmoves]
  exact ⟨said, hserves, hmoves.sent, hsaid, hvalue⟩

/-- An address of a client can be prepared if one of its service can be sent to. -/
theorem Own.prepared {call : Call} {resource : Text} {query : List (Text × Text)}
    (h : Url.Reachable c.idna (Url.under c.configuration.url resource) query) (hown : c.Own call) :
    ∃ url, Url.prepare call.idna call.url call.query = .ok url := by
  obtain ⟨resource', hresource⟩ := hown.url
  obtain ⟨url, hprepared, -⟩ := h.under resource' call.query
  exact ⟨url, by rwa [hresource, hown.idna]⟩

/-- A client with tokens conducts itself as stated, whatever it is asked for and whatever it is
answered, as long as its credentials, its header and its addresses can be written down. -/
theorem conduct_operate (c : Client) {k : Token.Credentials} (hbearer : c.session.bearer = some k)
    (hk : ∃ r, k.request = .ok r) (hheader : c.session.HeaderFits) (ops : List Operation)
    (hurl : (c.operate ops).Within fun call =>
      ∃ url, Url.prepare call.idna call.url call.query = .ok url)
    (w : Wire) : ∃ episodes, c.Conduct k ops w episodes := by
  obtain ⟨said, hserves, hsent, hsaid, hvalue⟩ := serves_carryOut c ops w
  have hprepare : ∀ x ∈ said, ∃ r, c.session.prepare x.1 = .ok r := by
    intro x hx
    rw [← hsaid] at hx
    obtain ⟨url, hprepared⟩ := hurl _ x hx
    have hown := c.within_operate ops _ x hx
    exact ⟨_, prepare_eq_ok.mpr ⟨url, hprepared, hheader, hown.standard, rfl⟩⟩
  obtain ⟨episodes, hregular, rfl, htraffic, hslot⟩ :=
    hserves.exists_regulars hbearer hk hprepare
  rw [List.map_map] at hsaid hvalue
  exact ⟨episodes, {
    calls := hsaid
    results := hvalue.symm
    sent := hsent
    traffic := htraffic
    regular := hregular
    bounded := fun e he => by
      obtain ⟨token, h⟩ := hregular.exists_regular he
      exact h.bounded
    carry := htraffic ▸ hregular.carry
    slot := hslot.symm
    granted := fun _ _ _ => Hop.granted_eq_ok_iff }⟩

/-- The report is challenged, and sent again with a token that was exchanged for it; the approval
uses the same token. -/
theorem conduct_operate_sample : ∃ episodes, Decoration.Sample.bearer.Conduct
    ⟨"key", "basic_token", .whole 10⟩
    [.deleteReport Decoration.Sample.bearer.configuration.target "abc123",
      .approve Decoration.Sample.bearer.configuration.target 7]
    Decoration.Sample.script episodes := by
  have hcredentials :
      ∃ r, (⟨"key", "basic_token", .whole 10⟩ : Token.Credentials).request = .ok r := ⟨_, rfl⟩
  refine conduct_operate Decoration.Sample.bearer rfl hcredentials Decoration.Sample.headerFits _
    ?_ _
  have hreport := (able_call (c := Decoration.Sample.bearer) Decoration.Sample.preparable
    Decoration.Sample.sendable .clearReport).reachable
  rw [Decoration.Errand.url_eq] at hreport
  exact fun q x hx => (Decoration.Sample.bearer.within_operate _ q x hx).prepared hreport

end Client

end PullGate
