import PullGate.Proofs.Dialogue.Play

/-! What an action on the wire sends.  The traffic of an action is a relation between the token in
the slot, the hops that the action makes, its result, and the token it leaves; the traffic of two
actions in sequence is put together from theirs. -/

namespace PullGate

/-- A request that was sent, with the reply to it if the script still had one. -/
structure Hop where
  request : Http.Request
  reply : Option Http.Reply

namespace Hop

/-- The reply to a hop; past the end of the script it is silence. -/
def heard (h : Hop) : Http.Reply := h.reply.getD (.error Wire.silence)

def answer (h : Hop) : Answer := .ofReply h.heard

end Hop

/-- Requests in the order in which they were sent, each with its reply. -/
def hops : List Http.Request → List Http.Reply → List Hop
  | [], _ => []
  | r :: requests, replies => ⟨r, replies.head?⟩ :: hops requests replies.tail

theorem hops_append (requests more : List Http.Request) (replies : List Http.Reply) :
    hops (requests ++ more) replies =
      hops requests replies ++ hops more (replies.drop requests.length) := by
  induction requests generalizing replies with
  | nil => rfl
  | cons r requests ih => simp [hops, ih]

@[simp] theorem hops_map_request (requests : List Http.Request) (replies : List Http.Reply) :
    (hops requests replies).map Hop.request = requests := by
  induction requests generalizing replies with
  | nil => rfl
  | cons r requests ih => simp [hops, ih]

@[simp] theorem length_hops (requests : List Http.Request) (replies : List Http.Reply) :
    (hops requests replies).length = requests.length := by
  rw [← List.length_map Hop.request, hops_map_request]

/-- A hop comes to what stands in its place in the script. -/
theorem hops_answer (requests : List Http.Request) (replies : List Http.Reply) (i : Nat)
    (h : i < requests.length) :
    ((hops requests replies).map Hop.answer).getD i Answer.absent =
      (replies.map Answer.ofReply).getD i Answer.absent := by
  induction requests generalizing replies i with
  | nil => simp at h
  | cons r requests ih =>
    cases i with
    | zero => cases replies <;> rfl
    | succ i =>
      rw [hops, List.map_cons, List.getD_cons_succ, ih replies.tail i (by simpa using h),
        ← Answer.tail_getD, List.map_tail]

/-- The hops lead from one state of the wire to another. -/
structure Wire.Moves (w : Wire) (H : List Hop) (w' : Wire) : Prop where
  sent : w'.sent = w.sent ++ H.map Hop.request
  heard : H = hops (H.map Hop.request) w.replies
  replies : w'.replies = w.replies.drop H.length

namespace Wire.Moves

variable {w w' w'' : Wire} {H H' : List Hop}

theorem of_same (hsent : w'.sent = w.sent) (hreplies : w'.replies = w.replies) :
    w.Moves [] w' :=
  ⟨by simp [hsent], rfl, by simp [hreplies]⟩

theorem trans (h : w.Moves H w') (h' : w'.Moves H' w'') : w.Moves (H ++ H') w'' := by
  constructor
  · rw [h'.sent, h.sent, List.map_append, List.append_assoc]
  · rw [List.map_append, hops_append, List.length_map, ← h.heard, ← h.replies, ← h'.heard]
  · rw [h'.replies, h.replies, List.drop_drop, List.length_append]

end Wire.Moves

/-- What an action does: the token before, the hops, the result, the token after. -/
abbrev Traffic (α : Type) := Json → List Hop → Except Failure α → Json → Prop

namespace Net

variable {α β : Type}

def on (x : Net α) (w : Wire) : Except Failure α × Wire := x.run.run w

theorem on_pure (a : α) (w : Wire) : on (pure a : Net α) w = (.ok a, w) := rfl

/-- What the first action did before a failure stays done. -/
theorem on_bind (x : Net α) (f : α → Net β) (w : Wire) :
    on (x >>= f) w = match on x w with
      | (.ok a, w') => on (f a) w'
      | (.error e, w') => (.error e, w') := by
  have h : on (x >>= f) w = (ExceptT.bindCont f (on x w).1).run (on x w).2 := rfl
  rw [h]
  cases on x w with
  | mk v w' => cases v <;> rfl

/-- Wherever an action is taken, its traffic is as stated. -/
def Does (x : Net α) (P : Traffic α) : Prop :=
  ∀ w, ∃ H, w.Moves H (on x w).2 ∧ P w.token H (on x w).1 (on x w).2.token

/-- One action, and another if it did not fail. -/
inductive Then (P : Traffic α) (Q : α → Traffic β) : Traffic β where
  | failed {token token' : Json} {H : List Hop} {e : Failure} :
    P token H (.error e) token' → Then P Q token H (.error e) token'
  | went {token between token' : Json} {H H' : List Hop} {a : α} {result : Except Failure β} :
    P token H (.ok a) between → Q a between H' result token' →
      Then P Q token (H ++ H') result token'

theorem Does.bind {x : Net α} {f : α → Net β} {P : Traffic α} {Q : α → Traffic β}
    (hx : Does x P) (hf : ∀ a, Does (f a) (Q a)) : Does (x >>= f) (Then P Q) := by
  intro w
  obtain ⟨H, hmoves, hp⟩ := hx w
  rw [on_bind]
  cases hv : on x w with
  | mk v w' =>
    rw [hv] at hmoves hp
    cases v with
    | error e => exact ⟨H, hmoves, .failed hp⟩
    | ok a =>
      obtain ⟨H', hmoves', hq⟩ := hf a w'
      exact ⟨H ++ H', hmoves.trans hmoves', .went hp hq⟩

theorem Does.bind_pure {x : Net α} {P : Traffic α} (hx : Does x P) (g : α → β) :
    Does (x >>= fun a => pure (g a)) fun token H result token' =>
      ∃ v, P token H v token' ∧ result = v.map g := by
  intro w
  obtain ⟨H, hmoves, hp⟩ := hx w
  rw [on_bind]
  refine ⟨H, ?_⟩
  cases hv : on x w with
  | mk v w' =>
    rw [hv] at hmoves hp
    cases v <;> exact ⟨hmoves, _, hp, rfl⟩

theorem Does.imp {x : Net α} {P Q : Traffic α} (hx : Does x P)
    (h : ∀ {token H result token'}, P token H result token' → Q token H result token') :
    Does x Q := by
  intro w
  obtain ⟨H, hmoves, hp⟩ := hx w
  exact ⟨H, hmoves, h hp⟩

end Net

end PullGate
