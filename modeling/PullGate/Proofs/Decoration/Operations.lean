import PullGate.Proofs.Decoration.Errand

/-! The operations of a client as errands.  Each operation follows its own: it makes their calls and
no others, up to the first fatal one, and it succeeds exactly if none is fatal. -/

namespace PullGate

open Decoration

namespace Run

variable {α β : Type} (s : Setup) (a : Analysis)

/-- A run makes no call, and succeeds exactly under a condition. -/
def Quiet (r : Run α) (condition : Prop) : Prop :=
  ∀ q, (r.play q).said = [] ∧ ((∃ v, (r.play q).value = .ok v) ↔ condition)

/-- On the answers `q` a run makes the calls of the errands up to the first fatal one. -/
def Calls (r : Run α) (q : List Answer) (errands : List Errand) : Prop :=
  (r.play q).said = (untilFatal errands q).map fun x => (x.1.call s a, x.2)

/-- A run makes the calls of its errands, and succeeds exactly if none of them is fatal. -/
structure Follows (r : Run α) (q : List Answer) (errands : List Errand) : Prop where
  calls : Calls s a r q errands
  succeeds : (∃ v, (r.play q).value = .ok v) ↔ AllWell (untilFatal errands q)

/-- A run that follows errands, and fails as they do. -/
structure Ends (r : Run α) (q : List Answer) (errands : List Errand) : Prop where
  follows : Follows s a r q errands
  failure : Except.failure? (r.play q).value = failure? (untilFatal errands q)

variable {s a} {r : Run α} {q : List Answer} {errands : List Errand}

theorem Quiet.follows (h : r.Quiet True) (q : List Answer) : Follows s a r q [] := by
  obtain ⟨said, succeeds⟩ := h q
  exact ⟨said, succeeds.trans ⟨fun _ => allWell_nil, fun _ => trivial⟩⟩

theorem quiet_pure (v : α) : Quiet (pure v : Run α) True :=
  fun _ => ⟨rfl, fun _ => trivial, fun _ => ⟨v, rfl⟩⟩

theorem quiet_log (level : Log.Level) (source : Log.Source) (message : Text) :
    Quiet (Run.log level source message) True :=
  fun _ => ⟨rfl, fun _ => trivial, fun _ => ⟨(), rfl⟩⟩

theorem quiet_throw (e : Failure) : Quiet (throw e : Run α) False := by
  intro q
  refine ⟨rfl, ⟨?_, False.elim⟩⟩
  rintro ⟨v, h⟩
  cases h

theorem Follows.rest_of_allWell (h : Follows s a r q errands)
    (hw : AllWell (untilFatal errands q)) : (r.play q).rest = q.drop errands.length := by
  have hlen := congrArg List.length h.calls
  rw [List.length_map, length_untilFatal_of_allWell hw] at hlen
  unfold play at hlen ⊢
  rw [Dialogue.play_rest, hlen]

theorem Follows.play_bind_of_allWell (f : α → Run β) (h : Follows s a r q errands)
    (hw : AllWell (untilFatal errands q)) : ∃ v, (r.play q).value = .ok v ∧
      (r >>= f).play q = (r.play q).andThen ((f v).play (q.drop errands.length)) := by
  obtain ⟨v, hv⟩ := h.succeeds.mpr hw
  refine ⟨v, hv, ?_⟩
  rw [play_bind, hv, ← h.rest_of_allWell hw]

theorem Follows.play_bind_of_not_allWell (f : α → Run β) (h : Follows s a r q errands)
    (hw : ¬AllWell (untilFatal errands q)) :
    ((r >>= f).play q).said = (r.play q).said ∧ ¬∃ v, ((r >>= f).play q).value = .ok v := by
  rw [play_bind]
  cases hv : (r.play q).value with
  | ok v => exact absurd (h.succeeds.mp ⟨v, hv⟩) hw
  | error e => exact ⟨rfl, fun ⟨_, hv'⟩ => nomatch hv'⟩

theorem Follows.calls_bind {f : α → Run β} (h : Follows s a r q errands) (later : List Errand)
    (hf : ∀ v, (r.play q).value = .ok v → Calls s a (f v) (q.drop errands.length) later) :
    Calls s a (r >>= f) q (errands ++ later) := by
  unfold Calls at hf ⊢
  by_cases hw : AllWell (untilFatal errands q)
  · obtain ⟨v, hv, hplay⟩ := h.play_bind_of_allWell f hw
    rw [hplay, untilFatal_append_of_allWell hw, List.map_append, Played.andThen_said, h.calls,
      hf v hv]
  · rw [(h.play_bind_of_not_allWell f hw).1, h.calls, untilFatal_append_of_not_allWell hw]

theorem Follows.bind {f : α → Run β} (h : Follows s a r q errands) (later : List Errand)
    (hf : ∀ v, (r.play q).value = .ok v → Follows s a (f v) (q.drop errands.length) later) :
    Follows s a (r >>= f) q (errands ++ later) := by
  refine ⟨h.calls_bind later fun v hv => (hf v hv).calls, ?_⟩
  by_cases hw : AllWell (untilFatal errands q)
  · obtain ⟨v, hv, hplay⟩ := h.play_bind_of_allWell f hw
    rw [hplay, untilFatal_append_of_allWell hw, Played.andThen_value, (hf v hv).succeeds,
      allWell_append]
    exact ⟨fun hl => ⟨hw, hl⟩, And.right⟩
  · rw [untilFatal_append_of_not_allWell hw]
    exact ⟨fun hok => absurd hok (h.play_bind_of_not_allWell f hw).2, fun hok => absurd hok hw⟩

/-- The call of an errand, and a judgement on the response. -/
theorem follows_errand (e : Errand) {judge : Http.Response → Run α} (q : List Answer)
    (herror : ∀ f, e.isFatal (.error f) = true)
    (hjudge : ∀ response, (judge response).Quiet (e.isFatal (.ok response) = false)) :
    Follows s a (Run.call (e.call s a) >>= judge) q [e] := by
  have hplay := play_bind (Run.call (e.call s a)) judge q
  rw [play_call] at hplay
  cases hq : Answer.next q with
  | ok response =>
    obtain ⟨said, succeeds⟩ := hjudge response q.tail
    rw [hq] at hplay
    constructor
    · rw [Calls, hplay]
      simp [said, untilFatal, hq]
    · rw [hplay, Played.andThen_value, succeeds]
      simp [untilFatal, hq]
  | error f =>
    rw [hq] at hplay
    constructor
    · rw [Calls, hplay]
      simp [untilFatal, hq]
    · rw [hplay]
      simp [untilFatal, hq, herror]

theorem Quiet.ends (h : r.Quiet True) (q : List Answer) : Ends s a r q [] := by
  refine ⟨h.follows q, ?_⟩
  obtain ⟨v, hv⟩ := (h q).2.mpr trivial
  rw [hv]
  rfl

theorem Ends.bind {f : α → Run β} (h : Ends s a r q errands) (later : List Errand)
    (hf : ∀ v, (r.play q).value = .ok v → Ends s a (f v) (q.drop errands.length) later) :
    Ends s a (r >>= f) q (errands ++ later) := by
  refine ⟨h.follows.bind later fun v hv => (hf v hv).follows, ?_⟩
  by_cases hw : AllWell (untilFatal errands q)
  · obtain ⟨v, hv, hplay⟩ := h.follows.play_bind_of_allWell f hw
    rw [hplay, untilFatal_append_of_allWell hw, failure?_append, allWell_iff.mp hw]
    exact (hf v hv).failure
  · rw [untilFatal_append_of_not_allWell hw, ← h.failure, play_bind]
    cases hv : (r.play q).value with
    | ok v => exact absurd (h.follows.succeeds.mp ⟨v, hv⟩) hw
    | error e => rfl

theorem Quiet.bind_ends {f : α → Run β} (h : r.Quiet True)
    (hf : ∀ v, (r.play q).value = .ok v → Ends s a (f v) q errands) :
    Ends s a (r >>= f) q errands :=
  (h.ends q).bind errands hf

/-- The call of an errand, and a judgement on the response that fails as the errand does. -/
theorem ends_errand (e : Errand) {judge : Http.Response → Run α} (q : List Answer)
    (herror : ∀ f, e.failure? (.error f) = some f)
    (hjudge : ∀ response q, ((judge response).play q).said = [] ∧
      Except.failure? ((judge response).play q).value = e.failure? (.ok response)) :
    Ends s a (Run.call (e.call s a) >>= judge) q [e] := by
  have hfatal : ∀ f, e.isFatal (.error f) = true := fun f => by simp [e.isFatal_eq, herror]
  refine ⟨follows_errand e q hfatal fun response q => ?_, ?_⟩
  · obtain ⟨hsaid, hvalue⟩ := hjudge response q
    refine ⟨hsaid, ?_⟩
    rw [e.isFatal_eq, ← hvalue]
    cases ((judge response).play q).value <;> simp [Except.failure?]
  · rw [play_bind, play_call]
    cases hq : Answer.next q with
    | error f => simp [failure?, untilFatal, hq, herror, Except.failure?]
    | ok response => simp [failure?, untilFatal, hq, (hjudge response q.tail).2]

end Run

namespace Client

variable {s : Setup} {a : Analysis}

theorem quiet_requireSuccess (r : Http.Response) :
    (requireSuccess r).Quiet (r.isSuccess = true) := by
  have hrejected := isSome_rejection? r
  unfold requireSuccess
  cases hr : rejection? r with
  | none =>
    rw [hr] at hrejected
    simpa [show r.isSuccess = true by simpa using hrejected] using Run.quiet_pure ()
  | some failure =>
    rw [hr] at hrejected
    simpa [show r.isSuccess = false by simpa using hrejected] using Run.quiet_throw failure

theorem quiet_inform (message : Text) : (inform message).Quiet True := Run.quiet_log _ _ _

/-- A response that has to be a success fails with its rejection. -/
theorem failure?_requireSuccess (r : Http.Response) (q : List Answer) :
    ((requireSuccess r).play q).said = [] ∧
      Except.failure? ((requireSuccess r).play q).value = rejection? r := by
  refine ⟨(quiet_requireSuccess r q).1, ?_⟩
  unfold requireSuccess
  cases rejection? r <;> rfl

theorem ends_deleteReport (q : List Answer) :
    (s.client.deleteReport s.repository a.commit).Ends s a q [.clearReport] := by
  apply (quiet_inform _).bind_ends
  intro _ _
  exact Run.ends_errand .clearReport q (fun _ => rfl) fun _ _ => ⟨rfl, rfl⟩

theorem ends_uploadReport (q : List Answer) :
    (s.client.uploadReport s.repository a.commit (.ofAnalysis a)).Ends s a q
      [.clearReport, .putReport] := by
  apply (ends_deleteReport q).bind [.putReport]
  intro _ _
  apply (quiet_inform _).bind_ends
  intro _ _
  exact Run.ends_errand .putReport _ (fun _ => rfl) failure?_requireSuccess

theorem ends_approve (q : List Answer) :
    (s.client.approve s.repository a.pullRequest).Ends s a q [.approve] := by
  apply (quiet_inform _).bind_ends
  intro _ _
  apply Run.ends_errand .approve q (fun _ => rfl)
  intro response q
  by_cases h : response.status = conflict
  · simp [h, Run.play_pure, Errand.failure?, Except.failure?]
  · simpa [h, Errand.failure?] using failure?_requireSuccess response q

theorem ends_unapprove (q : List Answer) :
    (s.client.unapprove s.repository a.pullRequest).Ends s a q [.unapprove] := by
  apply (quiet_inform _).bind_ends
  intro _ _
  apply Run.ends_errand .unapprove q (fun _ => rfl)
  intro response q
  by_cases h : response.isSuccess = true
  · simp [h, Run.play_pure, Errand.failure?, Except.failure?]
  · simp [h, trace, Run.play_log, Errand.failure?, Except.failure?]

theorem play_findComment_of_listed {c : Client} {r : Repository} {id : Int} {q : List Answer}
    {response : Http.Response} {found : Option Text} (hq : Answer.next q = .ok response)
    (hs : response.isSuccess = true) (hl : Comment.listed? response = some found) :
    ((c.findComment r id).play q).value = .ok found := by
  have hrequire : requireSuccess response = pure () := by simp [requireSuccess, rejection?, hs]
  unfold Comment.listed? at hl
  unfold findComment
  rw [Run.play_bind, Run.play_call, hq]
  simp only [hrequire, Run.play_bind, Run.play_pure, Played.andThen_value]
  cases hread : response.json with
  | error e => simp [hread] at hl
  | ok answer =>
    cases hid : Comment.firstId answer with
    | error fault => simp [hread, hid, Except.toOption] at hl
    | ok found' =>
      simp only [hread, hid, Except.toOption, Option.some.injEq] at hl
      simp only [hid, Run.play_pure, hl]

theorem ends_findComment (q : List Answer) :
    (s.client.findComment s.repository a.pullRequest).Ends s a q [.findComment] := by
  apply Run.ends_errand .findComment q (fun _ => rfl)
  intro response q
  unfold requireSuccess
  rw [Run.play_bind]
  cases hrejected : rejection? response with
  | some failure => simp [Run.play_throw, Errand.failure?, Except.failure?, hrejected]
  | none =>
    simp only [Run.play_pure]
    cases hread : response.json with
    | error e =>
      simp [Run.play_throw, Played.andThen, Errand.failure?, Except.failure?, hrejected, hread]
    | ok answer =>
      cases hid : Comment.firstId answer <;>
        simp [hid, Run.play_breakDown, Run.play_pure, Played.andThen, Errand.failure?,
          Except.failure?, hrejected, hread]

/-- What the search for comments is answered with, where it is not fatal. -/
def foundIn : Answer → Option Text
  | .ok response => (Comment.listed? response).getD none
  | .error _ => none

/-- A search that goes well finds what its answer lists. -/
theorem foundIn_eq {q : List Answer} {found : Option Text}
    (h : ((s.client.findComment s.repository a.pullRequest).play q).value = .ok found) :
    foundIn (Answer.next q) = found := by
  have hok : AllWell (untilFatal [.findComment] q) :=
    (ends_findComment (s := s) (a := a) q).follows.succeeds.mp ⟨found, h⟩
  cases hq : Answer.next q with
  | error e => simp [untilFatal, Errand.isFatal, hq] at hok
  | ok response =>
    obtain ⟨hs, hl⟩ : response.isSuccess = true ∧ (Comment.listed? response).isSome = true := by
      simpa [untilFatal, Errand.isFatal, hq, Option.isSome_iff_ne_none] using hok
    obtain ⟨listed, hlisted⟩ := Option.isSome_iff_exists.mp hl
    obtain rfl : found = listed :=
      Except.ok.inj (h.symm.trans (play_findComment_of_listed hq hs hlisted))
    simp [foundIn, hlisted]

theorem ends_publishComment (q : List Answer) :
    (s.client.publishComment s.repository a.pullRequest a).Ends s a q
      [.findComment, .writeComment (foundIn (Answer.next q))] := by
  apply (ends_findComment q).bind [_]
  intro found hfound
  rw [foundIn_eq hfound]
  cases found with
  | none =>
    apply (quiet_inform _).bind_ends
    intro _ _
    exact Run.ends_errand (.writeComment none) _ (fun _ => rfl) failure?_requireSuccess
  | some comment =>
    apply (quiet_inform _).bind_ends
    intro _ _
    exact Run.ends_errand (.writeComment (some comment)) _ (fun _ => rfl) failure?_requireSuccess

end Client

end PullGate
