import PullGate.Client.Basic
import PullGate.Proofs.Dialogue.Play

/-! Breakdowns of a run.  A run is sound if it breaks down on exactly those answers that no run
provides for, and for their reason; runs that are put together from sound ones are sound. -/

namespace PullGate

/-- Why a run breaks down on the answer to its search for comments, if it does: the answer cannot be
read, though not for its syntax, or is no listing. -/
def Comment.breakdown? (r : Http.Response) : Option Breakdown :=
  match r.json with
  | .error (.charset fault) => some (.charset fault)
  | .error (.json _ (.malformed ..)) => none
  | .error (.json _ (.tooDeep container)) => some (.tooDeep container)
  | .error (.json _ (.tooManyDigits count)) => some (.tooManyDigits count)
  | .ok answer =>
    match firstId answer with
    | .error fault => some (.comments fault)
    | .ok _ => none

/-- Why a run breaks down on a refusal that it is to report, if it does: no text is made of it. -/
def Http.Response.unreadable? (r : Http.Response) : Option Breakdown :=
  match r.text with
  | .error fault => some (.charset fault)
  | .ok _ => none

namespace Answer

/-- Whether a refusal is passed over: that of a deletion, or of an approval that is there already,
which is told by its empty body. -/
def isOverlooked (method : Text) (body : Option Text) (status : Nat) : Bool :=
  method = "DELETE" || body = some (Json.object []).write && status = Client.conflict

/-- Why a run breaks down on an answer, if it does.  Only the search for comments is a `GET`. -/
def breakdown? (method : Text) (body : Option Text) : Answer → Option Breakdown
  | .error (.breakdown cause) => some cause
  | .error (.stop _) => none
  | .ok r =>
    if r.isSuccess then if method = "GET" then Comment.breakdown? r else none
    else if isOverlooked method body r.status then none
    else r.unreadable?

theorem breakdown?_error {method : Text} {body : Option Text} {e : Failure} {cause : Breakdown} :
    breakdown? method body (.error e) = some cause ↔ e = .breakdown cause := by
  cases e <;> simp [breakdown?]

end Answer

def Call.breakdown? (c : Call) (answer : Answer) : Option Breakdown :=
  answer.breakdown? c.method (c.body.map Json.write)

theorem Client.rejection?_eq_breakdown {r : Http.Response} {cause : Breakdown} :
    rejection? r = some (.breakdown cause) ↔
      r.isSuccess = false ∧ r.unreadable? = some cause := by
  unfold rejection? Http.Response.unreadable?
  cases r.isSuccess with
  | true => simp
  | false =>
    cases hbody : r.body.isEmpty with
    | true => simp [Http.Response.text, hbody]
    | false => cases r.text <;> simp

namespace Run

variable {α β : Type} {r : Run α}

/-- A run breaks down exactly on an answer that is a reason to, and for that reason. -/
def Sound (r : Run α) : Prop := ∀ q cause, (r.play q).value = .error (.breakdown cause) ↔
  ∃ x ∈ (r.play q).said, x.1.breakdown? x.2 = some cause

theorem sound_pure (v : α) : Sound (pure v : Run α) := by
  intro q cause
  simp [play_pure]

theorem sound_stop (cause : Stop) : Sound (Run.stop cause : Run α) := by
  intro q cause
  simp [play_stop]

theorem sound_log (level : Log.Level) (source : Log.Source) (message : Text) :
    Sound (Run.log level source message) := by
  intro q cause
  simp [play_log]

theorem Sound.bind {f : α → Run β} (hr : r.Sound) (hf : ∀ v, (f v).Sound) :
    Sound (r >>= f) := by
  intro q cause
  have hcause := hr q cause
  rw [play_bind]
  cases hv : (r.play q).value with
  | ok v =>
    simp only [hv, reduceCtorEq, false_iff] at hcause
    simp only [Played.andThen_value, Played.andThen_said, List.mem_append, or_and_right, exists_or,
      hcause, false_or]
    exact hf v _ cause
  | error e =>
    rw [hv] at hcause
    simpa using hcause

/-- A handler that leaves breakdowns alone, and is sound where it handles a stop. -/
theorem Sound.handled {handler : Failure → Run α} (hr : r.Sound)
    (hstop : ∀ cause, (handler (.stop cause)).Sound)
    (hbreakdown : ∀ cause, handler (.breakdown cause) = throw (.breakdown cause)) :
    Sound (tryCatch r handler) := by
  intro q cause
  have hcause := hr q cause
  rw [play_tryCatch]
  cases hv : (r.play q).value with
  | ok v =>
    rw [hv] at hcause
    simpa using hcause
  | error e =>
    rw [hv] at hcause
    cases e with
    | stop stopped =>
      simp only [Except.error.injEq, reduceCtorEq, false_iff] at hcause
      simp only [Played.andThen_value, Played.andThen_said, List.mem_append, or_and_right,
        exists_or, hcause, false_or]
      exact hstop stopped _ cause
    | breakdown broken =>
      simp only [hbreakdown, play_throw]
      simpa using hcause

/-- A call, and a judgement on its response that breaks down if that is a reason to. -/
theorem sound_call {c : Call} {judge : Http.Response → Run α}
    (hjudge : ∀ response q, ((judge response).play q).said = [] ∧
      ∀ cause, ((judge response).play q).value = .error (.breakdown cause) ↔
        c.breakdown? (.ok response) = some cause) :
    Sound (Run.call c >>= judge) := by
  intro q cause
  rw [play_bind, play_call]
  cases hq : Answer.next q with
  | error e => simp [Call.breakdown?, Answer.breakdown?_error]
  | ok response =>
    obtain ⟨hsaid, hvalue⟩ := hjudge response q.tail
    simp [hsaid, hvalue]

end Run

end PullGate
