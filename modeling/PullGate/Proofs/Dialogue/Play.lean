import PullGate.Session.Dialogue

/-! Dialogues played on given answers: what a dialogue calls for, what it logs and what it ends with
when the answer to each call is known beforehand.  No session plays a part, so a fact about a played
dialogue holds under every session that gives those answers. -/

namespace PullGate

/-- What a call comes to: a response, or the failure to get one. -/
abbrev Answer := Except Failure Http.Response

namespace Answer

/-- What a reply of the transport comes to. -/
def ofReply : Http.Reply → Answer
  | .ok response => .ok response
  | .error fault => .error (.ofTransport fault)

/-- What a call comes to once the replies are used up. -/
def absent : Answer := ofReply (.error Wire.silence)

def next (answers : List Answer) : Answer := answers.headD absent

@[simp] theorem next_nil : next [] = absent := rfl

@[simp] theorem next_cons (a : Answer) (answers : List Answer) : next (a :: answers) = a := rfl

theorem next_eq_getD (answers : List Answer) : next answers = answers.getD 0 absent := by
  cases answers <;> rfl

theorem tail_getD (answers : List Answer) (i : Nat) :
    answers.tail.getD i absent = answers.getD (i + 1) absent := by
  cases answers <;> simp

end Answer

/-- What was said while a dialogue was played: the calls with their answers, the entries logged, the
answers that are left, and the value in the end. -/
structure Played (α : Type) where
  said : List (Call × Answer)
  logged : List Log.Entry
  rest : List Answer
  value : α

namespace Played

def andThen {α β : Type} (p : Played α) (p' : Played β) : Played β :=
  ⟨p.said ++ p'.said, p.logged ++ p'.logged, p'.rest, p'.value⟩

variable {α β : Type} (p : Played α) (p' : Played β)

@[simp] theorem andThen_said : (p.andThen p').said = p.said ++ p'.said := rfl

@[simp] theorem andThen_logged : (p.andThen p').logged = p.logged ++ p'.logged := rfl

@[simp] theorem andThen_rest : (p.andThen p').rest = p'.rest := rfl

@[simp] theorem andThen_value : (p.andThen p').value = p'.value := rfl

end Played

namespace Dialogue

/-- Plays a dialogue; each call takes the next answer. -/
def play {α : Type} : Dialogue α → List Answer → Played α
  | .done value, answers => ⟨[], [], answers, value⟩
  | .log entry next, answers =>
    let p := next.play answers
    { p with logged := entry :: p.logged }
  | .call c next, answers =>
    let p := (next (Answer.next answers)).play answers.tail
    { p with said := (c, Answer.next answers) :: p.said }

variable {α β : Type}

@[simp] theorem play_done (value : α) (q : List Answer) :
    (Dialogue.done value).play q = ⟨[], [], q, value⟩ := rfl

@[simp] theorem play_log (e : Log.Entry) (d : Dialogue α) (q : List Answer) :
    (Dialogue.log e d).play q = { d.play q with logged := e :: (d.play q).logged } := rfl

@[simp] theorem play_call (c : Call) (k : Answer → Dialogue α) (q : List Answer) :
    (Dialogue.call c k).play q =
      { (k (Answer.next q)).play q.tail with
        said := (c, Answer.next q) :: ((k (Answer.next q)).play q.tail).said } := rfl

theorem play_bind (d : Dialogue α) (f : α → Dialogue β) (q : List Answer) :
    (d >>= f).play q = (d.play q).andThen ((f (d.play q).value).play (d.play q).rest) := by
  induction d generalizing q with
  | done value => simp [Played.andThen]
  | log e d ih => simp [ih, Played.andThen]
  | call c k ih => simp [ih, Played.andThen]

theorem play_rest (d : Dialogue α) (q : List Answer) :
    (d.play q).rest = q.drop (d.play q).said.length := by
  induction d generalizing q with
  | done value => rfl
  | log e d ih => exact ih q
  | call c k ih => simp [ih]

/-- Only the answers that are taken matter. -/
theorem play_congr (d : Dialogue α) (q q' : List Answer)
    (h : ∀ i < (d.play q).said.length, q'.getD i Answer.absent = q.getD i Answer.absent) :
    (d.play q').said = (d.play q).said ∧ (d.play q').logged = (d.play q).logged ∧
      (d.play q').value = (d.play q).value := by
  induction d generalizing q q' with
  | done value => exact ⟨rfl, rfl, rfl⟩
  | log e d ih =>
    obtain ⟨hsaid, hlogged, hvalue⟩ := ih q q' h
    exact ⟨hsaid, by simp [hlogged], hvalue⟩
  | call c k ih =>
    have hnext : Answer.next q' = Answer.next q := by
      rw [Answer.next_eq_getD, Answer.next_eq_getD]
      exact h 0 (by simp)
    have htail : ∀ i < ((k (Answer.next q)).play q.tail).said.length,
        q'.tail.getD i Answer.absent = q.tail.getD i Answer.absent := by
      intro i hi
      rw [Answer.tail_getD, Answer.tail_getD]
      exact h (i + 1) (by simpa using hi)
    obtain ⟨hsaid, hlogged, hvalue⟩ := ih (Answer.next q) q.tail q'.tail htail
    simp only [play_call, hnext]
    exact ⟨by rw [hsaid], hlogged, hvalue⟩

end Dialogue

namespace Run

variable {α β : Type}

/-- Plays a run. -/
def play (r : Run α) (answers : List Answer) : Played (Except Failure α) := r.run.play answers

theorem play_pure (a : α) (q : List Answer) :
    play (pure a : Run α) q = ⟨[], [], q, .ok a⟩ := rfl

theorem play_throw (e : Failure) (q : List Answer) :
    play (throw e : Run α) q = ⟨[], [], q, .error e⟩ := rfl

theorem play_stop (cause : Stop) (q : List Answer) :
    play (Run.stop cause : Run α) q = ⟨[], [], q, .error (.stop cause)⟩ := rfl

theorem play_breakDown (cause : Breakdown) (q : List Answer) :
    play (Run.breakDown cause : Run α) q = ⟨[], [], q, .error (.breakdown cause)⟩ := rfl

theorem play_log (level : Log.Level) (source : Log.Source) (message : Text) (q : List Answer) :
    play (Run.log level source message) q = ⟨[], [⟨level, source, message⟩], q, .ok ()⟩ := rfl

theorem play_call (c : Call) (q : List Answer) :
    play (Run.call c) q = ⟨[(c, Answer.next q)], [], q.tail, Answer.next q⟩ := rfl

/-- A failure of the first run is that of both. -/
theorem play_bind (r : Run α) (f : α → Run β) (q : List Answer) :
    play (r >>= f) q = match (r.play q).value with
      | .ok a => (r.play q).andThen ((f a).play (r.play q).rest)
      | .error e => { r.play q with value := .error e } := by
  have h : play (r >>= f) q = Dialogue.play (r.run >>= ExceptT.bindCont f) q := rfl
  rw [h, Dialogue.play_bind]
  unfold play
  cases (r.run.play q).value with
  | ok a => rfl
  | error e => simp [ExceptT.bindCont, Played.andThen]

/-- Only a run that failed is handled, where it failed. -/
theorem play_tryCatch (r : Run α) (handler : Failure → Run α) (q : List Answer) :
    play (tryCatch r handler) q = match (r.play q).value with
      | .ok a => { r.play q with value := .ok a }
      | .error e => (r.play q).andThen ((handler e).play (r.play q).rest) := by
  have h : (tryCatch r handler).run = (r.run >>= fun
      | .ok a => pure (.ok a)
      | .error e => (handler e).run) := by
    refine congrArg (r.run >>= ·) (funext fun result => ?_)
    cases result <;> rfl
  unfold play
  rw [h, Dialogue.play_bind]
  cases (r.run.play q).value with
  | ok a => simp [Played.andThen]
  | error e => rfl

end Run

end PullGate
