import PullGate.Session.Basic

/-!
Dialogues: what a run wants sent and logged, one step after the other, where each step may depend on
the responses to those before.  A dialogue knows nothing of tokens, headers or addresses in prepared
form; a session carries it out.
-/

namespace PullGate

inductive Dialogue (α : Type) where
  | done (value : α)
  | log (entry : Log.Entry) (next : Dialogue α)
  | call (call : Call) (next : Except Failure Http.Response → Dialogue α)

namespace Dialogue

def bind {α β : Type} : Dialogue α → (α → Dialogue β) → Dialogue β
  | .done value, f => f value
  | .log entry next, f => .log entry (next.bind f)
  | .call c next, f => .call c fun reply => (next reply).bind f

instance : Monad Dialogue where
  pure := .done
  bind := bind

@[simp] theorem pure_def {α : Type} (a : α) : (pure a : Dialogue α) = .done a := rfl

@[simp] theorem done_bind {α β : Type} (a : α) (f : α → Dialogue β) :
    (Dialogue.done a >>= f) = f a := rfl

@[simp] theorem log_bind {α β : Type} (e : Log.Entry) (d : Dialogue α) (f : α → Dialogue β) :
    (Dialogue.log e d >>= f) = .log e (d >>= f) := rfl

@[simp] theorem call_bind {α β : Type} (c : Call) (k : Except Failure Http.Response → Dialogue α)
    (f : α → Dialogue β) : (Dialogue.call c k >>= f) = .call c fun r => k r >>= f := rfl

/-- Carries out a dialogue, with every call made in the given way. -/
def interpret {α : Type} (perform : Call → Net Http.Response) : Dialogue α → StateM Wire α
  | .done value => pure value
  | .log entry next => do
    Wire.record entry
    next.interpret perform
  | .call c next => do
    let reply ← (perform c).run
    (next reply).interpret perform

end Dialogue

/-- A dialogue that can fail. -/
abbrev Run (α : Type) := ExceptT Failure Dialogue α

namespace Run

def log (level : Log.Level) (source : Log.Source) (message : Text) : Run Unit :=
  ExceptT.lift (.log ⟨level, source, message⟩ (.done ()))

/-- Makes a call; its failure is the failure of the run. -/
def call (c : Call) : Run Http.Response := ExceptT.mk (.call c .done)

def stop {α : Type} (cause : Stop) : Run α := throw (.stop cause)

/-- Ends the run with a failure that is not provided for. -/
def breakDown {α : Type} (cause : Breakdown) : Run α := throw (.breakdown cause)

end Run

namespace Session

def carryOut {α : Type} (s : Session) (d : Dialogue α) : StateM Wire α := d.interpret s.perform

def run {α : Type} (s : Session) (r : Run α) : Net α := ExceptT.mk (s.carryOut r.run)

end Session

end PullGate
