import PullGate.Text.Decimal

/-!
Log entries, their levels, and the names under which a level can be asked for.
-/

namespace PullGate.Log

inductive Level where
  | debug
  | info
  | warning
  | error
  deriving DecidableEq

namespace Level

def word : Level → Text
  | .debug => "DEBUG"
  | .info => "INFO"
  | .warning => "WARNING"
  | .error => "ERROR"

/-- Higher for what is more severe. -/
def rank : Level → Nat
  | .debug => 10
  | .info => 20
  | .warning => 30
  | .error => 40

end Level

inductive Source where
  | auth
  | client
  | decorator
  | loader
  | cli
  deriving DecidableEq

def Source.name : Source → Text
  | .auth => "insights.auth"
  | .client => "insights.client"
  | .decorator => "insights.decorator"
  | .loader => "insights.loader"
  | .cli => "insights.cli"

structure Entry where
  level : Level
  source : Source
  message : Text
  deriving DecidableEq

/-- The least rank that is kept under each of the known level names. -/
def thresholds : List (Text × Nat) :=
  [("CRITICAL", 50), ("FATAL", 50), ("ERROR", 40), ("WARN", 30), ("WARNING", 30), ("INFO", 20),
    ("DEBUG", 10), ("NOTSET", 0)]

/-- The least rank kept under a level name in upper case. -/
def threshold? (name : Text) : Option Nat :=
  (thresholds.find? fun t => t.1 = name).map Prod.snd

def above (rank : Nat) (entries : List Entry) : List Entry :=
  entries.filter fun e => rank ≤ e.level.rank

end PullGate.Log
