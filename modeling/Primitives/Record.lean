import Primitives.Text.Basic

/-!
# Log records

Operations report what happened as records, each addressed to a named logger.

## Main definitions

* `Level`: the severity of a record.
* `Record`: a record.
-/

namespace Primitives

/-- The severity of a record. -/
inductive Level where
  | debug
  | info
  | warning
  | error
  | critical
deriving DecidableEq

/-- The name of a severity. -/
def Level.name : Level → Text
  | debug => "DEBUG"
  | info => "INFO"
  | warning => "WARNING"
  | error => "ERROR"
  | critical => "CRITICAL"

/-- A message to a logger. -/
structure Record where
  logger : Text
  level : Level
  message : Text
deriving DecidableEq

end Primitives
