import Rollout.Text.Blank
import Rollout.Text.Quoted

/-!
# Log levels
-/

namespace Rollout

inductive LogLevel where
  | debug
  | info
  | warn
  | error
  deriving DecidableEq, Repr

namespace LogLevel

def text : LogLevel → String
  | debug => "DEBUG"
  | info => "INFO"
  | warn => "WARN"
  | error => "ERROR"

/-- Reads a level in letters of either case. -/
def parse? (s : String) : Option LogLevel :=
  match Text.lower s with
  | "debug" => some debug
  | "info" => some info
  | "warn" => some warn
  | "error" => some error
  | _ => none

/-- What is said of a text that is no level. -/
def complaint (s : String) : String :=
  s!"unknown log level {Text.quoted s} (expected debug, info, warn or error)"

end LogLevel
end Rollout
