import DeviceAttest.Named

/-!
# Log levels

Levels are ordered from errors, which matter most, to traces.
-/

namespace DeviceAttest.Log

/-- How much an event matters. -/
inductive Level where
  | error | warn | info | debug | trace
  deriving DecidableEq

instance : Named Level where
  all := [.error, .warn, .info, .debug, .trace]
  name
    | .error => "ERROR"
    | .warn  => "WARN"
    | .info  => "INFO"
    | .debug => "DEBUG"
    | .trace => "TRACE"
  find_name a := by cases a <;> rfl

/-- How many levels matter at least as much. -/
def Level.rank : Level → Nat
  | error => 1
  | warn  => 2
  | info  => 3
  | debug => 4
  | trace => 5

end DeviceAttest.Log
