import Sundial.Calendar.Time
import Sundial.Formula.Duration
import Sundial.Formula.Typing

/-!
# Values

What evaluating a formula gives. Durations are signed minutes.
-/

set_option autoImplicit false

namespace Sundial

inductive Value where
  | time (t : Time)
  | duration (minutes : Float)
  | number (x : Float)
  | string (s : String)
  | boolean (b : Bool)
  deriving DecidableEq

namespace Value

def kind : Value → ValueKind
  | time _ => .time
  | duration _ => .duration
  | number _ => .number
  | string _ => .string
  | boolean _ => .boolean

def isTime : Value → Bool
  | time _ => true
  | _ => false

/-- The value as listings show it. A string stands in quotes, with nothing escaped. -/
def text : Value → String
  | time t => t.clockText
  | duration minutes => Duration.minutesText minutes
  | number x => plainText x
  | string s => s!"\"{s}\""
  | boolean b => if b then "true" else "false"

end Value

end Sundial
