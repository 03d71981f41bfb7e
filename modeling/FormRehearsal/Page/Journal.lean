/-
# The journal of a page

Every effect on a page is an entry of its journal. Entries name elements by their selectors.
-/
import FormRehearsal.Action.Kind
import FormRehearsal.Json.Value

namespace FormRehearsal

/-- An effect on a page. -/
inductive PageEvent where
  | click (selector : String)
  | focus (selector : String)
  | write (selector value : String)
  | key (selector key : String) (phase : KeyPhase)
  | scroll (x y : Float) (behavior : ScrollBehavior)
  | highlight (selector : String) (duration : Nat)
  deriving DecidableEq, Repr

namespace PageEvent

/-- An entry as JSON. -/
def toJson : PageEvent → Json
  | click selector => .object [("event", .string "click"), ("selector", .string selector)]
  | focus selector => .object [("event", .string "focus"), ("selector", .string selector)]
  | write selector value =>
    .object [("event", .string "set_value"), ("selector", .string selector),
      ("value", .string value)]
  | key selector name phase =>
    .object [("event", .string "key"), ("selector", .string selector), ("key", .string name),
      ("phase", .string phase.name)]
  | scroll x y behavior =>
    .object [("event", .string "scroll"), ("x", .number (.double x)), ("y", .number (.double y)),
      ("behavior", .string behavior.name)]
  | highlight selector duration =>
    .object [("event", .string "highlight"), ("selector", .string selector),
      ("duration_ms", .ofNat duration)]

end PageEvent

end FormRehearsal
