/-
# Waiting policies

How long a run waits where its steps do not say so, and whether a stop request ends its waits. What
becomes of a wait is then up to the runtime: how long a sleep lasts, and what a run goes by that is
asked to stop at the very instant at which its wait is over.
-/
import FormRehearsal.Json.Shape

namespace FormRehearsal

/-- How a run waits; all times are milliseconds. -/
structure Policy where
  /-- the pause between two lookups -/
  pollInterval : Nat := 200
  /-- the budget of a lookup that the step does not limit itself -/
  lookupBudget : Nat := 5000
  /-- the pause after scrolling -/
  scrollSettle : Nat := 300
  /-- whether a stop request ends pauses and lookups -/
  interruptible : Bool := false
  deriving DecidableEq, Repr

namespace Policy

/-- The names of the parts of a policy. -/
def partNames : List String :=
  ["poll_interval_ms", "lookup_timeout_ms", "scroll_settle_ms", "interrupt_on_cancel"]

/-- A policy as JSON. -/
def toJson (p : Policy) : Json :=
  .object [("poll_interval_ms", .ofNat p.pollInterval),
    ("lookup_timeout_ms", .ofNat p.lookupBudget), ("scroll_settle_ms", .ofNat p.scrollSettle),
    ("interrupt_on_cancel", .bool p.interruptible)]

/-- The policy that a value describes; missing parts have their defaults. -/
def ofJson? (v : Json) : Option Policy :=
  let standard : Policy := {}
  match v.parts? partNames with
  | some [poll, lookup, settle, interrupt] => do
    return { pollInterval := ← Json.partOr standard.pollInterval Json.toWord? poll
             lookupBudget := ← Json.partOr standard.lookupBudget Json.toWord? lookup
             scrollSettle := ← Json.partOr standard.scrollSettle Json.toWord? settle
             interruptible := ← Json.partOr standard.interruptible Json.toBool? interrupt }
  | _ => none

end Policy

/-- What the runtime makes of waits. On an exact one a sleep lasts as long as it is meant to. When a
wait is over at an instant at which a stop request ends it too, either may come first: the runtime
picks one. Waits take time, so a runner has one wait at most for which it picks at an instant. -/
structure Runtime where
  /-- how long a sleep of some milliseconds lasts -/
  sleep : Nat → Nat := id
  /-- a sleep of some length takes time -/
  sleep_pos : ∀ {ms : Nat}, 0 < ms → 0 < sleep ms := by exact fun h => h
  /-- whether, at an instant, a wait that is over and that a stop request ends was ended by it -/
  stopFirst : Nat → Bool := fun _ => false

/-- The policy of a run and the runtime on which it is followed. -/
structure RunPolicy extends Policy, Runtime

/-- The policy as it is followed on a runtime. -/
def Policy.on (p : Policy) (runtime : Runtime) : RunPolicy :=
  { toPolicy := p, toRuntime := runtime }

end FormRehearsal
