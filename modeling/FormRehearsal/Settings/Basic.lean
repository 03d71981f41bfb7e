/-
# Settings

What can be set about runs: how they wait and how many status events are retained. Every setting
has a value from the start; a settings file and the environment may change it.

* `pollInterval_policy_pos` : runs poll at most once a millisecond.
-/
import FormRehearsal.Run.Policy

namespace FormRehearsal

/-- What can be set about runs; all times are milliseconds. -/
structure Settings where
  pollInterval : Nat := 200
  lookupBudget : Nat := 5000
  scrollSettle : Nat := 300
  interruptible : Bool := false
  /-- how many status events are retained for those who watch -/
  statusCapacity : Nat := 256
  deriving DecidableEq, Repr

namespace Settings

/-- The policy of runs. -/
def policy (s : Settings) : Policy :=
  { pollInterval := max 1 s.pollInterval
    lookupBudget := s.lookupBudget
    scrollSettle := s.scrollSettle
    interruptible := s.interruptible }

/-- Settings as JSON. -/
def toJson (s : Settings) : Json :=
  .object [("automation", .object [("poll_interval_ms", .ofNat s.pollInterval),
    ("lookup_timeout_ms", .ofNat s.lookupBudget), ("scroll_settle_ms", .ofNat s.scrollSettle),
    ("interrupt_waits_on_stop", .bool s.interruptible),
    ("status_capacity", .ofNat s.statusCapacity)])]

/-- Runs poll at most once a millisecond. -/
theorem pollInterval_policy_pos (s : Settings) : 0 < s.policy.pollInterval := Nat.le_max_left 1 _

/-- What is set from the start is the policy from the start. -/
theorem policy_default : ({} : Settings).policy = {} := rfl

end Settings

end FormRehearsal
