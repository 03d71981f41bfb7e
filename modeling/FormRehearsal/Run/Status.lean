/-
# Status events

What a runner tells those who watch it: lines of text and the state of a badge.
-/
import FormRehearsal.Json.Value

namespace FormRehearsal

/-- Something that watchers are told. -/
inductive StatusEvent where
  | status (text : String)
  | badge (text color : String)
  deriving DecidableEq, Repr

namespace StatusEvent

/-- The badge of a run in progress. -/
def runningBadge : StatusEvent := .badge "RUN" "#16a34a"

/-- The badge while nothing runs. -/
def idleBadge : StatusEvent := .badge "" "#4CAF50"

/-- The line of a status. -/
def statusText : StatusEvent → Option String
  | status text => some text
  | badge .. => none

/-- Whether the event is about the badge. -/
def isBadge : StatusEvent → Bool
  | status _ => false
  | badge .. => true

/-- An event as JSON. -/
def toJson : StatusEvent → Json
  | status text => .object [("type", .string "status_changed"), ("text", .string text)]
  | badge text color =>
    .object [("type", .string "badge_changed"), ("text", .string text), ("color", .string color)]

/-- An event for people, without the time. -/
def describe : StatusEvent → String
  | status text => text
  | badge text color =>
    if text.isEmpty then "badge cleared (" ++ color ++ ")"
    else "badge " ++ text ++ " (" ++ color ++ ")"

end StatusEvent

/-- An event and the instant at which watchers are told. -/
structure TimedEvent where
  instant : Nat
  event : StatusEvent
  deriving DecidableEq, Repr

/-- Events that are told at one instant. -/
def StatusEvent.toldAt (instant : Nat) (events : List StatusEvent) : List TimedEvent :=
  events.map (TimedEvent.mk instant)

/-- The instant of events does not change them. -/
@[simp] theorem StatusEvent.map_event_toldAt (instant : Nat) (events : List StatusEvent) :
    (StatusEvent.toldAt instant events).map TimedEvent.event = events := by
  simp [toldAt, Function.comp_def]

end FormRehearsal
