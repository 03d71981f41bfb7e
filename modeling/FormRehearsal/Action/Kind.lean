/-
# Kinds of actions

The ten kinds of actions with their names, the ways of scrolling and the two phases of a key. A name
is matched letter by letter, so that reading a name and writing a kind undo each other.
-/

namespace FormRehearsal

/-- What a step does. -/
inductive ActionKind where
  | wait
  | waitFor
  | click
  | type
  | paste
  | keySequence
  | scroll
  | focus
  | setValue
  | highlight
  deriving DecidableEq, Repr

namespace ActionKind

/-- The name of a kind in a step. -/
def name : ActionKind → String
  | wait => "wait"
  | waitFor => "waitFor"
  | click => "click"
  | type => "type"
  | paste => "paste"
  | keySequence => "keySequence"
  | scroll => "scroll"
  | focus => "focus"
  | setValue => "setValue"
  | highlight => "highlight"

/-- All kinds. -/
def all : List ActionKind :=
  [wait, waitFor, click, type, paste, keySequence, scroll, focus, setValue, highlight]

/-- The kind of this name. -/
def ofName? (name : String) : Option ActionKind := all.find? fun kind => kind.name = name

/-- Whether a step of this kind looks up an element before anything else. -/
def requiresSelector : ActionKind → Bool
  | wait | scroll | keySequence => false
  | _ => true

/-- Reading the name of a kind gives the kind. -/
theorem ofName?_name (kind : ActionKind) : ofName? kind.name = some kind := by
  cases kind <;> decide

/-- A name that is read is the name of its kind. -/
theorem name_of_ofName? {name : String} {kind : ActionKind} (h : ofName? name = some kind) :
    kind.name = name := by
  simpa using List.find?_some h

end ActionKind

/-- How a page scrolls. -/
inductive ScrollBehavior where
  | smooth
  | instant
  | auto
  deriving DecidableEq, Repr, Inhabited

namespace ScrollBehavior

/-- The name of a way of scrolling. -/
def name : ScrollBehavior → String
  | smooth => "smooth"
  | instant => "instant"
  | auto => "auto"

/-- The way of scrolling of this name. -/
def ofName? : String → Option ScrollBehavior
  | "smooth" => some smooth
  | "instant" => some instant
  | "auto" => some auto
  | _ => none

/-- Reading the name of a way of scrolling gives it back. -/
theorem ofName?_name (behavior : ScrollBehavior) : ofName? behavior.name = some behavior := by
  cases behavior <;> rfl

end ScrollBehavior

/-- A key goes down and comes up. -/
inductive KeyPhase where
  | down
  | up
  deriving DecidableEq, Repr

/-- The name of a phase. -/
def KeyPhase.name : KeyPhase → String
  | down => "down"
  | up => "up"

end FormRehearsal
