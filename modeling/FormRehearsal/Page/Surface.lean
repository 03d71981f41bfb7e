/-
# Surfaces

A surface owns a document and offers the capabilities with which actions are carried out. Each
capability gives a value or says why it was not provided, and leaves the surface in some state
either way. Whether an element can be found may depend on the instant.
-/
import FormRehearsal.Action.Error

namespace FormRehearsal

/-- A handle to an element of a surface. -/
structure ElementId where
  text : String
  deriving DecidableEq, Repr

/-- The use of a capability of a surface. -/
abbrev Capability (σ α : Type) := σ → Except SurfaceError α × σ

/-- What actions ask of a surface. -/
class Surface (σ : Type) where
  /-- the element that a selector finds at an instant -/
  query (now : Nat) (selector : String) : Capability σ (Option ElementId)
  /-- how many lookups pass before one is refused, if one will be -/
  lookupsLeft : σ → Option Nat
  /-- the element that has the focus -/
  active : Capability σ (Option ElementId)
  /-- a click on an element -/
  click (element : ElementId) : Capability σ Unit
  /-- the focus goes to an element -/
  focus (element : ElementId) : Capability σ Unit
  /-- the value of an element -/
  read (element : ElementId) : Capability σ String
  /-- the value of an element is replaced -/
  write (element : ElementId) (text : String) : Capability σ Unit
  /-- a key goes down or comes up while an element has the focus -/
  key (element : ElementId) (key : String) (phase : KeyPhase) : Capability σ Unit
  /-- the page scrolls by an offset -/
  scroll (x y : Float) (behavior : ScrollBehavior) : Capability σ Unit
  /-- an element is marked for some time -/
  highlight (element : ElementId) (duration : Nat) : Capability σ Unit

end FormRehearsal
