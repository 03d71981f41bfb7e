/-
# Sessions

A session is a page under rehearsal: a runner on it, a channel for what the runner says, one watcher
of the channel, and steps that are carried out by hand beside the runs. Its clock stands still unless
something waits. Steps by hand have a token of their own, which can be cancelled now or at a later
instant.

* `now_elapse` : how much time passes.
-/
import FormRehearsal.Channel.Basic
import FormRehearsal.Page.Fault
import FormRehearsal.Page.Fixture
import FormRehearsal.Run.Runner

namespace FormRehearsal

/-- What became of a run that was started in a session. -/
inductive HandleState where
  | pending
  | aborted
  | taken
  deriving DecidableEq, Repr

/-- A run that was started in a session. -/
structure Handle where
  token : Token
  state : HandleState := .pending
  deriving DecidableEq, Repr

/-- A page under rehearsal. -/
structure Session where
  runner : Runner (Faulty Page)
  channel : Channel StatusEvent
  /-- the number of items before the one that the watcher expects -/
  watched : Nat := 0
  /-- the number of entries of the journal that were looked at -/
  inspected : Nat := 0
  /-- the token of steps by hand -/
  token : Token := ⟨0⟩
  /-- the instants from which tokens of steps by hand are cancelled -/
  cancellations : List (Token × Nat) := []
  /-- the runs that were started, in order -/
  handles : List Handle := []
  /-- the runs that ended -/
  endings : Endings := []
  /-- whether commands can be sent -/
  serving : Bool := false

/-- What a watcher learns about a session since it looked last. -/
structure Observation where
  now : Nat
  /-- the number of events that were lost -/
  lost : Nat
  events : List StatusEvent
  running : Bool
  cancelRequested : Bool
  journal : List PageEvent

namespace Session

/-- A session on a page. -/
def ofPage (fixture : PageFixture) (policy : Policy) (capacity : Nat) (runtime : Runtime := {}) :
    Session :=
  { runner := { surface := { surface := fixture.page }, policy := policy.on runtime }
    channel := .ofCapacity capacity }

/-- The page. -/
def page (s : Session) : Page := s.runner.surface.surface

/-- The present instant. -/
def now (s : Session) : Nat := s.runner.now

/-- The session after a change to its surface. -/
def withSurface (s : Session) (surface : Faulty Page) : Session :=
  { s with runner := { s.runner with surface } }

/-- The session after a change to its page from outside. -/
def withPage (s : Session) (page : Page) : Session :=
  s.withSurface { s.runner.surface with surface := page }

/-- The session after something was said. -/
def say (s : Session) (events : List StatusEvent) : Session :=
  { s with channel := events.foldl Channel.publish s.channel }

/-- The session after its runner was asked something. -/
def react {α : Type} (s : Session) (a : Reaction (Faulty Page) α) : Session :=
  { s with runner := a.runner }.say a.events

/-- Lets time pass up to an instant, and does everything that is due until then. -/
def elapse (s : Session) (instant : Nat) : Session :=
  let p := s.runner.elapse instant
  { s with runner := p.runner, endings := s.endings ++ p.endings }.say (p.events.map TimedEvent.event)

theorem now_elapse (s : Session) (instant : Nat) : (s.elapse instant).now = max s.now instant :=
  s.runner.now_elapse instant

/-- Does everything that is due at the present instant. -/
def settle (s : Session) : Session := s.elapse s.now

/-- What the watcher learns, and the session after it looked. -/
def observe (s : Session) : Observation × Session :=
  let (lost, events) := s.channel.drain s.watched
  ({ now := s.now
     lost
     events
     running := s.runner.running
     cancelRequested := s.runner.cancelRequested
     journal := s.page.journal.drop s.inspected },
    { s with watched := s.channel.sent, inspected := s.page.journal.length })

/-! ## The page and its faults -/

/-- Adds an element that is visible after some time. -/
def add (s : Session) (selector value : String) (delay : Nat) : ElementId × Session :=
  let (id, page) := s.page.add selector value (s.now + delay)
  (id, s.withPage page)

/-- Removes the elements of a selector. -/
def remove (s : Session) (selector : String) : Session := s.withPage (s.page.remove selector)

/-- Moves the focus from outside. -/
def setFocused (s : Session) (selector : String) : Session :=
  s.withPage (s.page.setFocused selector)

/-- Adds a fault after the others. -/
def addFault (s : Session) (fault : Fault) : Session :=
  s.withSurface { s.runner.surface with faults := s.runner.surface.faults ++ [fault] }

/-- Takes all faults away. -/
def clearFaults (s : Session) : Session := s.withSurface { s.runner.surface with faults := [] }

/-- Uses a capability by hand. -/
def use {α : Type} (s : Session) (capability : Capability (Faulty Page) α) :
    Except SurfaceError α × Session :=
  let (a, surface) := capability s.runner.surface
  (a, s.withSurface surface)

end Session

end FormRehearsal
