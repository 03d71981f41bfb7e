/-
# Rehearsals

A rehearsal is one run on a page from the instant zero to its end. An interrupt asks the run to stop,
if it comes after the start and before the end. Those who watch a rehearsal look whenever the run
waits, so of what is said at one instant they get no more than is retained.
-/
import FormRehearsal.Channel.Basic
import FormRehearsal.Page.Basic
import FormRehearsal.Run.Runner

namespace FormRehearsal

/-- The rehearsal of a program on a page. -/
abbrev Rehearsal := Timeline Page

namespace Rehearsal

/-- The events with some more at an instant, before the others that are not earlier. -/
def insertAt (instant : Nat) (more : List StatusEvent) (events : List TimedEvent) :
    List TimedEvent :=
  events.takeWhile (·.instant < instant) ++ StatusEvent.toldAt instant more ++
    events.dropWhile (·.instant < instant)

/-- The rehearsal of a program with an interrupt at an instant. -/
def ofProgram (page : Page) (policy : RunPolicy) (interrupt : Option Nat) (program : Program) :
    Rehearsal :=
  let run := Run.claim ⟨1⟩ program 0
  let free := run.timeline policy none 0 page
  match interrupt with
  | none => free
  | some t =>
    if 0 < t ∧ t < free.report.finishedAt then
      let stopped := run.timeline policy (some t) 0 page
      { stopped with events := insertAt t [Runner.stoppingStatus] stopped.events }
    else free

/-- The events of each instant. -/
def batches : List TimedEvent → List (List TimedEvent)
  | [] => []
  | e :: r =>
    match batches r with
    | (f :: batch) :: rest =>
      if e.instant = f.instant then (e :: f :: batch) :: rest else [e] :: (f :: batch) :: rest
    | rest => [e] :: rest

/-- What those who watch get to see of what was said: at each instant, what is retained. -/
def seen (capacity : Nat) (events : List TimedEvent) : List TimedEvent :=
  let room := (Channel.ofCapacity capacity : Channel StatusEvent).room
  (batches events).flatMap (Channel.lastOf room)

end Rehearsal

end FormRehearsal
