/-
# Audiences

Those who watch a hub come and go, read or fall behind, as they like. An `Audience` is a hub with
what its watchers do before each publication. Whoever publishes gets an answer each time; what was
attempted is kept in order, with the answers. A computation that publishes on its way is `Aloud`, and
it `Airs` some events if it publishes just them, in order, and comes to the same before every
audience.

* `Airs.pure`, `Airs.bind`, `Airs.report` : what computations air;
* `Airs.independent` : what they come to and what they attempt do not depend on the audience.
-/
import FormRehearsal.Proofs.Channel.Traffic
import FormRehearsal.Run.Status

namespace FormRehearsal

/-! ## Those who watch -/

/-- A hub, and what is done with it before each publication. -/
structure Audience where
  hub : Hub StatusEvent
  /-- for each publication to come; nothing is done before those after them -/
  plan : List (List Watching) := []

/-- What is answered to a publication, and the audience after it. -/
def Audience.publish (a : Audience) (event : StatusEvent) : Except PublishError Unit × Audience :=
  let (answer, hub) := ((a.plan.headD []).foldl Hub.watch a.hub).publish event
  (answer, ⟨hub, a.plan.tail⟩)

/-! ## What is published to them -/

/-- An event that somebody attempted to publish, and what was answered. -/
structure Attempt where
  event : TimedEvent
  answer : Except PublishError Unit

/-- An audience and what was attempted before it. -/
structure Airing where
  audience : Audience
  attempts : List Attempt := []

namespace Airing

/-- The airing after an event was published, with the answer. -/
def publish (air : Airing) (now : Nat) (event : StatusEvent) : Except PublishError Unit × Airing :=
  let (answer, audience) := air.audience.publish event
  (answer, ⟨audience, air.attempts ++ [⟨⟨now, event⟩, answer⟩]⟩)

/-- The airing after some events. -/
def hear (air : Airing) (events : List TimedEvent) : Airing :=
  events.foldl (fun air e => (air.publish e.instant e.event).2) air

/-- What was attempted, whatever was answered. -/
def attempted (air : Airing) : List TimedEvent := air.attempts.map (·.event)

theorem hear_append (air : Airing) (events more : List TimedEvent) :
    air.hear (events ++ more) = (air.hear events).hear more := List.foldl_append

/-- What is attempted does not depend on the audience. -/
theorem attempted_hear (air : Airing) (events : List TimedEvent) :
    (air.hear events).attempted = air.attempted ++ events := by
  induction events generalizing air with
  | nil => exact (List.append_nil _).symm
  | cons e events ih =>
    show ((air.publish e.instant e.event).2.hear events).attempted = _
    rw [ih]
    simp [publish, attempted]

end Airing

/-! ## Computations that publish -/

/-- A computation that publishes on its way. -/
abbrev Aloud (α : Type) := StateM Airing α

namespace Aloud

variable {α β : Type}

/-- Publishes an event, and gives what was answered. -/
def publish (now : Nat) (event : StatusEvent) : Aloud (Except PublishError Unit) :=
  fun air => air.publish now event

/-- Publishes an event; if it is refused, nothing else is done. -/
def report (now : Nat) (event : StatusEvent) : Aloud Unit := do
  match ← publish now event with
  | .ok () => pure ()
  | .error _ => pure ()

/-- A computation publishes some events and comes to a value, before every audience. -/
def Airs (x : Aloud α) (a : α) (events : List TimedEvent) : Prop :=
  ∀ air : Airing, x.run air = (a, air.hear events)

theorem Airs.pure (a : α) : Airs (Pure.pure a) a [] := fun _ => rfl

theorem Airs.bind {x : Aloud α} {f : α → Aloud β} {a : α} {b : β}
    {events more : List TimedEvent} (hx : x.Airs a events) (hf : (f a).Airs b more) :
    Airs (x >>= f) b (events ++ more) := by
  intro air
  have hrun : (x >>= f).run air = (f (x.run air).1).run (x.run air).2 := rfl
  rw [hrun, hx air, hf, Airing.hear_append]

/-- A computation that is silent after another one. -/
theorem Airs.andThen {x : Aloud α} {f : α → Aloud β} {a : α} {b : β} {events : List TimedEvent}
    (hx : x.Airs a events) (hf : (f a).Airs b []) : Airs (x >>= f) b events := by
  have hboth := hx.bind hf
  rwa [List.append_nil] at hboth

theorem Airs.report (now : Nat) (event : StatusEvent) :
    Airs (report now event) () [⟨now, event⟩] := by
  intro air
  have hrun : (Aloud.report now event).run air =
      (match (air.publish now event).1 with
      | .ok () => (Pure.pure () : Aloud Unit)
      | .error _ => Pure.pure ()).run (air.publish now event).2 := rfl
  rw [hrun]
  cases (air.publish now event).1 <;> rfl

/-- Events that are reported one after another. -/
theorem Airs.reports (now : Nat) (events : List StatusEvent) :
    Airs (events.forM (Aloud.report now)) () (StatusEvent.toldAt now events) := by
  induction events with
  | nil => exact .pure ()
  | cons event events ih => exact (Airs.report now event).bind ih

/-- What a computation comes to and what it attempts to publish do not depend on the audience. -/
theorem Airs.independent {x : Aloud α} {a : α} {events : List TimedEvent} (h : x.Airs a events)
    (audience : Audience) :
    (x.run ⟨audience, []⟩).1 = a ∧ (x.run ⟨audience, []⟩).2.attempted = events := by
  rw [h]
  exact ⟨rfl, Airing.attempted_hear ⟨audience, []⟩ events⟩

end Aloud

end FormRehearsal
