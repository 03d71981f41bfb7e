/-
# Hubs

A hub is a channel with its receivers: subscribers, which read by themselves, and bridges, which move
items whenever the hub settles. Both are numbered in the order in which they came; one that has left
keeps its number. What is published while nobody receives is refused and not retained.
-/
import FormRehearsal.Channel.Bridge

namespace FormRehearsal

/-- Why an item is not published. -/
inductive PublishError where
  | noSubscribers
  deriving DecidableEq, Repr

/-- The wording of a refusal. -/
def PublishError.message : PublishError → String
  | noSubscribers => "no subscribers listening"

/-- A channel and its receivers. -/
structure Hub (α : Type) where
  channel : Channel α
  /-- whether more can be published -/
  isOpen : Bool := true
  subscribers : List (Option Nat) := []
  bridges : List (Bridge α) := []

namespace Hub

variable {α : Type}

/-- A hub whose channel has some capacity. -/
def ofCapacity (capacity : Nat) : Hub α := { channel := .ofCapacity capacity }

/-- Whether anybody receives what is published. -/
def isHeard (h : Hub α) : Bool :=
  h.subscribers.any Option.isSome || h.bridges.any fun b => !b.ended

/-- Publishes an item if anybody receives it. -/
def publish (h : Hub α) (a : α) : Except PublishError Unit × Hub α :=
  if h.isHeard then (.ok (), { h with channel := h.channel.publish a })
  else (.error .noSubscribers, h)

/-- Publishes items one after another. -/
def publishAll (h : Hub α) : List α → List (Except PublishError Unit) × Hub α
  | [] => ([], h)
  | a :: items =>
    let (answer, h) := h.publish a
    let (answers, h) := h.publishAll items
    (answer :: answers, h)

/-- A new subscriber and its number. -/
def subscribe (h : Hub α) : Nat × Hub α :=
  (h.subscribers.length, { h with subscribers := h.subscribers ++ [some h.channel.sent] })

/-- A new bridge and its number. -/
def bridge (h : Hub α) (capacity : Nat) : Nat × Hub α :=
  (h.bridges.length, { h with bridges := h.bridges ++ [Bridge.on h.channel capacity] })

/-- The subscriber of a number, unless it has left. -/
def subscriber? (h : Hub α) (n : Nat) : Option Nat := (h.subscribers[n]?).join

/-- The bridge of a number, unless it was left. -/
def bridge? (h : Hub α) (n : Nat) : Option (Bridge α) := (h.bridges[n]?).filter (·.attended)

/-- What a subscriber gets without waiting, if there is one of the number. -/
def receive (h : Hub α) (n : Nat) : Option (Received α) × Hub α :=
  match h.subscriber? n with
  | none => (none, h)
  | some next =>
    let (received, next) := h.channel.receive next
    (some received, { h with subscribers := h.subscribers.set n (some next) })

/-- What is taken from the queue of a bridge without waiting, if there is one of the number. -/
def take (h : Hub α) (n : Nat) : Option (Received α) × Hub α :=
  match h.bridge? n with
  | none => (none, h)
  | some b =>
    let (received, b) := b.take
    (some received, { h with bridges := h.bridges.set n b })

/-- A subscriber leaves; tells whether there was one of the number. -/
def unsubscribe (h : Hub α) (n : Nat) : Bool × Hub α :=
  ((h.subscriber? n).isSome, { h with subscribers := h.subscribers.set n none })

/-- A bridge is left; tells whether there was one of the number. -/
def leave (h : Hub α) (n : Nat) : Bool × Hub α :=
  match h.bridge? n with
  | none => (false, h)
  | some b => (true, { h with bridges := h.bridges.set n b.leave })

/-- Nothing more is published. -/
def close (h : Hub α) : Hub α :=
  { h with isOpen := false, channel := { h.channel with closed := true } }

/-- Every bridge does what it can do without waiting. -/
def settle (h : Hub α) : Hub α := { h with bridges := h.bridges.map (·.pump h.channel) }

end Hub

end FormRehearsal
