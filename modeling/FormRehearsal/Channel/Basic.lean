/-
# Channels

A channel hands what is published on it to every receiver. It retains the last items only, as many
as its capacity rounded up to a power of two; a receiver that has fallen further behind is told once
how many items it lost and goes on with the oldest one retained. A receiver is the number of items
that were published before the one it expects.

* `length_retained_publish` : how many items are retained;
* `receive_last` : a receiver that is up to date gets what is published next.
-/

namespace FormRehearsal

/-- A channel that retains its last items. -/
structure Channel (α : Type) where
  /-- the number of items that are retained at most -/
  room : Nat
  /-- the number of items that were published -/
  sent : Nat := 0
  /-- the last items that were published, the oldest one first -/
  retained : List α := []
  /-- whether nothing more is published -/
  closed : Bool := false
  deriving Repr

/-- What a receiver gets. -/
inductive Received (α : Type) where
  | item (a : α)
  | lagged (lost : Nat)
  | empty
  | closed
  deriving DecidableEq, Repr

namespace Channel

variable {α : Type}

/-- A channel of some capacity; there is always room for one item. -/
def ofCapacity (capacity : Nat) : Channel α := { room := (max 1 capacity).nextPowerOfTwo }

/-- The number of items before the oldest one that is retained. -/
def oldest (c : Channel α) : Nat := c.sent - c.retained.length

/-- The last items of a list, at most `n`. -/
def lastOf (n : Nat) (items : List α) : List α := items.drop (items.length - n)

/-- Publishes an item. -/
def publish (c : Channel α) (a : α) : Channel α :=
  { c with sent := c.sent + 1, retained := lastOf c.room (c.retained ++ [a]) }

/-- What a receiver gets without waiting, and the receiver after it. -/
def receive (c : Channel α) (next : Nat) : Received α × Nat :=
  if next < c.oldest then (.lagged (c.oldest - next), c.oldest)
  else
    match c.retained[next - c.oldest]? with
    | some a => (.item a, next + 1)
    | none => (if c.closed then .closed else .empty, next)

/-- What a receiver gets until nothing is left: first how many items it lost, if any, then the items
that are retained for it. -/
def drain (c : Channel α) (next : Nat) : Nat × List α :=
  (c.oldest - next, c.retained.drop (next - c.oldest))

/-! ## Facts about channels -/

theorem length_lastOf (n : Nat) (items : List α) : (lastOf n items).length = min n items.length := by
  simp [lastOf]
  omega

/-- One item more is retained, unless there is no room for it. -/
theorem length_retained_publish (c : Channel α) (a : α) :
    (c.publish a).retained.length = min c.room (c.retained.length + 1) := by
  simp [publish, length_lastOf]

/-- A receiver that is up to date gets what is published next. -/
theorem receive_last {c : Channel α} {a : α} (hr : 0 < c.room) (hl : c.retained.length ≤ c.sent) :
    (c.publish a).receive c.sent = (.item a, c.sent + 1) := by
  have hlen := length_retained_publish c a
  have hold : (c.publish a).oldest = c.sent + 1 - min c.room (c.retained.length + 1) := by
    rw [oldest, hlen]
    rfl
  have hle : (c.publish a).oldest ≤ c.sent := by omega
  have hidx : c.sent - (c.publish a).oldest + 1 = (c.publish a).retained.length := by omega
  have hget : (c.publish a).retained[c.sent - (c.publish a).oldest]? = some a := by
    have : (c.publish a).retained.getLast? = some a := by
      simp only [publish, lastOf]
      rw [List.getLast?_drop, if_neg]
      · simp
      · simp
        omega
    rw [List.getLast?_eq_getElem?] at this
    rwa [show c.sent - (c.publish a).oldest = (c.publish a).retained.length - 1 by omega]
  simp [receive, Nat.not_lt.2 hle, hget]

end Channel

end FormRehearsal
