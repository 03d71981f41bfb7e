/-
# Bridges

A bridge moves items from a channel into a queue of its own, in order. It takes an item, holds it
until there is room in the queue, and then takes the next one; what it lost by falling behind is
skipped. It ends when the channel is closed and nothing is left, or when it has an item for a queue
that nobody takes from any more.

* `step_decreases` : a bridge has to wait after finitely many steps.
-/
import FormRehearsal.Channel.Basic

namespace FormRehearsal

/-- A receiver that moves items into a queue. -/
structure Bridge (α : Type) where
  /-- the number of items before the one that the bridge expects -/
  next : Nat
  /-- how many items the queue can hold -/
  capacity : Nat
  queue : List α := []
  /-- the item that is to be put into the queue -/
  held : Option α := none
  /-- whether somebody takes items from the queue -/
  attended : Bool := true
  /-- whether the bridge has stopped receiving -/
  ended : Bool := false
  deriving Repr

namespace Bridge

variable {α : Type}

/-- A bridge from now on; there is always room for one item in its queue. -/
def on (c : Channel α) (capacity : Nat) : Bridge α := { next := c.sent, capacity := max 1 capacity }

/-- The next thing that a bridge does, unless it has to wait. -/
def step (c : Channel α) (b : Bridge α) : Option (Bridge α) :=
  if b.ended then none
  else
    match b.held with
    | some a =>
      if !b.attended then some { b with held := none, ended := true }
      else if b.queue.length < b.capacity then
        some { b with held := none, queue := b.queue ++ [a] }
      else none
    | none =>
      match c.receive b.next with
      | (.item a, next) => some { b with next, held := some a }
      | (.lagged _, next) => some { b with next }
      | (.closed, _) => some { b with ended := true }
      | (.empty, _) => none

/-- What a bridge can still do without waiting. -/
def rank (c : Channel α) (b : Bridge α) : Nat :=
  2 * (c.oldest + c.retained.length - b.next) + (if b.held.isSome then 1 else 0) +
    (if b.ended then 0 else 1)

/-- A bridge comes to a wait. -/
theorem step_decreases {c : Channel α} {b b' : Bridge α} (h : b.step c = some b') :
    b'.rank c < b.rank c := by
  unfold step at h
  split at h
  · cases h
  · rename_i he
    split at h
    · rename_i a ha
      split at h
      · cases h
        simp only [rank, ha, he, Option.isSome_some, Option.isSome_none]
        simp only [if_true, if_false, Bool.false_eq_true]
        omega
      · split at h
        · cases h
          simp only [rank, ha, he, Option.isSome_some, Option.isSome_none]
          simp only [if_true, if_false, Bool.false_eq_true]
          omega
        · cases h
    · rename_i ha
      unfold Channel.receive at h
      by_cases hl : b.next < c.oldest
      · simp only [if_pos hl] at h
        cases h
        simp only [rank]
        omega
      · simp only [if_neg hl] at h
        cases hg : c.retained[b.next - c.oldest]? with
        | some a =>
          simp only [hg] at h
          cases h
          have := (List.getElem?_eq_some_iff.1 hg).1
          simp only [rank, ha, he, Option.isSome_some, Option.isSome_none]
          simp only [if_true, if_false, Bool.false_eq_true]
          omega
        | none =>
          simp only [hg] at h
          by_cases hc : c.closed
          · simp only [hc, if_true] at h
            cases h
            simp only [rank, ha, he, Option.isSome_none]
            simp only [if_true, if_false, Bool.false_eq_true]
            omega
          · simp [hc] at h

/-- A bridge after all that it can do without waiting. -/
def pump (c : Channel α) (b : Bridge α) : Bridge α :=
  match _h : b.step c with
  | none => b
  | some b' => b'.pump c
termination_by b.rank c
decreasing_by exact step_decreases _h

/-- What is taken from the queue without waiting, and the bridge after it. -/
def take (b : Bridge α) : Received α × Bridge α :=
  match b.queue with
  | a :: queue => (.item a, { b with queue })
  | [] => (if b.ended then .closed else .empty, b)

/-- The bridge when nobody takes from its queue any more. -/
def leave (b : Bridge α) : Bridge α := { b with attended := false }

end Bridge

end FormRehearsal
