/-
# What happens to a hub

Items are published on a hub while it is open, and those who watch it do as they like: they subscribe
and leave, build bridges and take from them, and the bridges move items one step at a time. All this
may come in any order. A channel `Holds` the items that were published on it: it retains the last
ones, and a receiver gets them one by one, or is told how many it lost.

* `Holds.receive` : what a receiver gets;
* `exists_coherent_afterAll` : whatever happens to a hub, its channel holds what was published.
-/
import FormRehearsal.Channel.Hub
import Mathlib.Data.List.Basic

namespace FormRehearsal

variable {α : Type}

/-! ## Channels and what was published -/

namespace Channel

/-- What is retained of the last items and one more. -/
theorem lastOf_lastOf_append (n : Nat) (items : List α) (a : α) :
    lastOf n (lastOf n items ++ [a]) = lastOf n (items ++ [a]) := by
  have hle : items.length - n ≤ items.length := Nat.sub_le _ _
  rw [lastOf, lastOf, ← List.drop_append_of_le_length hle, List.drop_drop, lastOf]
  congr 1
  simp only [List.length_drop, List.length_append, List.length_singleton]
  omega

/-- The last items of a list, of which there are more than are left out. -/
theorem getElem?_lastOf {n : Nat} {items : List α} {i : Nat} (h : items.length - n ≤ i) :
    (lastOf n items)[i - (items.length - n)]? = items[i]? := by
  rw [lastOf, List.getElem?_drop, Nat.add_sub_cancel' h]

/-- The items that were published on a channel: it counts them and retains the last ones. -/
structure Holds (c : Channel α) (items : List α) : Prop where
  room : 0 < c.room
  sent : c.sent = items.length
  retained : c.retained = lastOf c.room items

theorem holds_ofCapacity (capacity : Nat) : (ofCapacity capacity : Channel α).Holds [] :=
  ⟨Nat.pos_of_isPowerOfTwo (Nat.isPowerOfTwo_nextPowerOfTwo _), rfl, List.drop_nil.symm⟩

namespace Holds

variable {c : Channel α} {items : List α}

theorem publish (h : c.Holds items) (a : α) : (c.publish a).Holds (items ++ [a]) := by
  refine ⟨h.room, ?_, ?_⟩
  · simp [Channel.publish, h.sent]
  · rw [Channel.publish, h.retained, lastOf_lastOf_append]

theorem close (h : c.Holds items) : { c with closed := true }.Holds items :=
  ⟨h.room, h.sent, h.retained⟩

/-- All items but the last ones are gone. -/
theorem oldest (h : c.Holds items) : c.oldest = items.length - c.room := by
  rw [Channel.oldest, h.sent, h.retained, length_lastOf]
  omega

/-- A receiver that expects an item that is gone is told how many are, and goes on after them. The
other receivers get what they expect. -/
theorem receive (h : c.Holds items) (next : Nat) :
    c.receive next =
      if next < items.length - c.room then
        (.lagged (items.length - c.room - next), items.length - c.room)
      else
        match items[next]? with
        | some a => (.item a, next + 1)
        | none => (if c.closed then .closed else .empty, next) := by
  rw [Channel.receive, h.oldest]
  by_cases hlt : next < items.length - c.room
  · rw [if_pos hlt, if_pos hlt]
  · rewrite [if_neg hlt, if_neg hlt, h.retained, getElem?_lastOf (Nat.not_lt.1 hlt)]
    rfl

end Holds

end Channel

/-! ## Those who watch -/

/-- Something that is done with a hub by those who watch it. -/
inductive Watching where
  | subscribe
  | bridge (capacity : Nat)
  | receive (n : Nat)
  | take (n : Nat)
  | unsubscribe (n : Nat)
  | leave (n : Nat)
  /-- the bridge of a number does one thing, unless it has to wait -/
  | progress (n : Nat)

namespace Hub

/-- The hub after one thing that the bridge of a number does, unless it has to wait. -/
def progress (h : Hub α) (n : Nat) : Hub α :=
  match (h.bridges[n]?).bind (·.step h.channel) with
  | none => h
  | some b => { h with bridges := h.bridges.set n b }

/-- The hub after something was done with it; nobody joins a hub that is not open. -/
def watch (h : Hub α) : Watching → Hub α
  | .subscribe => if h.isOpen then h.subscribe.2 else h
  | .bridge capacity => if h.isOpen then (h.bridge capacity).2 else h
  | .receive n => (h.receive n).2
  | .take n => (h.take n).2
  | .unsubscribe n => (h.unsubscribe n).2
  | .leave n => (h.leave n).2
  | .progress n => h.progress n

end Hub

/-- Something that happens to a hub. -/
inductive Traffic (α : Type) where
  | publish (a : α)
  | watch (watching : Watching)
  | close

namespace Hub

/-- The hub after something happened to it; nothing is published on a hub that is not open. -/
def after (h : Hub α) : Traffic α → Hub α
  | .publish a => if h.isOpen then (h.publish a).2 else h
  | .watch watching => h.watch watching
  | .close => h.close

/-- The hub after some traffic. -/
def afterAll (h : Hub α) (traffic : List (Traffic α)) : Hub α := traffic.foldl after h

/-- Those who watch change neither the channel nor whether the hub is open. -/
theorem channel_watch (h : Hub α) (watching : Watching) :
    (h.watch watching).channel = h.channel ∧ (h.watch watching).isOpen = h.isOpen := by
  cases watching with
  | subscribe => unfold watch; dsimp only; split <;> exact ⟨rfl, rfl⟩
  | bridge capacity => unfold watch; dsimp only; split <;> exact ⟨rfl, rfl⟩
  | receive n => unfold watch receive; dsimp only; split <;> exact ⟨rfl, rfl⟩
  | take n => unfold watch take; dsimp only; split <;> exact ⟨rfl, rfl⟩
  | unsubscribe n => exact ⟨rfl, rfl⟩
  | leave n => unfold watch leave; dsimp only; split <;> exact ⟨rfl, rfl⟩
  | progress n => unfold watch progress; dsimp only; split <;> exact ⟨rfl, rfl⟩

/-- A hub after a publication: the item was published on its channel, or refused. -/
theorem publish_eq (h : Hub α) (a : α) :
    (h.publish a = (.ok (), { h with channel := h.channel.publish a }) ∧ h.isHeard = true) ∨
      (h.publish a = (.error .noSubscribers, h) ∧ h.isHeard = false) := by
  unfold publish
  cases h.isHeard with
  | true => exact Or.inl ⟨rfl, rfl⟩
  | false => exact Or.inr ⟨rfl, rfl⟩

/-- A hub whose channel holds some items, retains so many of them and is closed when the hub is. -/
structure Coherent (h : Hub α) (room : Nat) (items : List α) : Prop where
  holds : h.channel.Holds items
  room : h.channel.room = room
  closed : h.channel.closed = !h.isOpen

/-- Whatever happens to a hub, its channel holds what was published. -/
theorem exists_coherent_afterAll (capacity : Nat) (traffic : List (Traffic α)) :
    ∃ items, ((ofCapacity capacity : Hub α).afterAll traffic).Coherent
      (Channel.ofCapacity capacity : Channel α).room items := by
  have step : ∀ {h : Hub α} {room items} (x : Traffic α), h.Coherent room items →
      ∃ items, (h.after x).Coherent room items := by
    rintro h room items x ⟨hholds, hroom, hclosed⟩
    cases x with
    | publish a =>
      rw [after]
      split
      · rcases h.publish_eq a with ⟨heq, -⟩ | ⟨heq, -⟩
        · rw [heq]
          exact ⟨items ++ [a], hholds.publish a, hroom, hclosed⟩
        · rw [heq]
          exact ⟨items, hholds, hroom, hclosed⟩
      · exact ⟨items, hholds, hroom, hclosed⟩
    | watch watching =>
      obtain ⟨hchannel, hopen⟩ := h.channel_watch watching
      refine ⟨items, ?_, ?_, ?_⟩ <;> rw [after, hchannel]
      · exact hholds
      · exact hroom
      · rw [hopen]
        exact hclosed
    | close => exact ⟨items, hholds.close, hroom, rfl⟩
  have all : ∀ (traffic : List (Traffic α)) (h : Hub α) room items, h.Coherent room items →
      ∃ items, (h.afterAll traffic).Coherent room items := by
    intro traffic
    induction traffic with
    | nil => exact fun h room items hitems => ⟨items, hitems⟩
    | cons x traffic ih =>
      intro h room items hitems
      obtain ⟨items, hitems⟩ := step x hitems
      exact ih _ room items hitems
  exact all traffic _ _ [] ⟨Channel.holds_ofCapacity capacity, rfl, rfl⟩

end Hub

end FormRehearsal
