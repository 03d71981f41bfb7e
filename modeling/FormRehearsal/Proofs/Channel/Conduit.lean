/-
# Bridges and what goes through them

A `Conduit` is what concerns one bridge: its channel, the bridge, and the books on it since it was
built, that is what was published, what was taken from its queue, and the lags that it was told of.
What happens to a conduit is one of a few steps.

An invariant carries the conservation of items: what the bridge has read of what was published went
through it in order, except for blocks as long as the lags; and what it has read of the last items
went through it whole, since a bridge never loses an item that is retained.

* `Sound.step` : the invariant is kept by every step;
* `Sound.lighter` : once nothing more is published, a step that changes something brings the bridge
  nearer to its end.
-/
import FormRehearsal.Proofs.Channel.Traffic
import Mathlib.Algebra.GroupWithZero.Nat

namespace FormRehearsal

variable {α : Type}

/-! ## Items that went through -/

/-- Of some items that were read, blocks of some lengths were left out, and the others are kept. -/
inductive Thinned : List α → List Nat → List α → Prop
  | nil : Thinned [] [] []
  | keep {read kept : List α} {lags : List Nat} (h : Thinned read lags kept) (a : α) :
    Thinned (read ++ [a]) lags (kept ++ [a])
  | lose {read kept : List α} {lags : List Nat} (h : Thinned read lags kept) {block : List α}
    (hblock : block ≠ []) : Thinned (read ++ block) (lags ++ [block.length]) kept

namespace Thinned

variable {read kept : List α} {lags : List Nat}

/-- Every item is kept or counted by a lag. -/
theorem length_eq (h : Thinned read lags kept) : read.length = kept.length + lags.sum := by
  induction h with
  | nil => rfl
  | keep _ a ih =>
    simp only [List.length_append, List.length_singleton, ih]
    omega
  | lose _ _ ih =>
    simp only [List.length_append, List.sum_append, List.sum_singleton, ih]
    omega

/-- The items that are kept are in order, none of them twice. -/
theorem sublist (h : Thinned read lags kept) : kept.Sublist read := by
  induction h with
  | nil => exact List.Sublist.refl []
  | keep _ a ih => exact ih.append (List.Sublist.refl [a])
  | lose _ _ ih => exact ih.trans (List.sublist_append_left _ _)

/-- Without lags, everything is kept. -/
theorem eq_of_no_lags (h : Thinned read [] kept) : kept = read :=
  h.sublist.eq_of_length (by simp [h.length_eq])

end Thinned

/-! ## Conduits -/

/-- The item that is received, if any. -/
def Received.item? : Received α → Option α
  | .item a => some a
  | _ => none

/-- How many items a receiver is told that it lost, if any. -/
def Received.lost? : Received α → Option Nat
  | .lagged lost => some lost
  | _ => none

/-- How many items a bridge is told that it lost, if that is the next thing that happens to it. -/
def Bridge.lag? (c : Channel α) (b : Bridge α) : Option Nat :=
  if b.ended || b.held.isSome then none else (c.receive b.next).1.lost?

/-- A bridge with its channel, and the books on it. -/
structure Conduit (α : Type) where
  channel : Channel α
  isOpen : Bool
  bridge : Bridge α
  /-- what was published since the bridge was built -/
  published : List α
  /-- what was taken from its queue -/
  delivered : List α
  /-- how many items it lost, each time that it was told -/
  lags : List Nat

namespace Conduit

/-- What has gone through the bridge: it was taken, is in the queue, or is held. -/
def passed (k : Conduit α) : List α := k.delivered ++ k.bridge.queue ++ k.bridge.held.toList

/-- What the bridge has read or lost of what was published. -/
def read (start : Nat) (k : Conduit α) : List α := k.published.take (k.bridge.next - start)

/-- What can happen to a conduit as long as somebody takes from the queue. -/
inductive Step (k : Conduit α) : Conduit α → Prop
  | idle : Step k k
  | publish (a : α) (hopen : k.isOpen = true) :
    Step k { k with channel := k.channel.publish a, published := k.published ++ [a] }
  | close : Step k { k with isOpen := false, channel := { k.channel with closed := true } }
  | take {a : α} {queue : List α} (hq : k.bridge.queue = a :: queue) :
    Step k { k with bridge := { k.bridge with queue }, delivered := k.delivered ++ [a] }
  | push {a : α} (he : k.bridge.ended = false) (hh : k.bridge.held = some a)
    (hroom : k.bridge.queue.length < k.bridge.capacity) :
    Step k { k with bridge := { k.bridge with held := none, queue := k.bridge.queue ++ [a] } }
  | lag {lost next : Nat} (he : k.bridge.ended = false) (hh : k.bridge.held = none)
    (hr : k.channel.receive k.bridge.next = (.lagged lost, next)) :
    Step k { k with bridge := { k.bridge with next }, lags := k.lags ++ [lost] }
  | read {a : α} {next : Nat} (he : k.bridge.ended = false) (hh : k.bridge.held = none)
    (hr : k.channel.receive k.bridge.next = (.item a, next)) :
    Step k { k with bridge := { k.bridge with next, held := some a } }
  | finish {next : Nat} (he : k.bridge.ended = false) (hh : k.bridge.held = none)
    (hr : k.channel.receive k.bridge.next = (.closed, next)) :
    Step k { k with bridge := { k.bridge with ended := true } }

/-- A hub that is closed stays closed. -/
theorem Step.isOpen_eq_false {k k' : Conduit α} (hs : k.Step k') (hopen : k.isOpen = false) :
    k'.isOpen = false := by
  cases hs with
  | close => rfl
  | _ => exact hopen

/-- Nothing is published on a hub that is closed. -/
theorem Step.published_eq {k k' : Conduit α} (hs : k.Step k') (hopen : k.isOpen = false) :
    k'.published = k.published := by
  cases hs with
  | publish a hpublish =>
    rw [hopen] at hpublish
    cases hpublish
  | _ => rfl

/-- Taking from the queue is a step. -/
theorem step_take (k : Conduit α) :
    k.Step { k with
      bridge := k.bridge.take.2
      delivered := k.delivered ++ k.bridge.take.1.item?.toList } := by
  cases hq : k.bridge.queue with
  | nil =>
    have htake : k.bridge.take = (if k.bridge.ended then .closed else .empty, k.bridge) := by
      rw [Bridge.take, hq]
    rw [htake]
    have hnone : (if k.bridge.ended then .closed else .empty : Received α).item? = none := by
      split <;> rfl
    rw [hnone, Option.toList_none, List.append_nil]
    exact .idle
  | cons a queue =>
    have htake : k.bridge.take = (.item a, { k.bridge with queue }) := by rw [Bridge.take, hq]
    rw [htake]
    exact .take hq

/-- What the bridge does is a step. -/
theorem step_progress (k : Conduit α) (ha : k.bridge.attended = true) :
    k.Step { k with
      bridge := (k.bridge.step k.channel).getD k.bridge
      lags := k.lags ++ (k.bridge.lag? k.channel).toList } := by
  cases he : k.bridge.ended with
  | true =>
    simp only [Bridge.step, Bridge.lag?, he, if_true, Bool.true_or, Option.getD_none,
      Option.toList_none, List.append_nil]
    exact .idle
  | false =>
    cases hh : k.bridge.held with
    | some a =>
      have hlag : k.bridge.lag? k.channel = none := by simp [Bridge.lag?, hh]
      rw [hlag, Option.toList_none, List.append_nil]
      by_cases hroom : k.bridge.queue.length < k.bridge.capacity
      · have hstep : k.bridge.step k.channel =
            some { k.bridge with held := none, queue := k.bridge.queue ++ [a] } := by
          simp only [Bridge.step, he, hh, ha, if_pos hroom, Bool.false_eq_true, if_false,
            Bool.not_true]
        rw [hstep]
        exact .push he hh hroom
      · have hstep : k.bridge.step k.channel = none := by
          simp only [Bridge.step, he, hh, ha, if_neg hroom, Bool.false_eq_true, if_false,
            Bool.not_true]
        rw [hstep]
        exact .idle
    | none =>
      have hlag : k.bridge.lag? k.channel = (k.channel.receive k.bridge.next).1.lost? := by
        simp only [Bridge.lag?, he, hh, Bool.false_eq_true, if_false, Bool.false_or,
          Option.isSome_none]
      rw [hlag]
      rcases hr : k.channel.receive k.bridge.next with ⟨received, next⟩
      cases received with
      | item a =>
        have hstep : k.bridge.step k.channel = some { k.bridge with next, held := some a } := by
          simp only [Bridge.step, he, hh, hr, Bool.false_eq_true, if_false]
        rw [hstep]
        simp only [Received.lost?, Option.getD_some, Option.toList_none, List.append_nil]
        exact .read he hh hr
      | lagged lost =>
        have hstep : k.bridge.step k.channel = some { k.bridge with next } := by
          simp only [Bridge.step, he, hh, hr, Bool.false_eq_true, if_false]
        rw [hstep]
        exact .lag he hh hr
      | closed =>
        have hstep : k.bridge.step k.channel = some { k.bridge with ended := true } := by
          simp only [Bridge.step, he, hh, hr, Bool.false_eq_true, if_false]
        rw [hstep]
        simp only [Received.lost?, Option.getD_some, Option.toList_none, List.append_nil]
        exact .finish he hh hr
      | empty =>
        have hstep : k.bridge.step k.channel = none := by
          simp only [Bridge.step, he, hh, hr, Bool.false_eq_true, if_false]
        rw [hstep]
        simp only [Received.lost?, Option.getD_none, Option.toList_none, List.append_nil]
        exact .idle

/-- What holds of a conduit whose bridge was built after some items. -/
structure Sound (before : List α) (window slots : Nat) (k : Conduit α) : Prop where
  holds : k.channel.Holds (before ++ k.published)
  room : k.channel.room = window
  closed : k.channel.closed = !k.isOpen
  capacity : k.bridge.capacity = slots
  queued : k.bridge.queue.length ≤ slots
  since : before.length ≤ k.bridge.next
  upTo : k.bridge.next ≤ before.length + k.published.length
  /-- only what a lag counts is left out -/
  thinned : Thinned (k.read before.length) k.lags k.passed
  /-- and nothing of the last items that were published -/
  latest : (k.read before.length).drop (k.published.length - window) <:+ k.passed
  ended : k.bridge.ended = true → k.isOpen = false ∧ k.bridge.held = none ∧
    k.bridge.next = before.length + k.published.length

/-! ## What a bridge receives -/

namespace Sound

variable {before : List α} {window slots : Nat} {k k' : Conduit α}

theorem receive (h : k.Sound before window slots) :
    k.channel.receive k.bridge.next =
      if k.bridge.next < before.length + k.published.length - window then
        (.lagged (before.length + k.published.length - window - k.bridge.next),
          before.length + k.published.length - window)
      else
        match k.published[k.bridge.next - before.length]? with
        | some a => (.item a, k.bridge.next + 1)
        | none => (if k.channel.closed then .closed else .empty, k.bridge.next) := by
  rewrite [h.holds.receive, h.room, List.length_append, List.getElem?_append_right h.since]
  rfl

theorem length_read (h : k.Sound before window slots) :
    (k.read before.length).length = k.bridge.next - before.length := by
  have hupTo := h.upTo
  rw [read, List.length_take]
  omega

/-- A bridge that is told of a lag skips that many items, none of the last ones. -/
theorem of_lagged (h : k.Sound before window slots) {lost next : Nat}
    (hr : k.channel.receive k.bridge.next = (.lagged lost, next)) :
    k.bridge.next < next ∧ lost = next - k.bridge.next ∧
      next - before.length = k.published.length - window ∧
      next ≤ before.length + k.published.length := by
  have hsince := h.since
  rw [h.receive] at hr
  split at hr
  · rename_i hlt
    obtain ⟨hlost, rfl⟩ := Prod.mk.inj hr
    cases hlost
    exact ⟨hlt, rfl, by omega, Nat.sub_le _ _⟩
  · split at hr
    · cases hr
    · split at hr <;> cases hr

/-- A bridge that gets an item gets the next one. -/
theorem of_item (h : k.Sound before window slots) {a : α} {next : Nat}
    (hr : k.channel.receive k.bridge.next = (.item a, next)) :
    next = k.bridge.next + 1 ∧ k.published[k.bridge.next - before.length]? = some a ∧
      k.published.length - window ≤ k.bridge.next - before.length := by
  have hsince := h.since
  rw [h.receive] at hr
  split at hr
  · cases hr
  · rename_i hlt
    split at hr
    · rename_i b hb
      cases hr
      exact ⟨rfl, hb, by omega⟩
    · split at hr <;> cases hr

/-- A bridge comes to its end when nothing is left. -/
theorem of_closed (h : k.Sound before window slots) {next : Nat}
    (hr : k.channel.receive k.bridge.next = (.closed, next)) :
    k.isOpen = false ∧ k.bridge.next = before.length + k.published.length := by
  have hsince := h.since
  have hupTo := h.upTo
  rw [h.receive] at hr
  split at hr
  · cases hr
  · split at hr
    · cases hr
    · rename_i hnone
      have hlen := List.getElem?_eq_none_iff.1 hnone
      split at hr
      · rename_i hclosed
        rw [h.closed] at hclosed
        exact ⟨by simpa using hclosed, by omega⟩
      · cases hr

/-- A bridge of a hub that is closed does not have to wait for items. -/
theorem not_empty (h : k.Sound before window slots) (hopen : k.isOpen = false) (next : Nat) :
    k.channel.receive k.bridge.next ≠ (.empty, next) := by
  intro hr
  rw [h.receive] at hr
  split at hr
  · cases hr
  · split at hr
    · cases hr
    · rw [h.closed, hopen] at hr
      cases hr

/-- A bridge that is not too far behind is not told of a lag. -/
theorem lags_eq (h : k.Sound before window slots)
    (hnear : k.channel.sent - k.bridge.next ≤ window) (hs : k.Step k') : k'.lags = k.lags := by
  cases hs with
  | lag he hh hr =>
    obtain ⟨hlt, -, hlast, -⟩ := h.of_lagged hr
    have hsince := h.since
    have hsent : k.channel.sent = before.length + k.published.length := by
      rw [h.holds.sent, List.length_append]
    omega
  | _ => rfl

/-! ## The invariant -/

/-- Whatever happens, the invariant is kept. -/
theorem step (h : k.Sound before window slots) (hs : k.Step k') :
    k'.Sound before window slots := by
  obtain ⟨holds, hroom, closed, hcapacity, queued, since, upTo, thinned, latest, ended⟩ := id h
  cases hs with
  | idle => exact h
  | publish a hopen =>
    have hread : (k.published ++ [a]).take (k.bridge.next - before.length) =
        k.read before.length := List.take_append_of_le_length (by omega)
    refine ⟨?_, hroom, closed, hcapacity, queued, since, ?_, ?_, ?_, ?_⟩
    · rw [← List.append_assoc]
      exact holds.publish a
    · exact Nat.le_trans upTo (Nat.add_le_add_left (by simp) _)
    · rw [read, hread]
      exact thinned
    · -- fewer of the items that were read are among the last ones
      rw [read, hread]
      refine List.IsSuffix.trans ?_ latest
      rw [List.length_append, List.length_singleton]
      exact List.drop_suffix_drop_left _ (by omega)
    · intro he
      rw [(ended he).1] at hopen
      cases hopen
  | close => exact ⟨holds.close, hroom, rfl, hcapacity, queued, since, upTo, thinned, latest,
      fun he => ⟨rfl, (ended he).2⟩⟩
  | @take a queue hq =>
    have hpassed : k.delivered ++ [a] ++ queue ++ k.bridge.held.toList = k.passed := by
      rw [passed, hq, ← List.append_cons]
    refine ⟨holds, hroom, closed, hcapacity, ?_, since, upTo, ?_, ?_, ended⟩
    · rw [hq, List.length_cons] at queued
      exact Nat.le_of_succ_le queued
    · rw [passed, hpassed]
      exact thinned
    · rw [passed, hpassed]
      exact latest
  | @push a he hh hlt =>
    have hpassed : k.delivered ++ (k.bridge.queue ++ [a]) ++ [] = k.passed := by
      rw [passed, hh, List.append_nil, ← List.append_assoc]
      rfl
    refine ⟨holds, hroom, closed, hcapacity, ?_, since, upTo, ?_, ?_, fun hended => ?_⟩
    · rw [List.length_append, List.length_singleton]
      omega
    · rw [passed, Option.toList_none, hpassed]
      exact thinned
    · rw [passed, Option.toList_none, hpassed]
      exact latest
    · rw [he] at hended
      cases hended
  | @lag lost next he hh hr =>
    obtain ⟨hlt, rfl, hlast, hle⟩ := h.of_lagged hr
    -- the items from the one that the bridge expected up to those that are retained
    let block := (k.published.take (next - before.length)).drop (k.bridge.next - before.length)
    have hread : k.published.take (next - before.length) = k.read before.length ++ block := by
      rw [read, ← List.take_append_drop (k.bridge.next - before.length)
        (k.published.take (next - before.length)), List.take_take, Nat.min_eq_left (by omega)]
    have hblock : block.length = next - k.bridge.next := by
      simp only [block, List.length_drop, List.length_take]
      omega
    have hnone : (k.published.take (next - before.length)).drop (k.published.length - window) =
        [] := List.drop_eq_nil_of_le (by rw [List.length_take]; omega)
    have hsince : before.length ≤ next := by omega
    refine ⟨holds, hroom, closed, hcapacity, queued, hsince, hle, ?_, ?_, fun hended => ?_⟩
    · rw [read, hread, ← hblock]
      exact thinned.lose (List.ne_nil_of_length_pos (by omega))
    · rw [read, hnone]
      exact List.nil_suffix
    · rw [he] at hended
      cases hended
  | @read a next he hh hr =>
    obtain ⟨rfl, hget, hlast⟩ := h.of_item hr
    have hread : k.published.take (k.bridge.next + 1 - before.length) =
        k.read before.length ++ [a] := by
      rw [read, Nat.succ_sub since, List.take_add_one, hget]
      rfl
    have hpassed : k.delivered ++ k.bridge.queue ++ [a] = k.passed ++ [a] := by
      rw [passed, hh, Option.toList_none, List.append_nil]
    have hlt : k.bridge.next - before.length < k.published.length :=
      (List.getElem?_eq_some_iff.1 hget).1
    have hupTo : k.bridge.next + 1 ≤ before.length + k.published.length := by omega
    refine ⟨holds, hroom, closed, hcapacity, queued, Nat.le_succ_of_le since, hupTo, ?_, ?_,
      fun hended => ?_⟩
    · rw [read, hread, passed, Option.toList_some, hpassed]
      exact thinned.keep a
    · rw [read, hread, passed, Option.toList_some, hpassed, List.drop_append_of_le_length]
      · obtain ⟨earlier, hearlier⟩ := latest
        exact ⟨earlier, by rw [← List.append_assoc, hearlier]⟩
      · rw [h.length_read]
        exact hlast
    · rw [he] at hended
      cases hended
  | finish he hh hr =>
    obtain ⟨hopen, hnext⟩ := h.of_closed hr
    exact ⟨holds, hroom, closed, hcapacity, queued, since, upTo, thinned, latest,
      fun _ => ⟨hopen, hh, hnext⟩⟩

end Sound

/-! ## After the last publication -/

/-- What is still to be done until everything is delivered: an item that was not read has to be read,
put into the queue and taken from it. -/
def weight (k : Conduit α) : Nat :=
  3 * (k.channel.sent - k.bridge.next) + 2 * k.bridge.held.toList.length + k.bridge.queue.length +
    if k.bridge.ended then 0 else 1

/-- The bridge has moved everything, and everything was taken. -/
def Finished (k : Conduit α) : Prop := k.bridge.ended = true ∧ k.bridge.queue = []

namespace Sound

variable {before : List α} {window slots : Nat} {k k' : Conduit α}

/-- A hub that is closed stays as it is when it is closed again. -/
theorem close_eq (h : k.Sound before window slots) (hopen : k.isOpen = false) :
    { k with isOpen := false, channel := { k.channel with closed := true } } = k := by
  have hclosed := h.closed
  obtain ⟨⟨room, sent, retained, closed⟩, isOpen, bridge, published, delivered, lags⟩ := k
  obtain rfl : isOpen = false := hopen
  obtain rfl : closed = true := hclosed
  rfl

/-- Once nothing more is published, whatever changes something is progress. -/
theorem lighter (h : k.Sound before window slots) (hopen : k.isOpen = false) (hs : k.Step k') :
    k' = k ∨ k'.weight < k.weight := by
  have hsent : k.channel.sent = before.length + k.published.length := by
    rw [h.holds.sent, List.length_append]
  cases hs with
  | idle => exact Or.inl rfl
  | publish a hpublish => rw [hopen] at hpublish; cases hpublish
  | close => exact Or.inl (h.close_eq hopen)
  | take hq =>
    right
    simp only [weight, hq, List.length_cons]
    omega
  | push he hh hroom =>
    right
    simp only [weight, hh, he, Option.toList_none, Option.toList_some, List.length_append,
      List.length_singleton, List.length_nil]
    omega
  | lag he hh hr =>
    obtain ⟨hlt, -, -, hle⟩ := h.of_lagged hr
    right
    simp only [weight]
    omega
  | read he hh hr =>
    obtain ⟨rfl, hget, -⟩ := h.of_item hr
    have hlt := (List.getElem?_eq_some_iff.1 hget).1
    have hsince := h.since
    right
    simp only [weight, hh, Option.toList_none, Option.toList_some, List.length_singleton,
      List.length_nil]
    omega
  | finish he hh hr =>
    right
    simp only [weight, he, if_true, Bool.false_eq_true, if_false]
    omega

/-- How much there can be to do. -/
theorem weight_le (h : k.Sound before window slots) :
    k.weight ≤ 3 * k.published.length + slots + 3 := by
  have hsent : k.channel.sent = before.length + k.published.length := by
    rw [h.holds.sent, List.length_append]
  have hsince := h.since
  have hqueued := h.queued
  have hheld : k.bridge.held.toList.length ≤ 1 := by cases k.bridge.held <;> simp
  rw [weight]
  split <;> omega

/-- A bridge of a closed hub that can do nothing has come to its end, or its queue is full. -/
theorem finished_of_step_eq_none (h : k.Sound before window slots) (hopen : k.isOpen = false)
    (hslots : 0 < slots) (ha : k.bridge.attended = true)
    (hstep : k.bridge.step k.channel = none) (hq : k.bridge.queue = []) : k.Finished := by
  refine ⟨?_, hq⟩
  cases he : k.bridge.ended with
  | true => rfl
  | false =>
    cases hh : k.bridge.held with
    | some a =>
      have hroom : k.bridge.queue.length < k.bridge.capacity := by
        rw [hq, h.capacity]
        exact hslots
      simp [Bridge.step, he, hh, ha, hroom] at hstep
    | none =>
      rcases hr : k.channel.receive k.bridge.next with ⟨received, next⟩
      cases received with
      | empty => exact absurd hr (h.not_empty hopen next)
      | _ => simp [Bridge.step, he, hh, hr] at hstep

/-- What is finished stays as it is. -/
theorem eq_of_finished (h : k.Sound before window slots) (hf : k.Finished) (hs : k.Step k') :
    k' = k := by
  obtain ⟨hended, hqueue⟩ := hf
  have hopen := (h.ended hended).1
  cases hs with
  | idle => rfl
  | publish a hpublish => rw [hopen] at hpublish; cases hpublish
  | close => exact h.close_eq hopen
  | take hq => rw [hqueue] at hq; cases hq
  | push he | lag he | read he | finish he => rw [hended] at he; cases he

/-- A bridge that is finished has delivered the last items that were published. -/
theorem delivered_of_finished (h : k.Sound before window slots) (hf : k.Finished) :
    Channel.lastOf window k.published <:+ k.delivered := by
  obtain ⟨hended, hqueue⟩ := hf
  obtain ⟨-, hheld, hnext⟩ := h.ended hended
  have hlatest := h.latest
  have hpassed : k.passed = k.delivered := by
    rw [passed, hqueue, hheld, List.append_nil]
    exact List.append_nil _
  have hread : k.read before.length = k.published := by
    rw [read, hnext, Nat.add_sub_cancel_left, List.take_length]
  rwa [hpassed, hread] at hlatest

end Sound

end Conduit

end FormRehearsal
