/-
# What bridges conserve

Whatever happens to a hub after one of its bridges was built, what was published is delivered, queued
or held, in order, or counted by a lag; and nothing is lost while the bridge is not too far behind.
After the hub is closed, a receiver that goes on taking gets all the last items that were published,
and then is told that nothing comes any more: each round in which the bridge goes on and something
is taken brings both nearer to the end.

* `lags_afterAll` : a bridge that is never too far behind loses nothing;
* `lighter_afterAll`, `finished_afterAll` : rounds of draining, and what comes of them;
* `conserves_afterAll` : what is conserved, whatever happens.
-/
import FormRehearsal.Proofs.Channel.Trail

namespace FormRehearsal

variable {α : Type}

/-- How many of the items that were published a bridge has not read. -/
def Hub.behind (h : Hub α) (n : Nat) : Nat :=
  match h.bridges[n]? with
  | some b => h.channel.sent - b.next
  | none => 0

namespace Trail

variable {t : Trail α} {n : Nat} {b b' : Bridge α} {before : List α} {window slots : Nat}

/-- A bridge that is never too far behind is never told of a lag. -/
theorem lags_afterAll (hget : t.hub.bridges[n]? = some b)
    (hsound : b.attended = true → (t.conduit b).Sound before window slots)
    (traffic : List (Traffic α)) (hb' : (t.afterAll n traffic).hub.bridge? n = some b')
    (hnear : ∀ k, (t.afterAll n (traffic.take k)).hub.behind n ≤ window) :
    (t.afterAll n traffic).lags = t.lags := by
  induction traffic generalizing t b with
  | nil => rfl
  | cons x traffic ih =>
    have hget' := Hub.getElem?_bridges_after hget x
    have ha := attended_of_afterAll hget' traffic hb'
    have hattended := Bridge.attended_of_after ha
    have hs := step (Hub.bridge?_eq_some.2 ⟨hget, hattended⟩) x ha
    have hnow : t.hub.channel.sent - b.next ≤ window := by
      have h0 := hnear 0
      rwa [List.take_zero, afterAll, List.foldl_nil, Hub.behind, hget] at h0
    have hrest := ih hget' (fun _ => (hsound hattended).step hs) hb' fun k => hnear (k + 1)
    exact hrest.trans ((hsound hattended).lags_eq hnow hs)

/-! ## Rounds of draining -/

/-- A round in which the bridge goes on and something is taken from its queue, among other things. -/
def Drains (n : Nat) (round : List (Traffic α)) : Prop :=
  .watch (.progress n) ∈ round ∧ .watch (.take n) ∈ round

/-- A bridge that stays as it is when it is gone on with has to wait. -/
theorem step_eq_none (h : (t.conduit b).bridge = b.after n t.hub.channel (.watch (.progress n))) :
    b.step t.hub.channel = none := by
  cases hs : b.step t.hub.channel with
  | none => rfl
  | some b' =>
    have hsame : b = b' := by
      rw [Bridge.after, if_pos rfl, hs, Option.getD_some] at h
      exact h
    have hless := Bridge.step_decreases hs
    rw [← hsame] at hless
    exact absurd hless (Nat.lt_irrefl _)

/-- A bridge that stays as it is when something is taken has an empty queue. -/
theorem queue_eq_nil (ha : b.attended = true)
    (h : (t.conduit b).bridge = b.after n t.hub.channel (.watch (.take n))) : b.queue = [] := by
  cases hq : b.queue with
  | nil => rfl
  | cons a queue =>
    have hqueue : b.queue = queue := by
      rw [Bridge.after, if_pos ⟨rfl, ha⟩, Bridge.take, hq] at h
      exact congrArg Bridge.queue h
    rw [hq] at hqueue
    exact absurd (congrArg List.length hqueue) (by simp)

/-- After the last publication, traffic brings the bridge nearer to its end, unless it changes nothing;
then the bridge has to wait when it is gone on with, and nothing is there when it is taken from. -/
theorem lighter_afterAll (hget : t.hub.bridges[n]? = some b)
    (hsound : (t.conduit b).Sound before window slots) (hopen : t.hub.isOpen = false)
    (traffic : List (Traffic α)) (hb' : (t.afterAll n traffic).hub.bridge? n = some b') :
    ((t.afterAll n traffic).conduit b').weight < (t.conduit b).weight ∨
      (t.afterAll n traffic).conduit b' = t.conduit b ∧
        (.watch (.progress n) ∈ traffic → b.step t.hub.channel = none) ∧
        (.watch (.take n) ∈ traffic → b.queue = []) := by
  induction traffic generalizing t b with
  | nil =>
    obtain ⟨hget', -⟩ := Hub.bridge?_eq_some.1 hb'
    obtain rfl : b = b' := Option.some.inj (hget.symm.trans hget')
    exact Or.inr ⟨rfl, nofun, nofun⟩
  | cons x traffic ih =>
    have hget' := Hub.getElem?_bridges_after hget x
    have ha := attended_of_afterAll hget' traffic hb'
    have hattended := Bridge.attended_of_after ha
    have hs := step (Hub.bridge?_eq_some.2 ⟨hget, hattended⟩) x ha
    have hrest := ih hget' (hsound.step hs) (hs.isOpen_eq_false hopen) hb'
    rcases hsound.lighter hopen hs with hsame | hless
    · have hbridge : b.after n t.hub.channel x = b := congrArg Conduit.bridge hsame
      have hchannel : (t.after n x).hub.channel = t.hub.channel := congrArg Conduit.channel hsame
      rw [hsame, hbridge, hchannel] at hrest
      rcases hrest with hless | ⟨heq, hprogress, htake⟩
      · exact Or.inl hless
      · refine Or.inr ⟨heq, fun hm => ?_, fun hm => ?_⟩
        · rcases List.mem_cons.1 hm with rfl | hm
          · exact step_eq_none hbridge.symm
          · exact hprogress hm
        · rcases List.mem_cons.1 hm with rfl | hm
          · exact queue_eq_nil hattended hbridge.symm
          · exact htake hm
    · rcases hrest with hmore | ⟨heq, -⟩
      · exact Or.inl (Nat.lt_trans hmore hless)
      · exact Or.inl (heq ▸ hless)

/-- After the last publication, every round of draining brings the bridge nearer to its end, until it
is finished. -/
theorem finished_afterAll (hget : t.hub.bridges[n]? = some b)
    (hsound : (t.conduit b).Sound before window slots) (hopen : t.hub.isOpen = false)
    (hslots : 0 < slots) (rounds : List (List (Traffic α)))
    (hrounds : ∀ round ∈ rounds, Drains n round)
    (hb' : (t.afterAll n rounds.flatten).hub.bridge? n = some b') :
    ((t.afterAll n rounds.flatten).conduit b').Finished ∨
      ((t.afterAll n rounds.flatten).conduit b').weight + rounds.length ≤
        (t.conduit b).weight := by
  induction rounds generalizing t b with
  | nil =>
    obtain ⟨hget', -⟩ := Hub.bridge?_eq_some.1 hb'
    obtain rfl : b = b' := Option.some.inj (hget.symm.trans hget')
    exact Or.inr (Nat.le_refl _)
  | cons round rounds ih =>
    obtain ⟨hprogress, htake⟩ := hrounds round List.mem_cons_self
    rw [List.flatten_cons, afterAll_append] at hb' ⊢
    obtain ⟨b₁, hget₁⟩ := exists_getElem?_afterAll hget round
    have ha₁ := attended_of_afterAll hget₁ rounds.flatten hb'
    have hb₁ := Hub.bridge?_eq_some.2 ⟨hget₁, ha₁⟩
    have ha := attended_of_afterAll hget round hb₁
    have kept : ((t.afterAll n round).conduit b₁).Sound before window slots ∧
        ((t.afterAll n round).conduit b₁).isOpen = false :=
      afterAll_induction (P := fun k => k.Sound before window slots ∧ k.isOpen = false)
        (fun h hs => ⟨h.1.step hs, hs.isOpen_eq_false h.2⟩) hget (fun _ => ⟨hsound, hopen⟩) round hb₁
    have hrest := ih hget₁ kept.1 kept.2 (fun r hr => hrounds r (List.mem_cons_of_mem _ hr)) hb'
    rcases lighter_afterAll hget hsound hopen round hb₁ with hless | ⟨heq, hwaits, hempty⟩
    · refine hrest.imp_right fun hle => ?_
      rw [List.length_cons]
      omega
    · -- the bridge has to wait and nothing is in its queue: it has come to its end
      left
      have hfinished : ((t.afterAll n round).conduit b₁).Finished := by
        rw [heq]
        exact hsound.finished_of_step_eq_none hopen hslots ha (hwaits hprogress) (hempty htake)
      exact (afterAll_induction (P := fun k => k.Sound before window slots ∧ k.Finished)
        (fun h hs => ⟨h.1.step hs, h.1.eq_of_finished h.2 hs ▸ h.2⟩) hget₁
        (fun _ => ⟨kept.1, hfinished⟩) rounds.flatten hb').2

end Trail

/-! ## What is conserved -/

/-- What is conserved of what was published since a bridge was built, and what comes of it. -/
structure Trail.Conserves (window slots n : Nat) (t : Trail α) (b : Bridge α) : Prop where
  /-- the queue has no more items than it can hold -/
  queued : b.queue.length ≤ slots
  /-- what the bridge has read was delivered, is in the queue or is held, except for lags -/
  passed : ∃ read rest, t.published = read ++ rest ∧
    Thinned read t.lags (t.delivered ++ b.queue ++ b.held.toList) ∧
    read.length = t.delivered.length + b.queue.length + b.held.toList.length + t.lags.sum
  /-- nothing is refused while the hub is open -/
  heard : t.hub.isOpen = true → ∀ a, (t.hub.publish a).1 = .ok ()
  /-- once the hub is closed, a receiver that goes on taking gets the last items, then the end -/
  drained : t.hub.isOpen = false → ∀ rounds : List (List (Traffic α)),
    (∀ round ∈ rounds, Drains n round) → 3 * t.published.length + slots + 3 < rounds.length →
    ∀ b', (t.afterAll n rounds.flatten).hub.bridge? n = some b' →
      ((t.afterAll n rounds.flatten).hub.take n).1 = some .closed ∧
      Channel.lastOf window t.published <:+ (t.afterAll n rounds.flatten).delivered

variable {t : Trail α} {n : Nat} {b : Bridge α} {before : List α} {window slots : Nat}

/-- A bridge that has not come to its end is heard. -/
theorem Hub.publish_of_bridge {h : Hub α} (hget : h.bridges[n]? = some b) (he : b.ended = false)
    (a : α) : (h.publish a).1 = .ok () := by
  have hheard : h.isHeard = true := by
    rw [Hub.isHeard, Bool.or_eq_true]
    exact Or.inr (List.any_eq_true.2 ⟨b, List.mem_of_getElem? hget, by rw [he]; rfl⟩)
  rw [Hub.publish, if_pos hheard]

/-- The invariant says what is conserved. -/
theorem Trail.Conserves.of_sound (hb : t.hub.bridge? n = some b)
    (hsound : (t.conduit b).Sound before window slots) (hslots : 0 < slots) :
    t.Conserves window slots n b := by
  obtain ⟨hget, ha⟩ := Hub.bridge?_eq_some.1 hb
  constructor
  case queued => exact hsound.queued
  case passed =>
    refine ⟨_, _, (List.take_append_drop _ _).symm, hsound.thinned, ?_⟩
    have hlength := hsound.thinned.length_eq
    rw [Conduit.passed, List.length_append, List.length_append] at hlength
    exact hlength
  case heard =>
    intro hopen
    refine Hub.publish_of_bridge hget ?_
    cases he : b.ended with
    | false => rfl
    | true => exact absurd ((hsound.ended he).1.symm.trans hopen) Bool.false_ne_true
  case drained =>
    intro hopen rounds hrounds hlong b' hb'
    have kept := afterAll_induction (b := b)
      (P := fun k => k.Sound before window slots ∧ k.isOpen = false ∧ k.published = t.published)
      (fun h hs => ⟨h.1.step hs, hs.isOpen_eq_false h.2.1, (hs.published_eq h.2.1).trans h.2.2⟩)
      hget (fun _ => ⟨hsound, hopen, rfl⟩) rounds.flatten hb'
    obtain ⟨hsound', -, hpublished⟩ := kept
    have hfinished : ((t.afterAll n rounds.flatten).conduit b').Finished := by
      rcases finished_afterAll hget hsound hopen hslots rounds hrounds hb' with hf | hle
      · exact hf
      · have hweight := hsound.weight_le
        have hsame : (t.conduit b).published = t.published := rfl
        rw [hsame] at hweight
        omega
    have hdelivered := hsound'.delivered_of_finished hfinished
    rw [hpublished] at hdelivered
    refine ⟨?_, hdelivered⟩
    have hqueue : b'.queue = [] := hfinished.2
    have hended : b'.ended = true := hfinished.1
    simp only [Hub.take, hb', Bridge.take, hqueue, hended, if_true]

/-- A bridge that was just built. -/
theorem Hub.Coherent.sound_bridge {h : Hub α} {room : Nat} {items : List α}
    (hc : h.Coherent room items) (slots : Nat) :
    (Trail.conduit { hub := (h.bridge slots).2 } (.on h.channel slots)).Sound items room
      (max 1 slots) := by
  have hsent : h.channel.sent = items.length := hc.holds.sent
  constructor
  case holds => exact (List.append_nil items).symm ▸ hc.holds
  case room => exact hc.room
  case closed => exact hc.closed
  case capacity => rfl
  case queued => exact Nat.zero_le _
  case since => exact Nat.le_of_eq hsent.symm
  case upTo => exact Nat.le_of_eq hsent
  case thinned =>
    rw [Conduit.read, Trail.conduit, List.take_nil]
    exact .nil
  case latest =>
    rw [Conduit.read, Trail.conduit, List.take_nil, List.drop_nil]
    exact List.nil_suffix
  case ended =>
    intro h
    cases h

/-- **Conservation.** A hub of any capacity retains as many items as the capacity, which is at least
one, rounded up to a power of two. After whatever happened to it, a bridge is built, and then anything
happens, in any order: items are published, the bridge and others go on, something is taken from
their queues, the hub is closed. Of what was published since, the bridge has read a beginning; this
was delivered, is in the queue, or is held, in order, except for blocks that are as long as the lags
that were reported. Nothing is lost while the bridge is never further behind than what is retained.
Once the hub is closed and the receiver goes on taking, it gets a sequence that ends with the last
items that were published, as many as are retained, and then is told that this was all. -/
theorem conserves_afterAll (capacity slots : Nat) (earlier traffic : List (Traffic α)) :
    let hub : Hub α := (Hub.ofCapacity capacity).afterAll earlier
    let room := (Channel.ofCapacity capacity : Channel α).room
    let n := (hub.bridge slots).1
    let start : Trail α := { hub := (hub.bridge slots).2 }
    let t := start.afterAll n traffic
    ∀ b, t.hub.bridge? n = some b → t.Conserves room (max 1 slots) n b ∧
      ((∀ k, (start.afterAll n (traffic.take k)).hub.behind n ≤ room) →
        t.delivered ++ b.queue ++ b.held.toList <+: t.published) := by
  intro hub room n start t b hb
  obtain ⟨items, hcoherent⟩ := Hub.exists_coherent_afterAll (α := α) capacity earlier
  have hget : start.hub.bridges[n]? = some (.on hub.channel slots) := by
    simp [start, n, Hub.bridge]
  have hstart := hcoherent.sound_bridge slots
  have hsound : (t.conduit b).Sound items room (max 1 slots) :=
    Trail.afterAll_induction (P := fun k => k.Sound items room (max 1 slots))
      (fun h hs => h.step hs) hget (fun _ => hstart) traffic hb
  refine ⟨.of_sound hb hsound (Nat.le_max_left 1 slots), fun hnear => ?_⟩
  have hlags : t.lags = [] := Trail.lags_afterAll hget (fun _ => hstart) traffic hb hnear
  have hthinned : Thinned _ t.lags (t.delivered ++ b.queue ++ b.held.toList) := hsound.thinned
  rw [hlags] at hthinned
  rw [hthinned.eq_of_no_lags]
  exact List.take_prefix _ _

deriving instance DecidableEq for Bridge

/-- A hub of capacity three retains four items. Its bridge puts the first item into its queue, holds
the second one, and loses the third and the fourth while nobody takes from the queue; then the hub is
closed and the queue is drained. -/
theorem conserves_lagging :
    let go : Traffic Nat := .watch (.progress 0)
    let take : Traffic Nat := .watch (.take 0)
    let earlier : List (Traffic Nat) := [.watch .subscribe, .publish 0]
    let traffic := [.publish 1, .publish 2, go, go, go] ++ [3, 4, 5, 6, 7, 8].map Traffic.publish ++
      [take, go, go, .close]
    let hub : Hub Nat := (Hub.ofCapacity 3).afterAll earlier
    let room := (Channel.ofCapacity 3 : Channel Nat).room
    let t := ({ hub := (hub.bridge 1).2 } : Trail Nat).afterAll 0 traffic
    let b : Bridge Nat := { next := 5, capacity := 1, queue := [2] }
    let drained := t.afterAll 0 (List.replicate 30 [go, take]).flatten
    room = 4 ∧ t.hub.bridge? 0 = some b ∧ t.delivered = [1] ∧ t.lags = [2] ∧
      t.Conserves room 1 0 b ∧ drained.delivered = [1, 2, 5, 6, 7, 8] ∧
      (drained.hub.take 0).1 = some .closed := by
  intro go take earlier traffic hub room t b drained
  have hb : t.hub.bridge? 0 = some b := by decide +kernel
  exact ⟨by decide +kernel, hb, by decide +kernel, by decide +kernel,
    (conserves_afterAll 3 1 earlier traffic b hb).1, by decide +kernel, by decide +kernel⟩

end FormRehearsal
