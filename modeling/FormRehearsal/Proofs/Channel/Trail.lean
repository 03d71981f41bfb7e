/-
# The trail of a bridge

A hub is watched from the moment at which one of its bridges was built: a `Trail` is the hub with the
books on that bridge, and traffic of any kind writes them. To the bridge, all that happens is steps
of its conduit, as long as somebody takes from its queue.

* `getElem?_bridges_after` : what traffic does to a bridge;
* `Trail.step` : traffic is a step of the conduit;
* `Trail.afterAll_induction` : what every step keeps holds after any traffic.
-/
import FormRehearsal.Proofs.Channel.Conduit

namespace FormRehearsal

variable {α : Type}

/-! ## What traffic does to a bridge -/

/-- The bridge of a number after something happened to its hub. -/
def Bridge.after (n : Nat) (c : Channel α) (b : Bridge α) : Traffic α → Bridge α
  | .watch (.take m) => if m = n ∧ b.attended = true then b.take.2 else b
  | .watch (.leave m) => if m = n ∧ b.attended = true then b.leave else b
  | .watch (.progress m) => if m = n then (b.step c).getD b else b
  | _ => b

/-- A bridge does not look who takes from its queue, except to see whether anybody does. -/
theorem Bridge.attended_step {c : Channel α} {b b' : Bridge α} (h : b.step c = some b') :
    b'.attended = b.attended := by
  unfold step at h
  split at h
  · cases h
  · split at h
    · split at h
      · cases h
        rfl
      · split at h <;> cases h
        rfl
    · split at h <;> cases h <;> rfl

theorem Bridge.attended_take (b : Bridge α) : b.take.2.attended = b.attended := by
  unfold take
  split <;> rfl

/-- Nobody comes back to a bridge that was left. -/
theorem Bridge.attended_of_after {n : Nat} {c : Channel α} {b : Bridge α} {x : Traffic α}
    (h : (b.after n c x).attended = true) : b.attended = true := by
  cases x with
  | publish a => exact h
  | close => exact h
  | watch watching =>
    cases watching with
    | take m =>
      rw [after] at h
      split at h
      · rwa [attended_take] at h
      · exact h
    | leave m =>
      rw [after] at h
      split at h
      · cases h
      · exact h
    | progress m =>
      rw [after] at h
      split at h
      · cases hs : b.step c with
        | none => rwa [hs] at h
        | some b' =>
          rw [hs, Option.getD_some, attended_step hs] at h
          exact h
      · exact h
    | _ => exact h

namespace Hub

theorem bridge?_eq_some {h : Hub α} {n : Nat} {b : Bridge α} :
    h.bridge? n = some b ↔ h.bridges[n]? = some b ∧ b.attended = true := by
  simp [bridge?, Option.filter_eq_some_iff]

theorem bridge?_of_not_attended {h : Hub α} {n : Nat} {b : Bridge α}
    (hb : h.bridges[n]? = some b) (ha : b.attended = false) : h.bridge? n = none := by
  simp [bridge?, hb, ha]

/-- Whatever happens to a hub, a bridge of it keeps its number. -/
theorem getElem?_bridges_after {h : Hub α} {n : Nat} {b : Bridge α} (hb : h.bridges[n]? = some b)
    (x : Traffic α) : (h.after x).bridges[n]? = some (b.after n h.channel x) := by
  have hn : n < h.bridges.length := (List.getElem?_eq_some_iff.1 hb).1
  cases x with
  | publish a =>
    rw [after]
    split
    · rcases h.publish_eq a with ⟨heq, -⟩ | ⟨heq, -⟩ <;> rw [heq] <;> exact hb
    · exact hb
  | close => exact hb
  | watch watching =>
    cases watching with
    | subscribe =>
      rw [after, watch]
      split <;> exact hb
    | bridge capacity =>
      rw [after, watch]
      split
      · exact (List.getElem?_append_left hn).trans hb
      · exact hb
    | receive m =>
      rw [after, watch, receive]
      split <;> exact hb
    | unsubscribe m => exact hb
    | take m =>
      by_cases hm : m = n
      · subst hm
        cases ha : b.attended with
        | true => simp [after, watch, take, bridge?_eq_some.2 ⟨hb, ha⟩, Bridge.after, ha, hn]
        | false => simp [after, watch, take, bridge?_of_not_attended hb ha, Bridge.after, ha, hb]
      · rw [after, watch, take, Bridge.after, if_neg (fun h => hm h.1)]
        split
        · exact hb
        · exact (List.getElem?_set_ne hm).trans hb
    | leave m =>
      by_cases hm : m = n
      · subst hm
        cases ha : b.attended with
        | true => simp [after, watch, leave, bridge?_eq_some.2 ⟨hb, ha⟩, Bridge.after, ha, hn]
        | false => simp [after, watch, leave, bridge?_of_not_attended hb ha, Bridge.after, ha, hb]
      · rw [after, watch, leave, Bridge.after, if_neg (fun h => hm h.1)]
        split
        · exact hb
        · exact (List.getElem?_set_ne hm).trans hb
    | progress m =>
      by_cases hm : m = n
      · subst hm
        cases hs : b.step h.channel with
        | none =>
          rw [after, watch, progress, Bridge.after, if_pos rfl, hb, Option.bind_some, hs]
          exact hb
        | some b' =>
          rw [after, watch, progress, Bridge.after, if_pos rfl, hb, Option.bind_some, hs]
          exact List.getElem?_set_self hn
      · rw [after, watch, progress, Bridge.after, if_neg hm]
        split
        · exact hb
        · exact (List.getElem?_set_ne hm).trans hb

end Hub

/-! ## Trails -/

namespace Traffic

/-- What is published. -/
def published (h : Hub α) : Traffic α → List α
  | .publish a =>
    if h.isOpen then
      match (h.publish a).1 with
      | .ok () => [a]
      | .error _ => []
    else []
  | _ => []

/-- What is taken from the queue of a bridge. -/
def delivered (n : Nat) (h : Hub α) : Traffic α → List α
  | .watch (.take m) => if m = n then ((h.take m).1.bind Received.item?).toList else []
  | _ => []

/-- How many items a bridge is told that it lost. -/
def lags (n : Nat) (h : Hub α) : Traffic α → List Nat
  | .watch (.progress m) =>
    if m = n then ((h.bridges[m]?).bind (·.lag? h.channel)).toList else []
  | _ => []

end Traffic

/-- A hub, and the books on one of its bridges. -/
structure Trail (α : Type) where
  hub : Hub α
  published : List α := []
  delivered : List α := []
  lags : List Nat := []

namespace Trail

/-- The trail of the bridge of a number after something happened. -/
def after (n : Nat) (t : Trail α) (x : Traffic α) : Trail α :=
  { hub := t.hub.after x
    published := t.published ++ x.published t.hub
    delivered := t.delivered ++ x.delivered n t.hub
    lags := t.lags ++ x.lags n t.hub }

/-- The trail after some traffic. -/
def afterAll (n : Nat) (t : Trail α) (traffic : List (Traffic α)) : Trail α :=
  traffic.foldl (after n) t

/-- The conduit of a bridge. -/
def conduit (t : Trail α) (b : Bridge α) : Conduit α :=
  ⟨t.hub.channel, t.hub.isOpen, b, t.published, t.delivered, t.lags⟩

/-- What those who watch do changes nothing of a conduit but its bridge and the books. -/
theorem conduit_watch (t : Trail α) (n : Nat) (b : Bridge α) (watching : Watching) :
    (t.after n (.watch watching)).conduit b =
      ⟨t.hub.channel, t.hub.isOpen, b, t.published,
        t.delivered ++ (Traffic.watch watching).delivered n t.hub,
        t.lags ++ (Traffic.watch watching).lags n t.hub⟩ := by
  obtain ⟨hchannel, hopen⟩ := t.hub.channel_watch watching
  simp only [conduit, after, Hub.after, hchannel, hopen, Traffic.published, List.append_nil]

/-- Whatever happens is a step of the conduit, as long as somebody takes from the queue. -/
theorem step {t : Trail α} {n : Nat} {b : Bridge α} (hb : t.hub.bridge? n = some b)
    (x : Traffic α) (ha : (b.after n t.hub.channel x).attended = true) :
    (t.conduit b).Step ((t.after n x).conduit (b.after n t.hub.channel x)) := by
  obtain ⟨hget, hattended⟩ := Hub.bridge?_eq_some.1 hb
  cases x with
  | publish a =>
    have hconduit : (t.after n (.publish a)).conduit b =
        ⟨(t.hub.after (.publish a)).channel, (t.hub.after (.publish a)).isOpen, b,
          t.published ++ (Traffic.publish a).published t.hub, t.delivered, t.lags⟩ := by
      simp only [conduit, after, Traffic.delivered, Traffic.lags, List.append_nil]
    show (t.conduit b).Step ((t.after n (.publish a)).conduit b)
    rw [hconduit, Hub.after, Traffic.published]
    split
    · rename_i hopen
      rcases t.hub.publish_eq a with ⟨heq, -⟩ | ⟨heq, -⟩
      · rw [heq]
        exact .publish a hopen
      · rw [heq, List.append_nil]
        exact .idle
    · rw [List.append_nil]
      exact .idle
  | close =>
    have hconduit : (t.after n .close).conduit b =
        ⟨{ t.hub.channel with closed := true }, false, b, t.published, t.delivered, t.lags⟩ := by
      simp only [conduit, after, Traffic.published, Traffic.delivered, Traffic.lags,
        List.append_nil]
      rfl
    show (t.conduit b).Step ((t.after n .close).conduit b)
    rw [hconduit]
    exact .close
  | watch watching =>
    have idle : (Traffic.watch watching).delivered n t.hub = [] →
        (Traffic.watch watching).lags n t.hub = [] →
        (t.conduit b).Step ((t.after n (.watch watching)).conduit b) := by
      intro hdelivered hlags
      rw [conduit_watch, hdelivered, hlags, List.append_nil, List.append_nil]
      exact .idle
    cases watching with
    | take m =>
      by_cases hm : m = n
      · subst hm
        have hanswer : (t.hub.take m).1 = some b.take.1 := by simp only [Hub.take, hb]
        rw [Bridge.after, if_pos ⟨rfl, hattended⟩, conduit_watch]
        simp only [Traffic.delivered, Traffic.lags, hanswer, if_true, List.append_nil,
          Option.bind_some]
        exact (t.conduit b).step_take
      · rw [Bridge.after, if_neg (fun h => hm h.1)]
        exact idle (if_neg hm) rfl
    | leave m =>
      by_cases hm : m = n
      · subst hm
        rw [Bridge.after, if_pos ⟨rfl, hattended⟩] at ha
        cases ha
      · rw [Bridge.after, if_neg (fun h => hm h.1)]
        exact idle rfl rfl
    | progress m =>
      by_cases hm : m = n
      · subst hm
        rw [Bridge.after, if_pos rfl, conduit_watch]
        simp only [Traffic.delivered, Traffic.lags, hget, if_true, List.append_nil,
          Option.bind_some]
        exact (t.conduit b).step_progress hattended
      · rw [Bridge.after, if_neg hm]
        exact idle rfl (if_neg hm)
    | _ => exact idle rfl rfl

variable {t : Trail α} {n : Nat} {b b' : Bridge α}

/-! ## Along some traffic -/

theorem afterAll_append (n : Nat) (t : Trail α) (traffic more : List (Traffic α)) :
    t.afterAll n (traffic ++ more) = (t.afterAll n traffic).afterAll n more := List.foldl_append

/-- What every step of a conduit keeps holds after any traffic, as long as somebody takes from the
queue. -/
theorem afterAll_induction {P : Conduit α → Prop} (hstep : ∀ {k k'}, P k → k.Step k' → P k')
    (hget : t.hub.bridges[n]? = some b) (h : b.attended = true → P (t.conduit b))
    (traffic : List (Traffic α)) (hb' : (t.afterAll n traffic).hub.bridge? n = some b') :
    P ((t.afterAll n traffic).conduit b') := by
  induction traffic generalizing t b with
  | nil =>
    obtain ⟨hget', ha⟩ := Hub.bridge?_eq_some.1 hb'
    obtain rfl : b = b' := Option.some.inj (hget.symm.trans hget')
    exact h ha
  | cons x traffic ih =>
    refine ih (Hub.getElem?_bridges_after hget x) (fun ha => ?_) hb'
    have hattended := Bridge.attended_of_after ha
    exact hstep (h hattended) (step (Hub.bridge?_eq_some.2 ⟨hget, hattended⟩) x ha)

/-- Whatever happens to a hub, its bridges keep their numbers. -/
theorem exists_getElem?_afterAll (hget : t.hub.bridges[n]? = some b)
    (traffic : List (Traffic α)) :
    ∃ b', (t.afterAll n traffic).hub.bridges[n]? = some b' := by
  induction traffic generalizing t b with
  | nil => exact ⟨b, hget⟩
  | cons x traffic ih => exact ih (Hub.getElem?_bridges_after hget x)

/-- If somebody takes from the queue, somebody always did. -/
theorem attended_of_afterAll (hget : t.hub.bridges[n]? = some b) (traffic : List (Traffic α))
    (hb' : (t.afterAll n traffic).hub.bridge? n = some b') : b.attended = true :=
  afterAll_induction (P := fun _ => b.attended = true) (fun h _ => h) hget id traffic hb'

end Trail

end FormRehearsal
