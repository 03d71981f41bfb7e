/-
# Performing steps

A step acts on the surface until it is finished or has to wait. It waits in three ways: it looks for
an element again after the poll interval, it pauses between keys, or it lets its last effect settle.
What is left to do then is a `Hold`, which is resumed when the wait is over. A pause of no length is
no wait. Without a poll interval, lookups follow one another at once until one is refused; where none
will be, they are a millisecond apart.

* `gives_resume` : a hold that is resumed and waits again does so until later and has less left.
-/
import FormRehearsal.Action.Step
import FormRehearsal.Run.Act

namespace FormRehearsal

/-- The search for an element, which began at an instant and has a budget of milliseconds. -/
structure Lookup where
  selector : String
  since : Nat
  budget : Nat
  deriving DecidableEq, Repr

/-- What is done with an element once it is found. -/
inductive Deed where
  | nothing
  | click
  | focus
  | type (text : String) (clear : Bool)
  | paste (text : String)
  | setValue (value : String)
  | highlight (duration : Nat)
  | press (keys : List String) (delay : Nat)
  deriving DecidableEq, Repr

/-- What a waiting step has left to do. -/
inductive Hold where
  | looking (lookup : Lookup) (deed : Deed)
  | pressing (target : ElementId) (keys : List String) (delay : Nat)
  | settling
  deriving DecidableEq, Repr

/-- How far a step has come. -/
inductive Progress where
  | finished
  | waiting (wake : Nat) (hold : Hold)
  deriving DecidableEq, Repr

/-- The time between two lookups that do not follow one another at once. -/
def Policy.pollStep (p : Policy) : Nat := max 1 p.pollInterval

theorem Policy.pollStep_pos (p : Policy) : 0 < p.pollStep := Nat.le_max_left 1 _

variable {σ : Type} [Surface σ]

/-- Waits before what is left to do. -/
def Moment.suspend (m : Moment) (ms : Nat) (hold : Hold) : Act σ Progress :=
  if m.interrupts then Act.interrupted else pure (.waiting (m.wakeAfter ms) hold)

/-- Waits at the end of a step. -/
def Moment.settle (m : Moment) (ms : Nat) : Act σ Progress :=
  if ms = 0 ∧ !m.interrupts then pure .finished else m.suspend ms .settling

/-- Presses keys one after another, each followed by the delay. -/
def press (m : Moment) (target : ElementId) (delay : Nat) : List String → Act σ Progress
  | [] => pure .finished
  | key :: keys => do
    Act.call (Surface.key target key .down)
    Act.call (Surface.key target key .up)
    if delay = 0 then press m target delay keys
    else m.suspend delay (.pressing target keys delay)

/-- Does what is to be done with the element that was found. -/
def Deed.perform (m : Moment) (target : ElementId) : Deed → Act σ Progress
  | nothing => pure .finished
  | click => do
    Act.call (Surface.click target)
    pure .finished
  | focus => do
    Act.call (Surface.focus target)
    pure .finished
  | type text clear => do
    Act.call (Surface.focus target)
    Act.when clear (Act.call (Surface.write target ""))
    let current ← Act.call (Surface.read target)
    Act.call (Surface.write target (current ++ text))
    pure .finished
  | paste text => do
    Act.call (Surface.focus target)
    Act.call (Surface.write target text)
    pure .finished
  | setValue value => do
    Act.call (Surface.write target value)
    pure .finished
  | highlight duration => do
    Act.call (Surface.highlight target duration)
    m.settle duration
  | press keys delay => do
    Act.call (Surface.focus target)
    FormRehearsal.press m target delay keys

/-- Looks for an element, at once as often again as the number says, and then after a wait. -/
def Lookup.retry (m : Moment) (l : Lookup) (deed : Deed) : Nat → Act σ Progress
  | 0 => do
    match ← Act.call (Surface.query m.now l.selector) with
    | some target => deed.perform m target
    | none => m.suspend m.policy.pollStep (.looking l deed)
  | again + 1 => do
    match ← Act.call (Surface.query m.now l.selector) with
    | some target => deed.perform m target
    | none => if m.interrupts then Act.interrupted else l.retry m deed again

/-- How often a lookup is repeated at once: only without a poll interval, until one is refused. -/
def Policy.repeats (p : Policy) (s : σ) : Nat :=
  if p.pollInterval = 0 then (Surface.lookupsLeft s).getD 0 else 0

/-- Looks for an element. The budget is checked before each lookup, so there is none at its end. -/
def Lookup.ask (m : Moment) (l : Lookup) (deed : Deed) : Act σ Progress :=
  if m.now - l.since < l.budget then do
    l.retry m deed (← Act.look m.policy.repeats)
  else Act.fail (.lookupTimeout l.selector l.budget)

/-- Goes on with what a step has left to do. -/
def Hold.resume (m : Moment) : Hold → Act σ Progress
  | looking l deed => l.ask m deed
  | pressing target keys delay => press m target delay keys
  | settling => pure .finished

/-- Begins to look for an element with a budget; a blank selector finds none. -/
def find (m : Moment) (kind : ActionKind) (selector : String) (budget : Nat) (deed : Deed) :
    Act σ Progress :=
  if Text.isBlankText selector then Act.fail (.missing kind.name "selector")
  else Lookup.ask m ⟨selector, m.now, budget⟩ deed

/-- Begins a step. Keys without a selector go to the element that has the focus. -/
def Step.start (m : Moment) (step : Step) : Act σ Progress :=
  let budget := m.policy.lookupBudget
  match step with
  | wait ms => m.settle ms
  | waitFor selector limit => find m step.kind selector limit .nothing
  | click selector => find m step.kind selector budget .click
  | type selector text clear => find m step.kind selector budget (.type text clear)
  | paste selector text => find m step.kind selector budget (.paste text)
  | focus selector => find m step.kind selector budget .focus
  | setValue selector value => find m step.kind selector budget (.setValue value)
  | highlight selector duration => find m step.kind selector budget (.highlight duration)
  | keySequence selector keys delay =>
    if keys.isEmpty then Act.fail (.missing step.kind.name "keys")
    else
      match selector.filter (!Text.isBlankText ·) with
      | some selector => Lookup.ask m ⟨selector, m.now, budget⟩ (.press keys delay)
      | none => do
        match ← Act.call Surface.active with
        | some target => (Deed.press keys delay).perform m target
        | none => Act.fail .noActiveElement
  | scroll x y behavior => do
    Act.call (Surface.scroll x y behavior)
    m.settle m.policy.scrollSettle

/-! ## Waits go on finitely often -/

/-- How often what is to be done with an element can wait. -/
def Deed.rank : Deed → Nat
  | press keys _ => keys.length
  | _ => 0

/-- How often a hold that is resumed at an instant can still wait. -/
def Hold.rank (wake : Nat) : Hold → Nat
  | looking l deed => deed.rank + (l.since + l.budget - wake) + 1
  | pressing _ keys _ => keys.length
  | settling => 0

/-- A step that waits does so until after the instant and with less than the bound left. -/
def Progress.Within (now bound : Nat) : Progress → Prop
  | finished => True
  | waiting wake hold => now < wake ∧ hold.rank wake < bound

theorem Progress.Within.mono {now a b : Nat} {p : Progress} (h : p.Within now a) (hab : a ≤ b) :
    p.Within now b := by
  cases p with
  | finished => trivial
  | waiting wake hold => exact ⟨h.1, Nat.lt_of_lt_of_le h.2 hab⟩

omit [Surface σ] in
/-- A wait of some length is within any bound that leaves its hold room. -/
theorem gives_suspend {m : Moment} {ms bound : Nat} {hold : Hold} (hms : 0 < ms)
    (h : ∀ wake, m.now < wake → hold.rank wake < bound) :
    (m.suspend ms hold : Act σ Progress).Gives (Progress.Within m.now bound) := by
  unfold Moment.suspend
  split
  · exact Act.gives_fail
  · exact Act.gives_pure ⟨m.lt_wakeAfter hms, h _ (m.lt_wakeAfter hms)⟩

omit [Surface σ] in
theorem gives_settle {m : Moment} {ms : Nat} :
    (m.settle ms : Act σ Progress).Gives (Progress.Within m.now 1) := by
  unfold Moment.settle
  split
  · exact Act.gives_pure trivial
  · rename_i h
    by_cases hms : ms = 0
    · have hi : m.interrupts = true := by simpa [hms] using h
      simp only [Moment.suspend, hi, if_true]
      exact Act.gives_fail
    · exact gives_suspend (Nat.pos_of_ne_zero hms) fun _ _ => by simp [Hold.rank]

theorem gives_press {m : Moment} {target : ElementId} {delay : Nat} (keys : List String) :
    (press m target delay keys : Act σ Progress).Gives (Progress.Within m.now keys.length) := by
  induction keys with
  | nil => exact Act.gives_pure trivial
  | cons key keys ih =>
    refine Act.gives_bind fun _ => Act.gives_bind fun _ => ?_
    split
    · exact ih.mono fun _ h => h.mono (by simp)
    · exact gives_suspend (by omega) fun _ _ => by simp [Hold.rank]

theorem gives_perform {m : Moment} {target : ElementId} (deed : Deed) :
    (deed.perform m target : Act σ Progress).Gives (Progress.Within m.now (deed.rank + 1)) := by
  cases deed with
  | nothing => exact Act.gives_pure trivial
  | click => exact Act.gives_bind fun _ => Act.gives_pure trivial
  | focus => exact Act.gives_bind fun _ => Act.gives_pure trivial
  | type text clear =>
    refine Act.gives_bind fun _ => Act.gives_bind fun _ => ?_
    exact Act.gives_bind fun _ => Act.gives_bind fun _ => Act.gives_pure trivial
  | paste text => exact Act.gives_bind fun _ => Act.gives_bind fun _ => Act.gives_pure trivial
  | setValue value => exact Act.gives_bind fun _ => Act.gives_pure trivial
  | highlight duration => exact Act.gives_bind fun _ => gives_settle
  | press keys delay =>
    exact Act.gives_bind fun _ => (gives_press keys).mono fun _ h => h.mono (by simp [Deed.rank])

theorem gives_retry {m : Moment} {l : Lookup} {deed : Deed} {wake : Nat} (h : wake ≤ m.now)
    (hb : m.now - l.since < l.budget) (again : Nat) :
    (l.retry m deed again : Act σ Progress).Gives
      (Progress.Within m.now ((Hold.looking l deed).rank wake)) := by
  have found (target : ElementId) : (deed.perform m target : Act σ Progress).Gives
      (Progress.Within m.now ((Hold.looking l deed).rank wake)) :=
    (gives_perform deed).mono fun _ h => h.mono (by simp only [Hold.rank]; omega)
  induction again with
  | zero =>
    refine Act.gives_bind fun answer => ?_
    split
    · exact found _
    · exact gives_suspend m.policy.pollStep_pos fun _ _ => by simp only [Hold.rank]; omega
  | succ again ih =>
    refine Act.gives_bind fun answer => ?_
    split
    · exact found _
    · split
      · exact Act.gives_fail
      · exact ih

theorem gives_ask {m : Moment} {l : Lookup} {deed : Deed} {wake : Nat} (h : wake ≤ m.now) :
    (l.ask m deed : Act σ Progress).Gives
      (Progress.Within m.now ((Hold.looking l deed).rank wake)) := by
  unfold Lookup.ask
  split
  · rename_i hb
    exact Act.gives_bind fun again => gives_retry h hb again
  · exact Act.gives_fail

/-- A hold that is resumed when its wait is over has less left to do if it waits again. -/
theorem gives_resume {m : Moment} {hold : Hold} {wake : Nat} (h : wake ≤ m.now) :
    (hold.resume m : Act σ Progress).Gives (Progress.Within m.now (hold.rank wake)) := by
  cases hold with
  | looking l deed => exact gives_ask h
  | pressing target keys delay => exact gives_press keys
  | settling => exact Act.gives_pure trivial

end FormRehearsal
