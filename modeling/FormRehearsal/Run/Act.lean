/-
# Acting on a surface

An act uses a surface and gives a value or the error that ended it; what it did to the surface
before the error stays done. Acts are run at a moment: an instant of the clock, the policy of the
run, and whether the run has been asked to stop.

* `run_pure`, `run_bind`, `run_fail`, `run_call` : what acts do when they are run;
* `gives_bind` : what an act gives after another one.
-/
import FormRehearsal.Page.Surface
import FormRehearsal.Run.Policy

namespace FormRehearsal

/-- When and under which conditions a run acts. -/
structure Moment where
  now : Nat
  policy : RunPolicy
  /-- whether the run has been asked to stop -/
  stopping : Bool

namespace Moment

/-- Whether waits end at once. -/
def interrupts (m : Moment) : Bool := m.policy.interruptible && m.stopping

/-- The instant at which a sleep is over that begins now. -/
def wakeAfter (m : Moment) (ms : Nat) : Nat := m.now + m.policy.sleep ms

theorem lt_wakeAfter (m : Moment) {ms : Nat} (h : 0 < ms) : m.now < m.wakeAfter ms :=
  Nat.lt_add_of_pos_right (m.policy.sleep_pos h)

/-- Whether what waits until an instant goes on: the wait is over, and it was not ended by a stop
request at this very instant. -/
def resumes (m : Moment) (wake : Nat) : Bool :=
  decide (wake ≤ m.now) && !(m.interrupts && m.policy.stopFirst m.now)

theorem le_of_resumes {m : Moment} {wake : Nat} (h : m.resumes wake = true) : wake ≤ m.now := by
  rw [resumes, Bool.and_eq_true] at h
  exact of_decide_eq_true h.1

/-- Where no stop request ends waits, whatever waits goes on when its wait is over. -/
theorem resumes_of_le {m : Moment} {wake : Nat} (hi : m.interrupts = false) (hw : wake ≤ m.now) :
    m.resumes wake = true := by
  rw [resumes, hi, Bool.false_and, Bool.not_false, Bool.and_true]
  exact decide_eq_true hw

/-- What is due and does not go on was ended by a stop request. -/
theorem interrupts_of_not_resumes {m : Moment} {wake : Nat}
    (h : (decide (wake ≤ m.now) || m.interrupts) = true) (hw : ¬ m.resumes wake = true) :
    m.interrupts = true := by
  cases hi : m.interrupts with
  | true => rfl
  | false =>
    rw [hi, Bool.or_false] at h
    exact absurd (resumes_of_le hi (of_decide_eq_true h)) hw

end Moment

/-- Something that is done to a surface and may fail. -/
def Act (σ α : Type) := σ → Except ActionError α × σ

namespace Act

variable {σ α β : Type}

/-- What an act gives and leaves. -/
def run (act : Act σ α) (s : σ) : Except ActionError α × σ := act s

/-- Gives a value and leaves the surface alone. -/
protected def pure (a : α) : Act σ α := fun s => (.ok a, s)

/-- Does one act after another, unless the first one fails. -/
protected def bind (act : Act σ α) (next : α → Act σ β) : Act σ β := fun s =>
  match act s with
  | (.ok a, s) => next a s
  | (.error e, s) => (.error e, s)

instance : Monad (Act σ) where
  pure := Act.pure
  bind := Act.bind

/-- Fails and leaves the surface alone. -/
def fail (e : ActionError) : Act σ α := fun s => (.error e, s)

/-- Uses a capability of the surface. -/
def call (capability : Capability σ α) : Act σ α := fun s =>
  match capability s with
  | (.ok a, s) => (.ok a, s)
  | (.error e, s) => (.error (.surface e), s)

/-- Looks at the surface. -/
def look (view : σ → α) : Act σ α := fun s => (.ok (view s), s)

/-- Does an act only under a condition. -/
def when (condition : Bool) (act : Act σ Unit) : Act σ Unit := if condition then act else pure ()

/-- The failure of a wait that a stop request ends. -/
def interrupted : Act σ α := fail (.interrupted stoppedByUser)

/-! ## Running acts -/

@[simp] theorem run_pure (a : α) (s : σ) : (pure a : Act σ α).run s = (.ok a, s) := rfl

theorem run_bind (act : Act σ α) (next : α → Act σ β) (s : σ) :
    (act >>= next).run s =
      match act.run s with
      | (.ok a, s) => (next a).run s
      | (.error e, s) => (.error e, s) := rfl

@[simp] theorem run_fail (e : ActionError) (s : σ) :
    (fail e : Act σ α).run s = (.error e, s) := rfl

theorem run_call (capability : Capability σ α) (s : σ) :
    (call capability).run s =
      match capability s with
      | (.ok a, s) => (.ok a, s)
      | (.error e, s) => (.error (.surface e), s) := rfl

@[simp] theorem run_look (view : σ → α) (s : σ) :
    (look view : Act σ α).run s = (.ok (view s), s) := rfl

@[simp] theorem run_interrupted (s : σ) :
    (interrupted : Act σ α).run s = (.error (.interrupted stoppedByUser), s) := rfl

/-! ## What acts give -/

/-- Whatever an act gives has a property. -/
def Gives (act : Act σ α) (p : α → Prop) : Prop := ∀ s a, (act.run s).1 = .ok a → p a

theorem Gives.mono {act : Act σ α} {p q : α → Prop} (h : act.Gives p) (hpq : ∀ a, p a → q a) :
    act.Gives q := fun s a ha => hpq a (h s a ha)

theorem gives_pure {a : α} {p : α → Prop} (h : p a) : (pure a : Act σ α).Gives p := by
  rintro s b hb
  cases hb
  exact h

theorem gives_fail {e : ActionError} {p : α → Prop} : (fail e : Act σ α).Gives p := by
  rintro s b hb
  cases hb

theorem gives_bind {act : Act σ α} {next : α → Act σ β} {p : β → Prop}
    (h : ∀ a, (next a).Gives p) : (act >>= next).Gives p := by
  intro s b hb
  rw [run_bind] at hb
  split at hb
  · exact h _ _ _ hb
  · cases hb

end Act

end FormRehearsal
