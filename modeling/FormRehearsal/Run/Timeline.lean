/-
# Timelines

A run that nothing else happens to goes on whenever its wait is over, until it ends; at most one
stop request reaches it on the way. Its timeline is what it says and when, its report and the surface
at the end.

* `isDue_wakeMoment` : a run is due when it goes on.
-/
import FormRehearsal.Run.Basic

namespace FormRehearsal

/-- What a run says, how it ends, and what it leaves. -/
structure Timeline (σ : Type) where
  events : List TimedEvent
  report : Report
  surface : σ

namespace Run

variable {σ : Type} [Surface σ]

/-- The instant at which a run goes on that has been or will be asked to stop: when its wait is over,
or when the request ends its wait. -/
def nextInstant (policy : RunPolicy) (stopAt : Option Nat) (now : Nat) (run : Run) : Nat :=
  let wake := max now (run.wakesAt now)
  match stopAt with
  | none => wake
  | some t => if policy.interruptible then min wake (max now t) else wake

/-- The moment at which a run goes on. -/
def wakeMoment (policy : RunPolicy) (stopAt : Option Nat) (now : Nat) (run : Run) : Moment :=
  let instant := run.nextInstant policy stopAt now
  ⟨instant, policy, stopAt.any (· ≤ instant)⟩

omit [Surface σ] in
/-- A run is due when it goes on. -/
theorem isDue_wakeMoment (policy : RunPolicy) (stopAt : Option Nat) (now : Nat) (run : Run) :
    run.isDue (run.wakeMoment policy stopAt now) = true := by
  obtain ⟨token, total, done, startedAt, stage⟩ := run
  cases stage with
  | claimed program => rfl
  | waiting step since wake hold rest =>
    have hor : ∀ {instant : Nat} {b : Bool}, wake ≤ instant ∨ b = true →
        (decide (wake ≤ instant) || b) = true := by
      rintro instant b (h | h)
      · rw [decide_eq_true h, Bool.true_or]
      · rw [h, Bool.or_true]
    refine hor ?_
    cases stopAt with
    | none => exact Or.inl (Nat.le_max_right now wake)
    | some t =>
      by_cases hp : policy.interruptible = true
      · rcases Nat.le_total wake (max now t) with hw | hw
        · left
          show wake ≤ if policy.interruptible then min (max now wake) (max now t) else max now wake
          rw [if_pos hp]
          omega
        · right
          show (policy.interruptible && decide (t ≤ if policy.interruptible then
            min (max now wake) (max now t) else max now wake)) = true
          rw [if_pos hp, hp, Bool.true_and]
          exact decide_eq_true (by omega)
      · left
        show wake ≤ if policy.interruptible then min (max now wake) (max now t) else max now wake
        rw [if_neg hp]
        exact Nat.le_max_right now wake

/-- The timeline of a run from an instant on, with a stop request at another one. -/
def timeline (policy : RunPolicy) (stopAt : Option Nat) (now : Nat) (run : Run) (s : σ) :
    Timeline σ :=
  let m := run.wakeMoment policy stopAt now
  let g := run.advance m s
  let events := StatusEvent.toldAt m.now g.events
  match _h : g.state with
  | .ended report => ⟨events, report, g.surface⟩
  | .running next =>
    let t := timeline policy stopAt m.now next g.surface
    { t with events := events ++ t.events }
termination_by run.rank
decreasing_by exact advance_nearer (isDue_wakeMoment policy stopAt now run) _h

/-- The instant at which a run ends. -/
def endsAt (policy : RunPolicy) (stopAt : Option Nat) (now : Nat) (run : Run) (s : σ) : Nat :=
  (run.timeline policy stopAt now s).report.finishedAt

end Run

end FormRehearsal
