/-
# Steps by hand

A step can be carried out in a session without a run. It waits like a step of a run, and runs go on
meanwhile; it is interrupted when its token is cancelled, if the policy says so.
-/
import FormRehearsal.Session.Basic

namespace FormRehearsal.Session

/-- Gives steps by hand a fresh token. -/
def renew (s : Session) : Session := { s with token := ⟨s.token.serial + 1⟩ }

/-- Whether the token of steps by hand is cancelled. -/
def isCancelled (s : Session) : Bool :=
  s.cancellations.any fun (token, instant) => token = s.token && decide (instant ≤ s.now)

/-- The moment at which steps by hand act. -/
def moment (s : Session) : Moment := ⟨s.now, s.runner.policy, s.isCancelled⟩

/-- Cancels the token of steps by hand after some time. -/
def cancelAfter (s : Session) (ms : Nat) : Session :=
  { s with cancellations := (s.token, s.moment.wakeAfter ms) :: s.cancellations }

/-- The instant at which a wait by hand is interrupted: before the wake-up, or at it if the runtime
goes by the stop request then. -/
def interruptedAt? (s : Session) (wake : Nat) : Option Nat :=
  let policy := s.runner.policy
  if policy.interruptible then
    (s.cancellations.filterMap fun (token, instant) =>
      if token = s.token ∧ s.now < instant ∧
          (instant < wake ∨ instant = wake ∧ policy.stopFirst wake) then some instant
      else none).min?
  else none

/-- Waits until an instant and goes on with what is left to do, until nothing is left. -/
def wait (s : Session) (wake : Nat) (hold : Hold) : Except ActionError Unit × Session :=
  match s.interruptedAt? wake with
  | some instant => (.error (.interrupted stoppedByUser), s.elapse instant)
  | none =>
    let woken := s.elapse wake
    match _h : (hold.resume woken.moment).run woken.runner.surface with
    | (.error e, surface) => (.error e, woken.withSurface surface)
    | (.ok .finished, surface) => (.ok (), woken.withSurface surface)
    | (.ok (.waiting later rest), surface) => (woken.withSurface surface).wait later rest
termination_by hold.rank wake
decreasing_by
  have hw : wake ≤ woken.moment.now := by
    show wake ≤ (s.elapse wake).now
    rw [now_elapse]
    exact Nat.le_max_right _ _
  exact (gives_resume hw _ _ (congrArg Prod.fst _h)).2

/-- Carries out something that may wait. -/
def perform (s : Session) (act : Act (Faulty Page) Progress) : Except ActionError Unit × Session :=
  match act.run s.runner.surface with
  | (.error e, surface) => (.error e, s.withSurface surface)
  | (.ok .finished, surface) => (.ok (), s.withSurface surface)
  | (.ok (.waiting wake hold), surface) => (s.withSurface surface).wait wake hold

/-- Carries out a step. -/
def step (s : Session) (step : Step) : Except ActionError Unit × Session :=
  s.perform (step.start s.moment)

/-- Sleeps, whatever becomes of the token. -/
def sleep (s : Session) (ms : Nat) : Session := s.elapse (s.moment.wakeAfter ms)

/-- Pauses. -/
def pause (s : Session) (ms : Nat) : Except ActionError Unit × Session :=
  s.perform (s.moment.settle ms)

/-- Looks for an element until it is found or the budget is spent. -/
def search (s : Session) (selector : String) (budget : Nat) :
    Except ActionError (Option ElementId) × Session :=
  match s.perform (Lookup.ask s.moment ⟨selector, s.now, budget⟩ .nothing) with
  | (.ok (), s) => (.ok ((s.page.lookup s.now selector).map (·.id)), s)
  | (.error e, s) => (.error e, s)

end FormRehearsal.Session
