/-
# Runs

A run carries out a program step by step. It is claimed first, then begins, and goes on from one
wait to the next until it ends with a report. A stop request is seen before each step; while a step
waits it is seen only under an interruptible policy. Where it is there when the wait is over, the
runtime decides which of the two the run goes by. What a run says and does between two waits is a
`Segment`.

* `advance_of_not_isDue` : a run that is not due stays as it is;
* `advance_nearer` : a run that goes on and waits again is nearer to its end.
-/
import FormRehearsal.Run.Perform
import FormRehearsal.Run.Report

namespace FormRehearsal

/-- What tells the claims on a runner apart; a stop request goes to one of them. -/
structure Token where
  serial : Nat
  deriving DecidableEq, Repr

/-- Where a run has come to. -/
inductive Stage where
  /-- nothing has been done yet -/
  | claimed (program : Program)
  /-- a step that began at an instant waits, and `rest` follows it -/
  | waiting (step : Step) (since wake : Nat) (hold : Hold) (rest : Program)
  deriving Repr

/-- A run that has not ended. -/
structure Run where
  token : Token
  /-- the number of steps of the program -/
  total : Nat
  /-- the steps that were carried out -/
  done : List ActionReport
  startedAt : Nat
  stage : Stage
  deriving Repr

/-- What a run has come to after a segment. -/
inductive RunState where
  | running (run : Run)
  | ended (report : Report)
  deriving Repr

/-- What a run says and does without waiting, and the surface after it. -/
structure Segment (σ : Type) where
  events : List StatusEvent
  state : RunState
  surface : σ

/-- The segment with events before its own. -/
def Segment.after {σ : Type} (events : List StatusEvent) (g : Segment σ) : Segment σ :=
  { g with events := events ++ g.events }

namespace Run

/-- A run of a program that is claimed at an instant. -/
def claim (token : Token) (program : Program) (now : Nat) : Run :=
  ⟨token, program.length, [], now, .claimed program⟩

/-- The line that says which step begins. -/
def stepLine (number total : Nat) (name : String) : StatusEvent :=
  .status ("Step " ++ toString number ++ "/" ++ toString total ++ ": " ++ name)

/-- What is said when a run begins. -/
def opening : List StatusEvent := [.runningBadge, .status "Automation running..."]

/-- What is said when a run ends. -/
def closing (outcome : Outcome) : List StatusEvent := [.status outcome.statusText, .idleBadge]

/-- Ends a run. -/
def conclude {σ : Type} (run : Run) (now : Nat) (outcome : Outcome) (s : σ) : Segment σ :=
  ⟨closing outcome, .ended ⟨outcome, run.total, run.done, run.startedAt, now⟩, s⟩

/-- The run with one more step carried out. -/
def complete (run : Run) (step : Step) (since now : Nat) : Run :=
  { run with done := run.done ++ [.ofStep step since now] }

variable {σ : Type} [Surface σ]

/-- Carries out the steps of a program until one of them waits, fails, or none is left. The kind of
a step is looked at before it is announced, its values after that. -/
def carryOn (m : Moment) (run : Run) : Program → σ → Segment σ
  | [], s => run.conclude m.now .completed s
  | raw :: rest, s =>
    if m.stopping then run.conclude m.now (.ofError .cancelled) s
    else
      match raw.kind with
      | .error e => run.conclude m.now (.ofError e) s
      | .ok kind =>
        Segment.after [stepLine (run.done.length + 1) run.total raw.actionName] <|
          match Step.decode kind raw with
          | .error e => run.conclude m.now (.ofError (.action e)) s
          | .ok step =>
            match (step.start m).run s with
            | (.error e, s) => run.conclude m.now (.ofError (.action e)) s
            | (.ok .finished, s) => carryOn m (run.complete step m.now m.now) rest s
            | (.ok (.waiting wake hold), s) =>
              ⟨[], .running { run with stage := .waiting step m.now wake hold rest }, s⟩

/-- Whether a run can go on: it has not begun, its wait is over, or a stop request ends the wait. -/
def isDue (m : Moment) (run : Run) : Bool :=
  match run.stage with
  | .claimed _ => true
  | .waiting _ _ wake _ _ => decide (wake ≤ m.now) || m.interrupts

/-- Goes on with a run that is due until it waits again or ends. -/
def advance (m : Moment) (run : Run) (s : σ) : Segment σ :=
  match run.stage with
  | .claimed program => Segment.after opening (carryOn m { run with startedAt := m.now } program s)
  | .waiting step since wake hold rest =>
    if m.resumes wake then
      match (hold.resume m).run s with
      | (.error e, s) => run.conclude m.now (.ofError (.action e)) s
      | (.ok .finished, s) => carryOn m (run.complete step since m.now) rest s
      | (.ok (.waiting wake hold), s) =>
        ⟨[], .running { run with stage := .waiting step since wake hold rest }, s⟩
    else if m.interrupts then
      run.conclude m.now (.ofError (.action (.interrupted stoppedByUser))) s
    else ⟨[], .running run, s⟩

/-- The instant at which a run goes on by itself. -/
def wakesAt (now : Nat) (run : Run) : Nat :=
  match run.stage with
  | .claimed _ => now
  | .waiting _ _ wake _ _ => wake

/-! ## A run goes on finitely often -/

/-- What a run has left to do: steps that have not begun, and how often the present one can wait. -/
def rank (run : Run) : Nat × Nat :=
  match run.stage with
  | .claimed program => (program.length + 1, 0)
  | .waiting _ _ wake hold rest => (rest.length, hold.rank wake)

/-- The order by which runs come nearer to their ends. -/
abbrev Nearer (a b : Nat × Nat) : Prop := Prod.Lex (· < ·) (· < ·) a b

/-- A run that waits while it carries out a program has fewer steps left than the program has. -/
theorem rank_carryOn {m : Moment} {program : Program} {run next : Run} {s : σ}
    (h : (carryOn m run program s).state = .running next) :
    next.rank.1 < program.length := by
  induction program generalizing run s with
  | nil => simp [carryOn, conclude] at h
  | cons raw rest ih =>
    simp only [carryOn] at h
    split at h
    · simp [conclude] at h
    · split at h
      · simp [conclude] at h
      · simp only [Segment.after] at h
        split at h
        · simp [conclude] at h
        · split at h
          · simp [conclude] at h
          · exact Nat.lt_succ_of_lt (ih h)
          · cases h
            simp [rank]

/-- A run that is due and waits again is nearer to its end. -/
theorem advance_nearer {m : Moment} {run next : Run} {s : σ} (hd : run.isDue m = true)
    (h : (run.advance m s).state = .running next) : Nearer next.rank run.rank := by
  obtain ⟨token, total, done, startedAt, stage⟩ := run
  cases stage with
  | claimed program =>
    have := rank_carryOn (show (carryOn m _ program s).state = _ from h)
    exact Prod.Lex.left _ _ (Nat.lt_succ_of_lt this)
  | waiting step since wake hold rest =>
    by_cases hw : m.resumes wake = true
    · simp only [advance, if_pos hw] at h
      split at h
      · simp [conclude] at h
      · exact Prod.Lex.left _ _ (rank_carryOn h)
      · rename_i wake' hold' s' hr
        cases h
        exact Prod.Lex.right _ (gives_resume (Moment.le_of_resumes hw) s _ (congrArg Prod.fst hr)).2
    · have hi : m.interrupts = true := Moment.interrupts_of_not_resumes hd hw
      simp [advance, hw, hi, conclude] at h

/-- A run that is not due stays as it is. -/
theorem advance_of_not_isDue {m : Moment} {run : Run} {s : σ} (h : run.isDue m = false) :
    run.advance m s = ⟨[], .running run, s⟩ := by
  obtain ⟨token, total, done, startedAt, stage⟩ := run
  cases stage with
  | claimed program => simp [isDue] at h
  | waiting step since wake hold rest =>
    simp only [isDue, Bool.or_eq_false_iff] at h
    simp [advance, Moment.resumes, h.1, h.2]

end Run

end FormRehearsal
