/-
# Accounts of runs

The account of a run says, entry by entry, what the run does at a moment without waiting: it is
opened, it announces a step, a step waits, a step is carried out, the run ends and why. Each entry
carries the instant and the surface after it, so that two runs with the same account do the same to
their surfaces at the same instants.

* `beginning` : what can come of the next step;
* `tells_account` : what a segment says, leaves and reports is what the account says.
-/
import FormRehearsal.Proofs.Run.Failure
import FormRehearsal.Run.Timeline

namespace FormRehearsal

/-- Why a run ends. -/
inductive Ending where
  /-- no step is left -/
  | exhausted
  /-- a stop request is seen before a step -/
  | stopped
  /-- a step names no action -/
  | unknown (error : RunError)
  /-- a step that was announced does not hold what its action needs -/
  | undecodable (error : ActionError)
  /-- a step that was begun fails, or a stop request ends its wait -/
  | failed (error : ActionError)
  deriving DecidableEq, Repr

namespace Ending

/-- The error that ends the run, if one does. -/
def error? : Ending → Option RunError
  | exhausted => none
  | stopped => some .cancelled
  | unknown e => some e
  | undecodable e | failed e => some (.action e)

/-- The outcome of a run that ends like this. -/
def outcome (ending : Ending) : Outcome :=
  match ending.error? with
  | none => .completed
  | some e => .ofError e

end Ending

/-- Something that a run does without waiting. -/
inductive Turn where
  | opened
  | announced (number total : Nat) (name : String)
  | suspended (wake : Nat) (hold : Hold)
  | carriedOut (report : ActionReport)
  | ended (ending : Ending) (report : Report)
  deriving Repr

namespace Turn

/-- What is said at a turn. -/
def events : Turn → List StatusEvent
  | opened => Run.opening
  | announced number total name => [Run.stepLine number total name]
  | ended ending _ => Run.closing ending.outcome
  | suspended .. | carriedOut _ => []

/-- The report that a turn gives. -/
def report? : Turn → Option Report
  | ended _ report => some report
  | _ => none

end Turn

/-- A turn of a run, its instant and the surface after it. -/
structure Entry (σ : Type) where
  instant : Nat
  turn : Turn
  surface : σ

/-- What a run does, turn by turn. -/
abbrev Story (σ : Type) := List (Entry σ)

namespace Story

variable {σ : Type}

/-- What is said in a story, and when. -/
def events (story : Story σ) : List TimedEvent :=
  story.flatMap fun e => StatusEvent.toldAt e.instant e.turn.events

/-- The reports in a story. -/
def reports (story : Story σ) : List Report := story.flatMap (·.turn.report?.toList)

/-- The surface after a story that begins on a surface. -/
def surface (s : σ) (story : Story σ) : σ := story.foldl (fun _ e => e.surface) s

@[simp] theorem events_nil : events ([] : Story σ) = [] := rfl

@[simp] theorem events_cons (e : Entry σ) (story : Story σ) :
    events (e :: story) = StatusEvent.toldAt e.instant e.turn.events ++ events story := rfl

@[simp] theorem events_append (a b : Story σ) : events (a ++ b) = events a ++ events b :=
  List.flatMap_append

@[simp] theorem reports_cons (e : Entry σ) (story : Story σ) :
    reports (e :: story) = e.turn.report?.toList ++ reports story := rfl

@[simp] theorem reports_append (a b : Story σ) : reports (a ++ b) = reports a ++ reports b :=
  List.flatMap_append

@[simp] theorem surface_append (s : σ) (a b : Story σ) :
    surface s (a ++ b) = surface (surface s a) b := List.foldl_append

end Story

/-- The report of a run that has ended. -/
def RunState.report? : RunState → Option Report
  | running _ => none
  | ended report => some report

namespace Run

/-- The entry with which a run ends. -/
def lastEntry {σ : Type} (run : Run) (now : Nat) (ending : Ending) (s : σ) : Entry σ :=
  ⟨now, .ended ending ⟨ending.outcome, run.total, run.done, run.startedAt, now⟩, s⟩

variable {σ : Type} [Surface σ]

/-- The account of carrying out the steps of a program. -/
def carryOnAccount (m : Moment) (run : Run) : Program → σ → Story σ
  | [], s => [run.lastEntry m.now .exhausted s]
  | raw :: rest, s =>
    if m.stopping then [run.lastEntry m.now .stopped s]
    else
      match raw.kind with
      | .error e => [run.lastEntry m.now (.unknown e) s]
      | .ok kind =>
        ⟨m.now, .announced (run.done.length + 1) run.total raw.actionName, s⟩ ::
          match Step.decode kind raw with
          | .error e => [run.lastEntry m.now (.undecodable e) s]
          | .ok step =>
            match (step.start m).run s with
            | (.error e, s) => [run.lastEntry m.now (.failed e) s]
            | (.ok .finished, s) =>
              ⟨m.now, .carriedOut (.ofStep step m.now m.now), s⟩ ::
                carryOnAccount m (run.complete step m.now m.now) rest s
            | (.ok (.waiting wake hold), s) => [⟨m.now, .suspended wake hold, s⟩]

/-- The account of what a run does at a moment; there is nothing to tell of a run that is not due.
-/
def account (m : Moment) (run : Run) (s : σ) : Story σ :=
  match run.stage with
  | .claimed program =>
    ⟨m.now, .opened, s⟩ :: carryOnAccount m { run with startedAt := m.now } program s
  | .waiting step since wake hold rest =>
    if m.resumes wake then
      match (hold.resume m).run s with
      | (.error e, s) => [run.lastEntry m.now (.failed e) s]
      | (.ok .finished, s) =>
        ⟨m.now, .carriedOut (.ofStep step since m.now), s⟩ ::
          carryOnAccount m (run.complete step since m.now) rest s
      | (.ok (.waiting wake hold), s) => [⟨m.now, .suspended wake hold, s⟩]
    else if m.interrupts then
      [run.lastEntry m.now (.failed (.interrupted stoppedByUser)) s]
    else []

/-! ## Segments and stories -/

/-- A segment that begins on a surface at an instant does what a story says. -/
structure Tells (now : Nat) (s : σ) (g : Segment σ) (story : Story σ) : Prop where
  events : StatusEvent.toldAt now g.events = Story.events story
  reports : g.state.report?.toList = Story.reports story
  surface : g.surface = Story.surface s story
  instants : ∀ e ∈ story, e.instant = now

omit [Surface σ] in
/-- Events of one instant are told one after another. -/
theorem toldAt_append (now : Nat) (a b : List StatusEvent) :
    StatusEvent.toldAt now (a ++ b) = StatusEvent.toldAt now a ++ StatusEvent.toldAt now b :=
  List.map_append

omit [Surface σ] in
theorem tells_conclude (run : Run) (now : Nat) (ending : Ending) (s t : σ) :
    Tells now t (run.conclude now ending.outcome s) [run.lastEntry now ending s] where
  events := by simp [conclude, lastEntry, Turn.events]
  reports := rfl
  surface := rfl
  instants := by simp [lastEntry]

omit [Surface σ] in
theorem tells_running (now wake : Nat) (hold : Hold) (next : Run) (s t : σ) :
    Tells now t ⟨[], .running next, s⟩ [⟨now, .suspended wake hold, s⟩] where
  events := rfl
  reports := rfl
  surface := rfl
  instants := by simp

omit [Surface σ] in
/-- A turn that gives no report stands before the rest of a segment. -/
theorem Tells.after {now : Nat} {s t : σ} {g : Segment σ} {story : Story σ}
    (h : Tells now s g story) (turn : Turn) (hturn : turn.report? = none) :
    Tells now t (Segment.after turn.events g) (⟨now, turn, s⟩ :: story) where
  events := by
    simp only [Segment.after, Story.events_cons, toldAt_append, h.events]
  reports := by
    show g.state.report?.toList = _
    rw [h.reports, Story.reports_cons, hturn]
    rfl
  surface := h.surface
  instants := by
    intro e he
    rcases List.mem_cons.1 he with rfl | he
    · rfl
    · exact h.instants e he

omit [Surface σ] in
/-- A turn at which nothing is said and nothing is reported stands before the rest of a segment. -/
theorem Tells.after_silent {now : Nat} {s t : σ} {g : Segment σ} {story : Story σ}
    (h : Tells now s g story) (report : ActionReport) :
    Tells now t g (⟨now, .carriedOut report, s⟩ :: story) :=
  h.after (.carriedOut report) rfl

/-! ## What comes of the next step -/

/-- What comes of a step whose turn it is at a moment. -/
inductive Beginning (m : Moment) (raw : Instruction) (s : σ) : Prop where
  | stopped (hs : m.stopping = true)
  | unknown (e : RunError) (hs : m.stopping = false) (hk : raw.kind = .error e)
  | undecodable (kind : ActionKind) (e : ActionError) (hs : m.stopping = false)
      (hk : raw.kind = .ok kind) (hd : Step.decode kind raw = .error e)
  | failed (kind : ActionKind) (step : Step) (e : ActionError) (left : σ) (hs : m.stopping = false)
      (hk : raw.kind = .ok kind) (hd : Step.decode kind raw = .ok step)
      (hr : (step.start m).run s = (.error e, left))
  | finished (kind : ActionKind) (step : Step) (left : σ) (hs : m.stopping = false)
      (hk : raw.kind = .ok kind) (hd : Step.decode kind raw = .ok step)
      (hr : (step.start m).run s = (.ok .finished, left))
  | waiting (kind : ActionKind) (step : Step) (wake : Nat) (hold : Hold) (left : σ)
      (hs : m.stopping = false) (hk : raw.kind = .ok kind) (hd : Step.decode kind raw = .ok step)
      (hr : (step.start m).run s = (.ok (.waiting wake hold), left))

/-- One of these comes of every step. -/
theorem beginning (m : Moment) (raw : Instruction) (s : σ) : Beginning m raw s := by
  cases hs : m.stopping with
  | true => exact .stopped hs
  | false =>
    cases hk : raw.kind with
    | error e => exact .unknown e hs hk
    | ok kind =>
      cases hd : Step.decode kind raw with
      | error e => exact .undecodable kind e hs hk hd
      | ok step =>
        rcases hr : (step.start m).run s with ⟨e | _ | ⟨wake, hold⟩, left⟩
        · exact .failed kind step e left hs hk hd hr
        · exact .finished kind step left hs hk hd hr
        · exact .waiting kind step wake hold left hs hk hd hr

/-! ## A segment is what its account says -/

/-- Carrying out a program does what its account says. -/
theorem tells_carryOn (m : Moment) (run : Run) (program : Program) (s t : σ) :
    Tells m.now t (carryOn m run program s) (carryOnAccount m run program s) := by
  -- the account does not depend on the surface before the segment
  induction program generalizing run s t with
  | nil => exact tells_conclude run m.now .exhausted s t
  | cons raw rest ih =>
    cases beginning m raw s with
    | stopped hs =>
      rw [carryOn, carryOnAccount, if_pos hs, if_pos hs]
      exact tells_conclude run m.now .stopped s t
    | unknown e hs hk =>
      simp only [carryOn, carryOnAccount, hs, hk]
      exact tells_conclude run m.now (.unknown e) s t
    | undecodable kind e hs hk hd =>
      simp only [carryOn, carryOnAccount, hs, hk, hd]
      exact (tells_conclude run m.now (.undecodable e) s s).after (.announced _ _ _) rfl
    | failed kind step e left hs hk hd hr =>
      simp only [carryOn, carryOnAccount, hs, hk, hd, hr]
      exact (tells_conclude run m.now (.failed e) left s).after (.announced _ _ _) rfl
    | finished kind step left hs hk hd hr =>
      simp only [carryOn, carryOnAccount, hs, hk, hd, hr]
      exact ((ih _ left left).after_silent _).after (.announced _ _ _) rfl
    | waiting kind step wake hold left hs hk hd hr =>
      simp only [carryOn, carryOnAccount, hs, hk, hd, hr]
      exact (tells_running m.now wake hold _ left s).after (.announced _ _ _) rfl

/-- **Accounts.** What a run says, leaves and reports at a moment is what its account says. -/
theorem tells_account (m : Moment) (run : Run) (s : σ) :
    Tells m.now s (run.advance m s) (run.account m s) := by
  obtain ⟨token, total, done, startedAt, stage⟩ := run
  cases stage with
  | claimed program => exact (tells_carryOn m _ program s s).after .opened rfl
  | waiting step since wake hold rest =>
    simp only [advance, account]
    by_cases hw : m.resumes wake = true
    · rw [if_pos hw, if_pos hw]
      rcases (hold.resume m).run s with ⟨e | _ | ⟨later, more⟩, left⟩
      · exact tells_conclude _ m.now (.failed e) left s
      · exact (tells_carryOn m _ rest left left).after_silent _
      · exact tells_running m.now later more _ left s
    · rw [if_neg hw, if_neg hw]
      by_cases hi : m.interrupts = true
      · rw [if_pos hi, if_pos hi]
        exact tells_conclude _ m.now (.failed (.interrupted stoppedByUser)) s s
      · rw [if_neg hi, if_neg hi]
        exact ⟨rfl, rfl, rfl, fun e he => absurd he (List.not_mem_nil)⟩

end Run

end FormRehearsal
