/-
# Runners

A runner owns a surface and carries out runs on it, one at a time. A run is claimed under a token of
its own; a stop request cancels the token that is current, and every claim and every release makes a
fresh token current, so a stop request never reaches another run. A run that is abandoned is
released too; if something is left to clear the badge, that is done as soon as the runner settles.

Whatever is asked of a runner gives a `Reaction`: an answer, the status events on the way, and the
runner after it.

* `now_settle`, `now_elapse` : how much time passes;
* `start_of_running`, `start_of_idle`, `stop_of_idle` : what a runner does when it is asked.
-/
import FormRehearsal.Run.Command
import FormRehearsal.Run.Timeline

namespace FormRehearsal

/-- The carrying out of runs on a surface. -/
structure Runner (σ : Type) where
  surface : σ
  policy : RunPolicy
  now : Nat := 0
  /-- whether a run is claimed -/
  running : Bool := false
  /-- the current token -/
  token : Token := ⟨0⟩
  /-- the serial of the last token that was made -/
  lastSerial : Nat := 0
  /-- the tokens that a stop request went to -/
  cancelled : List Token := []
  /-- the runs that have not ended -/
  runs : List Run := []
  /-- how often the badge is still to be cleared for abandoned runs -/
  clearings : Nat := 0

/-- An answer, what was said on the way, and the runner after it. -/
structure Reaction (σ α : Type) where
  answer : α
  events : List StatusEvent
  runner : Runner σ

/-- The runs that ended, with their reports. -/
abbrev Endings := List (Token × Report)

/-- What happened while time passed, and the runner after it. -/
structure Passage (σ : Type) where
  endings : Endings
  events : List TimedEvent
  runner : Runner σ

namespace Runner

variable {σ : Type}

/-! ## Asking a runner -/

/-- The runner with a fresh token. -/
def renew (r : Runner σ) : Runner σ :=
  { r with token := ⟨r.lastSerial + 1⟩, lastSerial := r.lastSerial + 1 }

/-- The runner after the claim of a run was given back. -/
def release (r : Runner σ) : Runner σ := { r with running := false }.renew

/-- Whether a stop request went to a token. -/
def isCancelled (r : Runner σ) (token : Token) : Bool := r.cancelled.contains token

/-- Whether the run in progress has been asked to stop. -/
def cancelRequested (r : Runner σ) : Bool := r.running && r.isCancelled r.token

/-- The moment at which a run goes on. -/
def moment (r : Runner σ) (token : Token) : Moment := ⟨r.now, r.policy, r.isCancelled token⟩

/-- The run of a token. -/
def find? (r : Runner σ) (token : Token) : Option Run := r.runs.find? (·.token = token)

/-- Claims a run of a program, unless there is one already. -/
def start (r : Runner σ) (program : Program) : Reaction σ (Except RunError Token) :=
  if r.running then
    ⟨.error .alreadyRunning, [.status RunError.alreadyRunning.message], r⟩
  else
    let r := { r with running := true }.renew
    ⟨.ok r.token, [], { r with runs := r.runs ++ [Run.claim r.token program r.now] }⟩

/-- What is said when a run is asked to stop. -/
def stoppingStatus : StatusEvent := .status "Stopping automation..."

/-- Asks the run in progress to stop, and tells whether there is one. -/
def stop (r : Runner σ) : Reaction σ Bool :=
  ⟨r.running, [stoppingStatus],
    if r.running then { r with cancelled := r.token :: r.cancelled } else r⟩

/-- Does what a command asks for. -/
def handle (r : Runner σ) : Command → Reaction σ Ack
  | .start steps =>
    let a := r.start steps
    ⟨match a.answer with
      | .ok _ => .accepted
      | .error _ => .alreadyRunning, a.events, a.runner⟩
  | .stop =>
    let a := r.stop
    ⟨.accepted, a.events, a.runner⟩

/-- Gives up a run wherever it is. Only if the runner is still attended to, the badge is cleared for
it. -/
def abandon (r : Runner σ) (token : Token) (attended : Bool) : Runner σ :=
  match r.find? token with
  | none => r
  | some _ =>
    { r with runs := r.runs.filter (·.token ≠ token),
             clearings := if attended then r.clearings + 1 else r.clearings }.release

/-! ## Going on -/

variable [Surface σ]

/-- Goes on with the run of a token, if it is due. -/
def advance (r : Runner σ) (token : Token) : Reaction σ Endings :=
  match r.find? token with
  | none => ⟨[], [], r⟩
  | some run =>
    let g := run.advance (r.moment token) r.surface
    match g.state with
    | .running next =>
      ⟨[], g.events,
        { r with surface := g.surface,
                 runs := r.runs.map fun other => if other.token = token then next else other }⟩
    | .ended report =>
      ⟨[(token, report)], g.events,
        { r with surface := g.surface, runs := r.runs.filter (·.token ≠ token) }.release⟩

/-- Goes on with the runs of some tokens. -/
def advanceAll (r : Runner σ) : List Token → Reaction σ Endings
  | [] => ⟨[], [], r⟩
  | token :: tokens =>
    let a := r.advance token
    let b := a.runner.advanceAll tokens
    ⟨a.answer ++ b.answer, a.events ++ b.events, b.runner⟩

/-- Goes on with whatever is due at the present instant. -/
def settle (r : Runner σ) : Reaction σ Endings :=
  let a := r.advanceAll (r.runs.map (·.token))
  ⟨a.answer, a.events ++ List.replicate a.runner.clearings .idleBadge,
    { a.runner with clearings := 0 }⟩

/-- The next instant at which a run goes on by itself. -/
def nextWake? (r : Runner σ) : Option Nat := (r.runs.map (·.wakesAt r.now)).min?

/-- Does what is due at the present instant, then lets time pass up to an instant; runs go on when
their waits are over. -/
def elapse (r : Runner σ) (instant : Nat) : Passage σ :=
  let a := r.settle
  let events := StatusEvent.toldAt r.now a.events
  let last : Passage σ := ⟨a.answer, events, { a.runner with now := max r.now instant }⟩
  match a.runner.nextWake? with
  | none => last
  | some wake =>
    if r.now < wake ∧ wake ≤ instant then
      let b := { a.runner with now := wake }.elapse instant
      ⟨a.answer ++ b.endings, events ++ b.events, b.runner⟩
    else last
termination_by instant - r.now

/-- The instant at which the run of a token ends if nothing is asked of the runner. -/
def endsAt (r : Runner σ) (token : Token) : Nat :=
  match r.find? token with
  | none => r.now
  | some run =>
    run.endsAt r.policy (if r.isCancelled token then some r.now else none) r.now r.surface

/-! ## The clock of a runner -/

omit [Surface σ] in
@[simp] theorem now_release (r : Runner σ) : r.release.now = r.now := rfl

@[simp] theorem now_advance (r : Runner σ) (token : Token) :
    (r.advance token).runner.now = r.now := by
  unfold advance
  split
  · rfl
  · dsimp only
    split <;> rfl

@[simp] theorem now_advanceAll (r : Runner σ) (tokens : List Token) :
    (r.advanceAll tokens).runner.now = r.now := by
  induction tokens generalizing r with
  | nil => rfl
  | cons token tokens ih => simp [advanceAll, ih]

/-- Settling takes no time. -/
@[simp] theorem now_settle (r : Runner σ) : r.settle.runner.now = r.now :=
  now_advanceAll r _

/-- Time passes up to the instant, unless it is over already. -/
theorem now_elapse (r : Runner σ) (instant : Nat) :
    (r.elapse instant).runner.now = max r.now instant := by
  fun_induction elapse r instant with
  | case1 => rfl
  | case2 r a last wake _ hw b ih =>
    rw [ih]
    show max wake instant = max r.now instant
    omega
  | case3 => rfl

/-! ## What a runner answers -/

omit [Surface σ] in
theorem start_of_running {r : Runner σ} (h : r.running = true) (program : Program) :
    r.start program = ⟨.error .alreadyRunning, [.status RunError.alreadyRunning.message], r⟩ := by
  simp [start, h]

omit [Surface σ] in
theorem start_of_idle {r : Runner σ} (h : r.running = false) (program : Program) :
    (r.start program).answer = .ok ⟨r.lastSerial + 1⟩ := by
  simp [start, h, renew]

omit [Surface σ] in
theorem stop_of_idle {r : Runner σ} (h : r.running = false) : r.stop.runner = r := by
  simp [stop, h]

end Runner

end FormRehearsal
