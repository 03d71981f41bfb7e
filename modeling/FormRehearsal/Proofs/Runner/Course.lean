/-
# The course of what is done with a runner

A runner is used as it goes: runs are started, some are waited for, a stop is asked for, the runner
is left alone until some instant. These are `Doing`s, and each consists of moves; which moves let
time pass depends on the runner. What comes of a doing is a `Scene`, and a course is one scene after
another.

A runner ignores some doings: a start while it is running, a stop request while it is idle or was
asked before.

* `afterAll_moves`, `occasions_moves` : a course, move by move;
* `Owned.doesAll` : the invariant of the runner along a course.
-/
import FormRehearsal.Proofs.Runner.Passing

namespace FormRehearsal

variable {σ : Type}

/-! ## Doings and what comes of them -/

/-- Something that is done with a runner. -/
inductive Doing (σ : Type) where
  | move (move : Move σ)
  /-- a run is started and waited for, so it goes on at once -/
  | run (program : Program)
  /-- the runner is left alone until an instant -/
  | elapse (instant : Nat)

namespace Doing

/-- Whether a run is asked for. -/
def asksForRun : Doing σ → Bool
  | run _ | move (.start _) | move (.command (.start _)) => true
  | _ => false

/-- Whether the run in progress is asked to stop. -/
def asksToStop : Doing σ → Bool
  | move .stop | move (.command .stop) => true
  | _ => false

/-- Nothing asks for both. -/
theorem asksToStop_of_asksForRun {doing : Doing σ} (h : doing.asksForRun = true) :
    doing.asksToStop = false := by
  unfold asksForRun at h
  split at h
  case h_4 => cases h
  all_goals rfl

end Doing

/-- What whoever asks is answered. -/
inductive Reply where
  | claim (answer : Except RunError Token)
  /-- whether there is a run that can stop -/
  | stop (running : Bool)
  | ack (ack : Ack)

/-- A doing, what comes of it, and what is left after it. -/
structure Scene (σ : Type) where
  doing : Doing σ
  /-- whether the runner ignores it -/
  vain : Bool
  reply? : Option Reply
  occasions : List (Occasion σ)
  surface : σ
  now : Nat
  running : Bool
  cancelRequested : Bool

/-- What happened in some scenes. -/
def happeningsIn (scenes : List (Scene σ)) : List (Happening σ) :=
  (scenes.flatMap (·.occasions)).map (·.happening)

namespace Runner

/-- What a runner answers to a doing. -/
def reply? (r : Runner σ) : Doing σ → Option Reply
  | .run program | .move (.start program) => some (.claim (r.start program).answer)
  | .move .stop => some (.stop r.stop.answer)
  | .move (.command command) => some (.ack (r.handle command).answer)
  | _ => none

/-- Whether a runner ignores a doing: it is asked for a run while it is running, or to stop while it
is idle or was asked before. -/
def ignores (r : Runner σ) (doing : Doing σ) : Bool :=
  (doing.asksForRun && r.running) || (doing.asksToStop && (!r.running || r.cancelRequested))

theorem ignores_of_asksForRun {r : Runner σ} {doing : Doing σ} (h : doing.asksForRun = true) :
    r.ignores doing = r.running := by
  simp [ignores, h, Doing.asksToStop_of_asksForRun h]

theorem ignores_of_asksToStop {r : Runner σ} {doing : Doing σ} (h : doing.asksToStop = true) :
    r.ignores doing = (!r.running || r.cancelRequested) := by
  have hrun : doing.asksForRun = false := by
    cases hd : doing.asksForRun with
    | false => rfl
    | true => cases h.symm.trans (Doing.asksToStop_of_asksForRun hd)
  simp [ignores, h, hrun]

variable [Surface σ]

/-- The moves that a doing consists of. -/
def movesOf (r : Runner σ) : Doing σ → List (Move σ)
  | .move move => [move]
  | .run program =>
    match (r.start program).answer with
    | .ok token => [.start program, .goOn token]
    | .error _ => [.start program]
  | .elapse instant => r.elapsing instant

theorem movesOf_move (r : Runner σ) (move : Move σ) : r.movesOf (.move move) = [move] := rfl

/-- The runner after a doing. -/
def does (r : Runner σ) (doing : Doing σ) : Runner σ := r.afterAll (r.movesOf doing)

/-- The runner after some doings. -/
def doesAll (r : Runner σ) (doings : List (Doing σ)) : Runner σ := doings.foldl does r

/-- What comes of a doing. -/
def scene (r : Runner σ) (doing : Doing σ) : Scene σ :=
  let after := r.does doing
  { doing
    vain := r.ignores doing
    reply? := r.reply? doing
    occasions := r.occasions (r.movesOf doing)
    surface := after.surface
    now := after.now
    running := after.running
    cancelRequested := after.cancelRequested }

/-- What comes of some doings, one after another. -/
def course (r : Runner σ) : List (Doing σ) → List (Scene σ)
  | [] => []
  | doing :: doings => r.scene doing :: (r.does doing).course doings

/-- The moves that some doings consist of. -/
def moves (r : Runner σ) : List (Doing σ) → List (Move σ)
  | [] => []
  | doing :: doings => r.movesOf doing ++ (r.does doing).moves doings

/-! ## Courses and histories -/

theorem afterAll_moves (r : Runner σ) (doings : List (Doing σ)) :
    r.afterAll (r.moves doings) = r.doesAll doings := by
  induction doings generalizing r with
  | nil => rfl
  | cons doing doings ih =>
    rw [moves, afterAll_append]
    exact ih _

theorem occasions_moves (r : Runner σ) (doings : List (Doing σ)) :
    r.occasions (r.moves doings) = (r.course doings).flatMap (·.occasions) := by
  induction doings generalizing r with
  | nil => rfl
  | cons doing doings ih =>
    rw [moves, occasions_append]
    exact congrArg (r.occasions (r.movesOf doing) ++ ·) (ih _)

/-- What comes before a scene is a course, and the scene is the next one. -/
theorem of_course_eq_append {r : Runner σ} {doings : List (Doing σ)} {before after : List (Scene σ)}
    {scene : Scene σ} (h : r.course doings = before ++ scene :: after) :
    ∃ earlier, r.course earlier = before ∧ scene = (r.doesAll earlier).scene scene.doing := by
  induction before generalizing r doings with
  | nil =>
    cases doings with
    | nil => cases h
    | cons doing doings =>
      obtain ⟨hscene, -⟩ := List.cons.inj h
      subst hscene
      exact ⟨[], rfl, rfl⟩
  | cons first before ih =>
    cases doings with
    | nil => cases h
    | cons doing doings =>
      obtain ⟨hfirst, hrest⟩ := List.cons.inj h
      subst hfirst
      obtain ⟨earlier, rfl, hscene⟩ := ih hrest
      exact ⟨doing :: earlier, rfl, hscene⟩

end Runner

/-- What a runner holds agrees with what happened in its scenes. -/
theorem Owned.doesAll [Surface σ] {w : World σ} (h : Owned w.runner w.happenings)
    (doings : List (Doing σ)) :
    Owned (w.runner.doesAll doings) (w.happenings ++ happeningsIn (w.runner.course doings)) := by
  have ha := World.afterAll_induction (P := fun w => Owned w.runner w.happenings)
    (fun _ move h => h.after move) h (w.runner.moves doings)
  rw [World.afterAll_eq, World.happenings, List.map_append, Runner.afterAll_moves,
    Runner.occasions_moves] at ha
  exact ha

end FormRehearsal
