/-
# Histories of a runner

A runner is asked to start and to stop, its runs go on or are abandoned, time passes, the surface
changes from outside: each of these is a `Move`, and they may come in any order. A `World` is a
runner with the history of what happened to it since it was made.

The history decides what a stop request means. A run is live from its claim until it ends or is
abandoned, and it was asked to stop if a stop request found it live.

* `liveIn_snoc`, `askedToStop_snoc` : both notions as the history grows by one happening;
* `afterAll_induction` : what every move keeps holds of every world that is reached.
-/
import FormRehearsal.Proofs.Run.Account
import FormRehearsal.Run.Runner

namespace FormRehearsal

/-- Something that is done to a runner. Waiting for a run is starting it and going on with it at
once. -/
inductive Move (σ : Type) where
  | start (program : Program)
  | stop
  | command (command : Command)
  /-- the run of a token is gone on with, due or not -/
  | goOn (token : Token)
  /-- the run of a token is given up wherever it is -/
  | abandon (token : Token) (attended : Bool)
  /-- the badge is cleared for one abandoned run -/
  | clear
  /-- time passes up to an instant -/
  | pass (instant : Nat)
  /-- the surface changes from outside -/
  | change (f : σ → σ)

/-- What a move comes to. -/
inductive Happening (σ : Type) where
  | claimed (token : Token) (program : Program)
  | refused
  /-- a stop request and its answer -/
  | stopAsked (running : Bool)
  /-- a run went on, and gave a report if it ended -/
  | wentOn (token : Token) (story : Story σ) (report? : Option Report)
  | abandoned (token : Token)
  | elsewhere

/-- A happening, its instant and what was said. -/
structure Occasion (σ : Type) where
  instant : Nat
  happening : Happening σ
  events : List StatusEvent

/-- A runner and what happened to it. -/
structure World (σ : Type) where
  runner : Runner σ
  history : List (Occasion σ) := []

namespace Happening

variable {σ : Type}

/-- What the answer to a start comes to. -/
def ofStart (program : Program) : Except RunError Token → Happening σ
  | .ok token => claimed token program
  | .error _ => refused

/-- The run of a token is over: it ended or was abandoned. -/
def Releases (token : Token) : Happening σ → Prop
  | wentOn t _ (some _) => t = token
  | abandoned t => t = token
  | _ => False

/-- Whether the happening is that the run of a token went on. -/
def isOf (token : Token) : Happening σ → Bool
  | wentOn t .. => t = token
  | _ => false

/-- What the run of a token does at a happening. -/
def storyOf (token : Token) : Happening σ → Story σ
  | wentOn t story _ => if t = token then story else []
  | _ => []

end Happening

/-! ## Moves -/

section Moves

variable {σ : Type} [Surface σ]

/-- The account of the run of a token, if there is one. -/
def Runner.account (r : Runner σ) (token : Token) : Story σ :=
  match r.find? token with
  | none => []
  | some run => run.account (r.moment token) r.surface

/-- Makes a move. -/
def Runner.move (r : Runner σ) : Move σ → Reaction σ (Happening σ)
  | .start program =>
    let a := r.start program
    ⟨.ofStart program a.answer, a.events, a.runner⟩
  | .stop =>
    let a := r.stop
    ⟨.stopAsked a.answer, a.events, a.runner⟩
  | .command (.start program) =>
    let a := r.handle (.start program)
    ⟨if a.answer.ok then .claimed a.runner.token program else .refused, a.events, a.runner⟩
  | .command .stop =>
    let a := r.handle .stop
    ⟨.stopAsked r.stop.answer, a.events, a.runner⟩
  | .goOn token =>
    let a := r.advance token
    ⟨.wentOn token (r.account token) (a.answer.head?.map (·.2)), a.events, a.runner⟩
  | .abandon token attended => ⟨.abandoned token, [], r.abandon token attended⟩
  | .clear =>
    ⟨.elsewhere, if r.clearings = 0 then [] else [.idleBadge],
      { r with clearings := r.clearings - 1 }⟩
  | .pass instant => ⟨.elsewhere, [], { r with now := max r.now instant }⟩
  | .change f => ⟨.elsewhere, [], { r with surface := f r.surface }⟩

/-- The policy of a runner does not change. -/
@[simp] theorem Runner.policy_move (r : Runner σ) (move : Move σ) :
    (r.move move).runner.policy = r.policy := by
  have start : ∀ program, (r.start program).runner.policy = r.policy := by
    intro program
    unfold start
    split <;> rfl
  have stop : r.stop.runner.policy = r.policy := by
    unfold Runner.stop
    dsimp only
    split <;> rfl
  cases move with
  | start program => exact start program
  | stop => exact stop
  | command command =>
    cases command with
    | start program => exact start program
    | stop => exact stop
  | goOn token =>
    simp only [move, advance]
    split
    · rfl
    · split <;> rfl
  | abandon token attended =>
    simp only [move, abandon]
    split <;> rfl
  | _ => rfl

namespace World

omit [Surface σ] in
/-- A runner that was just made. -/
def fresh (s : σ) (policy : RunPolicy) : World σ := { runner := { surface := s, policy } }

/-- The world after a move. -/
def after (w : World σ) (move : Move σ) : World σ :=
  let a := w.runner.move move
  ⟨a.runner, w.history ++ [⟨w.runner.now, a.answer, a.events⟩]⟩

/-- The world after some moves. -/
def afterAll (w : World σ) (moves : List (Move σ)) : World σ := moves.foldl after w

omit [Surface σ] in
/-- What happened, without instants and events. -/
def happenings (w : World σ) : List (Happening σ) := w.history.map (·.happening)

omit [Surface σ] in
/-- What the run of a token said itself. -/
def saidBy (w : World σ) (token : Token) : List StatusEvent :=
  (w.history.filter (·.happening.isOf token)).flatMap (·.events)

omit [Surface σ] in
/-- What the run of a token did. -/
def storyOf (w : World σ) (token : Token) : Story σ := w.happenings.flatMap (·.storyOf token)

@[simp] theorem runner_after (w : World σ) (move : Move σ) :
    (w.after move).runner = (w.runner.move move).runner := rfl

@[simp] theorem happenings_after (w : World σ) (move : Move σ) :
    (w.after move).happenings = w.happenings ++ [(w.runner.move move).answer] := by
  simp [after, happenings]

/-- What a run said grows by what is said when it goes on, and by nothing else. -/
theorem saidBy_after (w : World σ) (move : Move σ) (token : Token) :
    (w.after move).saidBy token =
      w.saidBy token ++
        if (w.runner.move move).answer.isOf token then (w.runner.move move).events else [] := by
  unfold saidBy after
  rw [List.filter_append, List.flatMap_append]
  congr 1
  by_cases h : (w.runner.move move).answer.isOf token = true
  · simp [h]
  · simp [h]

/-- The story of a run grows by what it does when it goes on, and by nothing else. -/
theorem storyOf_after (w : World σ) (move : Move σ) (token : Token) :
    (w.after move).storyOf token =
      w.storyOf token ++ (w.runner.move move).answer.storyOf token := by
  rw [storyOf, happenings_after, List.flatMap_append, List.flatMap_singleton]
  rfl

omit [Surface σ] in
/-- A turn at which the run of a token went on is one of its story. -/
theorem mem_storyOf {w : World σ} {token : Token} {story : Story σ} {report? : Option Report}
    (h : .wentOn token story report? ∈ w.happenings) {entry : Entry σ} (he : entry ∈ story) :
    entry ∈ w.storyOf token := by
  refine List.mem_flatMap.2 ⟨_, h, ?_⟩
  rw [Happening.storyOf, if_pos rfl]
  exact he

theorem afterAll_append (w : World σ) (a b : List (Move σ)) :
    w.afterAll (a ++ b) = (w.afterAll a).afterAll b := List.foldl_append

theorem afterAll_snoc (w : World σ) (moves : List (Move σ)) (move : Move σ) :
    w.afterAll (moves ++ [move]) = (w.afterAll moves).after move := afterAll_append w moves [move]

/-- What holds of a world and is kept by every move holds after any moves. -/
theorem afterAll_induction {P : World σ → Prop} (hstep : ∀ w move, P w → P (w.after move))
    {w : World σ} (h : P w) (moves : List (Move σ)) : P (w.afterAll moves) := by
  induction moves generalizing w with
  | nil => exact h
  | cons move moves ih => exact ih (hstep w move h)

/-- The policy of a runner is that with which it was made. -/
theorem policy_afterAll (s : σ) (policy : RunPolicy) (moves : List (Move σ)) :
    ((fresh s policy).afterAll moves).runner.policy = policy := by
  refine afterAll_induction (P := fun w => w.runner.policy = policy) ?_ rfl moves
  intro w move h
  rw [runner_after, Runner.policy_move, h]

end World

end Moves

/-! ## Live runs and stop requests -/

section History

variable {σ : Type} {hs : List (Happening σ)} {x : Happening σ} {token : Token}

/-- The run of a token was claimed, and it has neither ended nor been abandoned since. -/
def LiveIn (hs : List (Happening σ)) (token : Token) : Prop :=
  ∃ before program since, hs = before ++ .claimed token program :: since ∧
    ∀ x ∈ since, ¬ x.Releases token

/-- The run of a token was live when a stop request came and was told that there is a run. -/
def AskedToStop (hs : List (Happening σ)) (token : Token) : Prop :=
  ∃ before since, hs = before ++ .stopAsked true :: since ∧ LiveIn before token

theorem LiveIn.claimed (h : LiveIn hs token) : ∃ program, .claimed token program ∈ hs := by
  obtain ⟨before, program, since, rfl, -⟩ := h
  exact ⟨program, by simp⟩

theorem AskedToStop.claimed (h : AskedToStop hs token) :
    ∃ program, .claimed token program ∈ hs := by
  obtain ⟨before, since, rfl, hl⟩ := h
  obtain ⟨program, hm⟩ := hl.claimed
  exact ⟨program, List.mem_append_left _ hm⟩

theorem not_liveIn_nil : ¬ LiveIn ([] : List (Happening σ)) token := by
  rintro ⟨before, program, since, h, -⟩
  simp at h

theorem not_askedToStop_nil : ¬ AskedToStop ([] : List (Happening σ)) token := by
  rintro ⟨before, since, h, -⟩
  simp at h

/-- A run is live after a happening if it is claimed by it, or was live and is not released by it.
-/
theorem liveIn_snoc :
    LiveIn (hs ++ [x]) token ↔
      (∃ program, x = .claimed token program) ∨ (LiveIn hs token ∧ ¬ x.Releases token) := by
  constructor
  · rintro ⟨before, program, since, h, hsince⟩
    -- the claim is the last happening, or there was something after it
    rcases since.eq_nil_or_concat with rfl | ⟨since, y, rfl⟩
    · obtain ⟨-, hx⟩ := List.append_inj' h rfl
      exact Or.inl ⟨program, by simpa using hx⟩
    · rw [List.concat_eq_append] at h hsince
      rw [← List.cons_append, ← List.append_assoc] at h
      obtain ⟨rfl, hxy⟩ := List.append_inj' h rfl
      obtain rfl : x = y := by simpa using hxy
      refine Or.inr ⟨⟨before, program, since, rfl, fun z hz => ?_⟩, ?_⟩
      · exact hsince z (List.mem_append_left _ hz)
      · exact hsince x (by simp)
  · rintro (⟨program, rfl⟩ | ⟨⟨before, program, since, rfl, hsince⟩, hx⟩)
    · exact ⟨hs, program, [], rfl, fun z hz => absurd hz List.not_mem_nil⟩
    · refine ⟨before, program, since ++ [x], by simp, fun z hz => ?_⟩
      rcases List.mem_append.1 hz with hz | hz
      · exact hsince z hz
      · obtain rfl : z = x := by simpa using hz
        exact hx

/-- Something comes after a beginning with a property if it did before the last happening, or is the
last happening itself. -/
theorem exists_cons_snoc {p : List (Happening σ) → Prop} {y : Happening σ} :
    (∃ before since, hs ++ [x] = before ++ y :: since ∧ p before) ↔
      (∃ before since, hs = before ++ y :: since ∧ p before) ∨ (x = y ∧ p hs) := by
  constructor
  · rintro ⟨before, since, h, hp⟩
    -- it is the last happening, or there was something after it
    rcases since.eq_nil_or_concat with rfl | ⟨since, z, rfl⟩
    · obtain ⟨rfl, hx⟩ := List.append_inj' h rfl
      exact Or.inr ⟨by simpa using hx, hp⟩
    · rw [List.concat_eq_append, ← List.cons_append, ← List.append_assoc] at h
      obtain ⟨rfl, -⟩ := List.append_inj' h rfl
      exact Or.inl ⟨before, since, rfl, hp⟩
  · rintro (⟨before, since, rfl, hp⟩ | ⟨rfl, hp⟩)
    · exact ⟨before, since ++ [x], by simp, hp⟩
    · exact ⟨hs, [], rfl, hp⟩

/-- A run was asked to stop after a happening if it was before, or the happening is a stop request
that finds it live. -/
theorem askedToStop_snoc :
    AskedToStop (hs ++ [x]) token ↔
      AskedToStop hs token ∨ (x = .stopAsked true ∧ LiveIn hs token) :=
  exists_cons_snoc

end History

end FormRehearsal
