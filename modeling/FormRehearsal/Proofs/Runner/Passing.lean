/-
# Time that passes, move by move

When time passes a runner goes on with its runs as they are due, clears the badge for those that
were abandoned, and sleeps until the next wait is over. These are moves, and they can be listed: so
a runner that was left alone for a while has a history too, and what it says and reports there is
what it says and reports while time passes.

* `afterAll_eq` : a world after some moves is the runner after them, and the occasions of them;
* `passage_elapsing` : letting time pass is a sequence of moves.
-/
import FormRehearsal.Proofs.Runner.Clock

namespace FormRehearsal

variable {σ : Type}

/-! ## What is said and reported on occasions -/

/-- The report that a happening gives, and the token of the run. -/
def Happening.ending? : Happening σ → Option (Token × Report)
  | wentOn token _ report? => report?.map fun report => (token, report)
  | _ => none

/-- What is said on some occasions, and when. -/
def told (occasions : List (Occasion σ)) : List TimedEvent :=
  occasions.flatMap fun o => StatusEvent.toldAt o.instant o.events

/-- The runs that end on some occasions. -/
def endings (occasions : List (Occasion σ)) : Endings :=
  occasions.flatMap (·.happening.ending?.toList)

variable [Surface σ]

namespace Runner

/-- The runner after some moves. -/
def afterAll (r : Runner σ) : List (Move σ) → Runner σ
  | [] => r
  | move :: moves => (r.move move).runner.afterAll moves

/-- What comes of some moves, one after another. -/
def occasions (r : Runner σ) : List (Move σ) → List (Occasion σ)
  | [] => []
  | move :: moves =>
    ⟨r.now, (r.move move).answer, (r.move move).events⟩ :: (r.move move).runner.occasions moves

/-- What is reported and said by some moves, and the runner after them. -/
def passage (r : Runner σ) (moves : List (Move σ)) : Passage σ :=
  ⟨endings (r.occasions moves), told (r.occasions moves), r.afterAll moves⟩

end Runner

/-- The runner of a world and its history after some moves. -/
theorem World.afterAll_eq (w : World σ) (moves : List (Move σ)) :
    w.afterAll moves = ⟨w.runner.afterAll moves, w.history ++ w.runner.occasions moves⟩ := by
  induction moves generalizing w with
  | nil =>
    rw [Runner.occasions, List.append_nil]
    rfl
  | cons move moves ih =>
    show (w.after move).afterAll moves = _
    rw [ih, after, List.append_assoc]
    rfl

namespace Runner

variable (r : Runner σ)

theorem passage_cons (move : Move σ) (moves : List (Move σ)) :
    r.passage (move :: moves) =
      ((r.move move).runner.passage moves).after (r.move move).answer.ending?.toList
        (StatusEvent.toldAt r.now (r.move move).events) := rfl

/-- Nothing comes after what came before. -/
theorem after_passage_nil (before : Endings) (events : List TimedEvent) :
    (r.passage []).after before events = ⟨before, events, r⟩ := by
  simp [passage, Passage.after, occasions, told, endings, afterAll]

theorem afterAll_append (a b : List (Move σ)) :
    r.afterAll (a ++ b) = (r.afterAll a).afterAll b := by
  induction a generalizing r with
  | nil => rfl
  | cons move a ih => exact ih _

theorem occasions_append (a b : List (Move σ)) :
    r.occasions (a ++ b) = r.occasions a ++ (r.afterAll a).occasions b := by
  induction a generalizing r with
  | nil => rfl
  | cons move a ih => exact congrArg (_ :: ·) (ih _)

theorem passage_append (a b : List (Move σ)) :
    r.passage (a ++ b) =
      ((r.passage a).runner.passage b).after (r.passage a).endings (r.passage a).events := by
  simp only [passage, Passage.after, afterAll_append, occasions_append, told, endings,
    List.flatMap_append]

/-! ## Settling -/

/-- Going on with a run gives one report at most, that of the run. -/
theorem ending?_goOn (token : Token) :
    (r.move (.goOn token)).answer.ending?.toList = (r.advance token).answer := by
  simp only [move, Happening.ending?, advance]
  split
  · rfl
  · split <;> rfl

theorem passage_goOn (tokens : List Token) :
    r.passage (tokens.map .goOn) =
      ⟨(r.advanceAll tokens).answer, StatusEvent.toldAt r.now (r.advanceAll tokens).events,
        (r.advanceAll tokens).runner⟩ := by
  induction tokens generalizing r with
  | nil => rfl
  | cons token tokens ih =>
    rw [List.map_cons, passage_cons, ending?_goOn]
    show Passage.after ((r.advance token).runner.passage (tokens.map .goOn)) _ _ = _
    rw [ih, now_advance]
    simp only [Passage.after, advanceAll, StatusEvent.toldAt, List.map_append]
    rfl

/-- The badge is cleared as often as there is reason to. -/
theorem passage_clear {n : Nat} (h : r.clearings = n) :
    r.passage (List.replicate n .clear) =
      ⟨[], StatusEvent.toldAt r.now (List.replicate n .idleBadge), { r with clearings := 0 }⟩ := by
  induction n generalizing r with
  | zero =>
    have hr : { r with clearings := 0 } = r := by rw [← h]
    rw [hr]
    rfl
  | succ n ih =>
    have hm : r.move .clear = ⟨.elsewhere, [.idleBadge], { r with clearings := n }⟩ := by
      simp [move, h]
    rw [List.replicate_succ, passage_cons, hm, ih _ rfl]
    rfl

/-- The moves by which a runner settles: it goes on with its runs, then clears the badge. -/
def settling : List (Move σ) :=
  let tokens := r.runs.map (·.token)
  tokens.map .goOn ++ List.replicate (r.advanceAll tokens).runner.clearings .clear

/-- Settling is a sequence of moves. -/
theorem passage_settling :
    r.passage r.settling =
      ⟨r.settle.answer, StatusEvent.toldAt r.now r.settle.events, r.settle.runner⟩ := by
  rw [settling, passage_append, passage_goOn, passage_clear _ rfl]
  simp only [Passage.after, List.append_nil]
  congr 1
  rw [now_advanceAll]
  exact List.map_append.symm

/-! ## Letting time pass -/

/-- The moves that let time pass up to an instant. -/
def elapsing (r : Runner σ) (instant : Nat) : List (Move σ) :=
  match r.settle.runner.nextWake? with
  | none => r.settling ++ [.pass instant]
  | some wake =>
    if r.now < wake ∧ wake ≤ instant then
      r.settling ++ .pass wake :: { r.settle.runner with now := wake }.elapsing instant
    else r.settling ++ [.pass instant]
termination_by instant - r.now

/-- A runner that settles and sleeps. -/
theorem passage_settling_pass (instant : Nat) (moves : List (Move σ)) :
    r.passage (r.settling ++ .pass instant :: moves) =
      ({ r.settle.runner with now := max r.now instant }.passage moves).after r.settle.answer
        (StatusEvent.toldAt r.now r.settle.events) := by
  rw [passage_append, passage_settling, passage_cons]
  simp only [move, now_settle]
  rfl

/-- **Time.** Letting time pass is a sequence of moves: it gives the same reports, the same is said
at the same instants, and the runner is the same afterwards. -/
theorem passage_elapsing (instant : Nat) : r.passage (r.elapsing instant) = r.elapse instant := by
  fun_induction elapsing r instant with
  | case1 r hn =>
    rw [passage_settling_pass, after_passage_nil, elapse]
    simp only [hn]
  | case2 r wake hn hw ih =>
    rw [passage_settling_pass, elapse, Nat.max_eq_right (Nat.le_of_lt hw.1), ih]
    simp only [hn, if_pos hw]
    rfl
  | case3 r wake hn hw =>
    rw [passage_settling_pass, after_passage_nil, elapse]
    simp only [hn, if_neg hw]

end Runner

end FormRehearsal
