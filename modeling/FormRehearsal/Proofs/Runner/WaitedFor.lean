/-
# Runs that are waited for

An idle runner starts a run and is left alone until the run ends. It gives the report of the run at
the instant at which the run ends, not before, and nothing else; then it is idle again. What the
report says is what the program comes to when it is carried out.

* `Runner.RunsTo` : what comes of a run that is waited for;
* `Owned.runsTo` : what it comes to is what its program comes to.
-/
import FormRehearsal.Proofs.Run.CarryingOut
import FormRehearsal.Proofs.Runner.Exclusion
import FormRehearsal.Proofs.Runner.Passing

namespace FormRehearsal

variable {σ : Type}

/-! ## Parts of stories that end -/

namespace Story.EndsWith

variable {story : Story σ} {ending : Ending} {report : Report} {s : σ}

/-- The report is given at the end of a story. -/
theorem reports_upTo (h : EndsWith story ending report s) (t : Nat) :
    Story.reports (story.upTo t) = if report.finishedAt ≤ t then [report] else [] := by
  obtain ⟨before, rfl, hreports, hle⟩ := h
  by_cases ht : report.finishedAt ≤ t
  · rw [if_pos ht, Story.upTo_of_le, Story.reports_append, hreports]
    · rfl
    · intro e he
      rcases List.mem_append.1 he with he | he
      · exact Nat.le_trans (hle e he) ht
      · obtain rfl := List.mem_singleton.1 he
        exact ht
  · -- what is told until then is part of what comes before the end
    rw [if_neg ht, Story.upTo, List.takeWhile_append]
    have hlast : [(⟨report.finishedAt, .ended ending report, s⟩ : Entry σ)].takeWhile
        (·.instant ≤ t) = [] := List.takeWhile_cons_of_neg (by simpa using ht)
    have hpart : Story.reports (before.takeWhile (·.instant ≤ t)) = [] := by
      apply List.flatMap_eq_nil_iff.2
      intro e he
      exact List.flatMap_eq_nil_iff.1 hreports e (List.takeWhile_subset _ he)
    split
    · rw [hlast, List.append_nil]
      exact hreports
    · exact hpart

/-- The surface at the end of a story. -/
theorem surface_upTo (h : EndsWith story ending report s) (start : σ) {t : Nat}
    (ht : report.finishedAt ≤ t) : Story.surface start (story.upTo t) = s := by
  obtain ⟨before, rfl, -, hle⟩ := h
  rw [Story.upTo_of_le, Story.surface_append]
  · rfl
  · intro e he
    rcases List.mem_append.1 he with he | he
    · exact Nat.le_trans (hle e he) ht
    · obtain rfl := List.mem_singleton.1 he
      exact ht

end Story.EndsWith

namespace Runner

variable [Surface σ]

/-- What a runner does that starts a run and is left alone until the run ends. -/
structure RunsTo (r : Runner σ) (program : Program) (report : Report) (after : Runner σ) :
    Prop where
  accepted : (r.start program).answer = .ok ⟨r.lastSerial + 1⟩
  /-- the report is given when the run ends, and not before -/
  endings : ∀ t, r.now ≤ t → ((r.start program).runner.elapse t).endings =
    if report.finishedAt ≤ t then [(⟨r.lastSerial + 1⟩, report)] else []
  /-- nothing is done to the surface after that -/
  surface : ∀ t, report.finishedAt ≤ t →
    ((r.start program).runner.elapse t).runner.surface = after.surface
  now : after.now = report.finishedAt
  idle : after.running = false
  /-- this is the runner that is left when the run ends -/
  left : ((r.start program).runner.elapse report.finishedAt).runner = after

/-- A runner with one run settles: it has the run or its report. -/
theorem length_answer_settle {r : Runner σ} {run : Run} (h : r.runs = [run]) :
    r.settle.answer.length + r.settle.runner.runs.length = 1 := by
  obtain ⟨-, hanswer, -, hruns, -⟩ := settles h
  rw [hanswer, hruns]
  cases (run.advance (r.moment run.token) r.surface).state <;> rfl

/-- A runner with one run has the run or its report after some time. -/
theorem length_endings_elapse {r : Runner σ} {run : Run} (h : r.runs = [run]) (t : Nat) :
    (r.elapse t).endings.length + (r.elapse t).runner.runs.length = 1 := by
  have hsettle := length_answer_settle h
  fun_induction elapsing r t generalizing run with
  | case1 r hn =>
    rw [elapse]
    simp only [hn]
    exact hsettle
  | case2 r wake hn hw ih =>
    rw [elapse]
    simp only [hn, if_pos hw]
    rw [List.length_append]
    rcases hruns : r.settle.runner.runs with _ | ⟨next, _ | _⟩
    · -- nothing is left that could wake up
      rw [nextWake?, hruns] at hn
      cases hn
    · -- the run goes on, and there is no report yet
      have hlater := ih hruns (length_answer_settle hruns)
      rw [hruns, List.length_singleton] at hsettle
      simp only [hruns] at hlater
      omega
    · rw [hruns, List.length_cons, List.length_cons] at hsettle
      omega
  | case3 r wake hn hw =>
    rw [elapse]
    simp only [hn, if_neg hw]
    exact hsettle

omit [Surface σ] in
/-- A start takes no time. -/
theorem now_start {r : Runner σ} (hr : r.running = false) (program : Program) :
    (r.start program).runner.now = r.now := by
  rw [start_eq_of_idle hr]

/-- Letting time pass is a sequence of moves. -/
theorem afterAll_elapsing (r : Runner σ) (t : Nat) :
    r.afterAll (r.elapsing t) = (r.elapse t).runner :=
  congrArg Passage.runner (passage_elapsing r t)

end Runner

variable [Surface σ]

theorem Owned.afterAll {w : World σ} (h : Owned w.runner w.happenings) (moves : List (Move σ)) :
    Owned (w.afterAll moves).runner (w.afterAll moves).happenings :=
  World.afterAll_induction (P := fun w => Owned w.runner w.happenings)
    (fun _ move h => h.after move) h moves

/-! ## Runs that are waited for -/

namespace Owned

variable {r : Runner σ} {hs : List (Happening σ)} {program : Program} {up : Upshot σ}

omit [Surface σ] in
/-- A start of an idle runner leaves one run. -/
theorem runs_start (h : Owned r hs) (hr : r.running = false) (program : Program) :
    (r.start program).runner.runs = [Run.claim ⟨r.lastSerial + 1⟩ program r.now] := by
  rw [Runner.start_eq_of_idle hr, h.runs_of_idle hr]
  rfl

/-- An idle runner that starts a run and is left alone tells the story of the run. -/
theorem tells_start (h : Owned r hs) (hr : r.running = false) (program : Program) :
    (r.start program).runner.Tells ⟨r.lastSerial + 1⟩
      (Run.story ⟨r.now, r.policy, false⟩ (Run.claim ⟨r.lastSerial + 1⟩ program r.now)
        r.surface) := by
  have htells := Runner.tells_story _ _ (h.runs_start hr program)
  have hmoment : (r.start program).runner.moment ⟨r.lastSerial + 1⟩ =
      ⟨r.now, r.policy, false⟩ := by
    rw [Runner.moment, Runner.start_eq_of_idle hr, ← h.not_cancelled_of_lt (Nat.lt_succ_self _)]
    rfl
  have hsurface : (r.start program).runner.surface = r.surface := by
    rw [Runner.start_eq_of_idle hr]
  rw [show (Run.claim ⟨r.lastSerial + 1⟩ program r.now).token = ⟨r.lastSerial + 1⟩ from rfl,
    hmoment, hsurface] at htells
  exact htells

/-- The report is given at the instant to which the program comes. -/
theorem endings_start (h : Owned r hs) (hr : r.running = false)
    (hc : CarriesOut r.policy program r.now r.surface up) {t : Nat} (ht : r.now ≤ t) :
    ((r.start program).runner.elapse t).endings =
      if up.instant ≤ t then
        [(⟨r.lastSerial + 1⟩, up.report program.length [] r.now)] else [] := by
  have hends := Run.endsWith_story_claimed hc ⟨r.lastSerial + 1⟩ r.now
  rw [(h.tells_start hr program).endings t ((Runner.now_start hr program).symm ▸ ht)]
  show List.map _ (Story.reports (Story.upTo (Run.story _ ⟨_, _, _, _, _⟩ _) t)) = _
  rw [hends.reports_upTo]
  show List.map _ (if up.instant ≤ t then _ else _) = _
  split <;> rfl

/-- From that instant on the surface is that to which the program comes. -/
theorem surface_start (h : Owned r hs) (hr : r.running = false)
    (hc : CarriesOut r.policy program r.now r.surface up) {t : Nat} (ht : up.instant ≤ t) :
    ((r.start program).runner.elapse t).runner.surface = up.surface := by
  have hends := Run.endsWith_story_claimed hc ⟨r.lastSerial + 1⟩ r.now
  have hnow : (r.start program).runner.now ≤ t := by
    rw [Runner.now_start hr]
    exact Nat.le_trans hc.le ht
  rw [(h.tells_start hr program).surface t hnow]
  exact hends.surface_upTo _ ht

/-- **Runs that are waited for.** What a run comes to on an idle runner is what its program comes
to. -/
theorem runsTo {w : World σ} (h : Owned w.runner w.happenings) (hr : w.runner.running = false)
    (hc : CarriesOut w.runner.policy program w.runner.now w.runner.surface up) :
    ∃ moves, w.runner.RunsTo program (up.report program.length [] w.runner.now)
        (w.afterAll moves).runner ∧
      (w.afterAll moves).runner.surface = up.surface := by
  -- starting the run and letting time pass are moves
  have hafter : (w.afterAll (.start program ::
      (w.runner.start program).runner.elapsing up.instant)).runner =
        ((w.runner.start program).runner.elapse up.instant).runner := by
    rw [World.afterAll_eq]
    exact Runner.afterAll_elapsing _ _
  have hsurface := h.surface_start hr hc (Nat.le_refl up.instant)
  refine ⟨_, ?_, hafter ▸ hsurface⟩
  rw [hafter]
  constructor
  case accepted => rw [Runner.start_eq_of_idle hr]
  case endings => exact fun t ht => h.endings_start hr hc ht
  case surface =>
    intro t ht
    rw [h.surface_start hr hc ht, hsurface]
  case left => rfl
  case now =>
    rw [Runner.now_elapse, Runner.now_start hr]
    exact Nat.max_eq_right hc.le
  case idle =>
    -- the report was given, so no run is left
    have hlength := Runner.length_endings_elapse (h.runs_start hr program) up.instant
    rw [h.endings_start hr hc hc.le, if_pos (Nat.le_refl _)] at hlength
    have hnil : ((w.runner.start program).runner.elapse up.instant).runner.runs = [] := by
      simpa using hlength
    rw [← hafter] at hnil ⊢
    have howned := h.afterAll
      (.start program :: (w.runner.start program).runner.elapsing up.instant)
    exact Bool.eq_false_iff.2 fun hrunning => howned.running_iff.1 hrunning hnil

end Owned

end FormRehearsal
