/-
# The status protocol of a run

Whoever watches a runner sees of a run that has ended: the running badge, that the run has begun,
one line for each step that was announced, how the run ended, the idle badge. How many steps were
announced and carried out is told by the reason for the end.

* `protocol_afterAll` : this holds of every run that has ended, in every world that is reached, and
  the run that is live ends if enough time passes.
-/
import FormRehearsal.Page.Fixture
import FormRehearsal.Proofs.Runner.Clock
import FormRehearsal.Proofs.Runner.Said

namespace FormRehearsal

/-- No more steps are announced than there are; all of them are carried out only when none is left.
-/
theorem Ending.Fits.bounds {program : Program} {done announced : Nat} {ending : Ending}
    (h : ending.Fits program done announced) :
    announced ≤ program.length ∧ (done = program.length ↔ ending = .exhausted) ∧
      (done = program.length → announced = program.length) := by
  -- a step that is there comes before the end
  have before : ∀ {raw : Instruction}, program[done]? = some raw → done < program.length :=
    fun hraw => (List.getElem?_eq_some_iff.1 hraw).1
  cases ending with
  | exhausted =>
    obtain ⟨rfl, hlength⟩ := h
    exact ⟨Nat.le_of_eq hlength, ⟨fun _ => rfl, fun _ => hlength⟩, id⟩
  | stopped =>
    obtain ⟨rfl, hlt⟩ := h
    refine ⟨Nat.le_of_lt hlt, ⟨fun hd => absurd hd (Nat.ne_of_lt hlt), fun hx => by cases hx⟩, id⟩
  | unknown e =>
    obtain ⟨rfl, raw, hraw, -⟩ := h
    have hlt := before hraw
    refine ⟨Nat.le_of_lt hlt, ⟨fun hd => absurd hd (Nat.ne_of_lt hlt), fun hx => by cases hx⟩, id⟩
  | undecodable e =>
    obtain ⟨rfl, raw, kind, hraw, -⟩ := h
    have hlt := before hraw
    refine ⟨hlt, ⟨fun hd => absurd hd (Nat.ne_of_lt hlt), fun hx => by cases hx⟩, fun hd => ?_⟩
    exact absurd hd (Nat.ne_of_lt hlt)
  | failed e =>
    obtain ⟨rfl, raw, step, hraw, -⟩ := h
    have hlt := before hraw
    refine ⟨hlt, ⟨fun hd => absurd hd (Nat.ne_of_lt hlt), fun hx => by cases hx⟩, fun hd => ?_⟩
    exact absurd hd (Nat.ne_of_lt hlt)

/-- What a run of a program said that ended for a reason, after it announced some steps, and what it
reported. -/
structure Run.KeptProtocol (program : Program) (said : List StatusEvent) (ending : Ending)
    (announced : Nat) (report : Report) : Prop where
  /-- the running badge, the beginning, the steps in order, one line about the end, the idle badge
  -/
  said : said = [.runningBadge, .status "Automation running..."] ++ stepLines program announced ++
    [.status report.outcome.statusText, .idleBadge]
  announced_le : announced ≤ program.length
  total : report.total = program.length
  outcome : report.outcome = ending.outcome
  /-- the run is completed exactly when all steps were carried out -/
  completed : report.outcome = .completed ↔ report.completed = program.length
  /-- then all of them were announced, and the last line says so -/
  all : report.completed = program.length →
    announced = program.length ∧ report.outcome.statusText = "Automation completed."
  /-- as many steps were announced and carried out as the reason says -/
  fits : ending.Fits program report.completed announced
  /-- the last line is about the error that ended the run -/
  error : ∀ e, ending.error? = some e → report.outcome.statusText = "Error: " ++ e.message
  /-- the actions are those that the first steps stand for -/
  actions : CarriedOut program report.actions

theorem Run.Concluded.kept {program : Program} {said : List StatusEvent} {ending : Ending}
    {announced : Nat} {report : Report} (h : Run.Concluded program said ending announced report)
    {m : Moment} (ha : ending.Arises m) :
    Run.KeptProtocol program said ending announced report := by
  obtain ⟨hle, hdone, hall⟩ := h.fits.bounds
  constructor
  case said =>
    rw [h.said, h.outcome]
    rfl
  case announced_le => exact hle
  case total => exact h.total
  case outcome => exact h.outcome
  case completed => rw [h.outcome, Ending.outcome_eq_completed, hdone]
  case all =>
    intro hc
    refine ⟨hall hc, ?_⟩
    rw [h.outcome, Ending.outcome_eq_completed.2 (hdone.1 hc)]
    rfl
  case fits => exact h.fits
  case error =>
    intro e he
    rw [h.outcome]
    exact Ending.statusText_outcome ha he
  case actions => exact h.carriedOut

variable {σ : Type} [Surface σ]

/-- **The status protocol.** Whatever is done to a runner and in whatever order, every run that has
ended kept to the protocol, and it is reported as cancelled only if it was asked to stop. The run
that is live ends if enough time passes. -/
theorem protocol_afterAll (s : σ) (policy : RunPolicy) (moves : List (Move σ)) :
    let w := (World.fresh s policy).afterAll moves
    (∀ token program story report, .claimed token program ∈ w.happenings →
      .wentOn token story (some report) ∈ w.happenings →
        (∃ ending announced, (∃ e ∈ story, e.turn = .ended ending report) ∧
          Run.KeptProtocol program (w.saidBy token) ending announced report) ∧
        (report.outcome = .cancelled → AskedToStop w.happenings token)) ∧
    ∀ token, LiveIn w.happenings token →
      ∃ t report, (w.runner.elapse t).endings = [(token, report)] := by
  intro w
  have h := keeps_afterAll s policy moves
  constructor
  · intro token program story report hclaimed hended
    refine ⟨?_, h.owned.reported token story report hended⟩
    obtain ⟨⟨ending, announced, ⟨e, he, ht⟩, hc⟩, m, harises⟩ :=
      h.ended token program story report hclaimed hended
    exact ⟨ending, announced, ⟨e, he, ht⟩, hc.kept (harises e he ending report ht).1⟩
  · intro token hl
    obtain ⟨hr, rfl⟩ := (h.owned.live token).1 hl
    obtain ⟨run, hruns, htoken⟩ := h.owned.runs_of_running hr
    rw [← htoken]
    exact Runner.exists_endings hruns

/-- A step is carried out after a wait, and the next one names no action that is known; a start that
is refused meanwhile is not said by the run. -/
theorem protocol_unknown_action :
    let program : Program :=
      [[("action", .string "wait"), ("ms", .string "400")], [("action", .string "nothing")]]
    let w := (World.fresh (PageFixture.page {}) {}).afterAll
      [.start program, .goOn ⟨1⟩, .start program, .pass 400, .goOn ⟨1⟩]
    w.saidBy ⟨1⟩ = [.runningBadge, .status "Automation running...", .status "Step 1/2: wait",
        .status "Error: Unknown action: nothing", .idleBadge] ∧
      ∃ ending announced, Run.KeptProtocol program (w.saidBy ⟨1⟩) ending announced
        ⟨.failed "Unknown action: nothing", 2, [⟨.wait, none, 0, 400⟩], 0, 400⟩ := by
  intro program w
  have h := protocol_afterAll (PageFixture.page {}) {}
    [.start program, .goOn ⟨1⟩, .start program, .pass 400, .goOn ⟨1⟩]
  have hclaimed : .claimed ⟨1⟩ program ∈ w.happenings := List.mem_of_getElem? (i := 0) rfl
  have hended : .wentOn ⟨1⟩ (Runner.account ((World.fresh (PageFixture.page {}) {}).afterAll
      [.start program, .goOn ⟨1⟩, .start program, .pass 400]).runner ⟨1⟩)
      (some ⟨.failed "Unknown action: nothing", 2, [⟨.wait, none, 0, 400⟩], 0, 400⟩) ∈
        w.happenings := List.mem_of_getElem? (i := 4) rfl
  obtain ⟨⟨ending, announced, -, hk⟩, -⟩ := h.1 ⟨1⟩ program _ _ hclaimed hended
  refine ⟨?_, ending, announced, hk⟩
  decide +kernel

end FormRehearsal
