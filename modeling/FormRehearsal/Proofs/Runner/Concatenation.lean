/-
# One program after another

A runner that carries out two programs as one does what it does when it carries out the second one
after the first, unless the first does not complete: then it does what the first one does. Nothing
is handed from step to step but the surface and the instant, and no step looks at those that follow
it.

* `RunsInSequence` : a run of two programs as one, and the runs of each of them;
* `runsInParts_afterAll` : how they compare, on any idle runner.
-/
import FormRehearsal.Page.Fixture
import FormRehearsal.Proofs.Page.Appearance
import FormRehearsal.Proofs.Runner.WaitedFor

namespace FormRehearsal

/-- The report of one run after another as if they had been one. -/
def Report.andThen (first next : Report) : Report :=
  { next with
    total := first.total + next.total
    actions := first.actions ++ next.actions
    startedAt := first.startedAt }

/-- The report of a run with steps that it never came to. -/
def Report.withMore (report : Report) (steps : Nat) : Report :=
  { report with total := report.total + steps }

/-- What a page journals between two states of it. -/
def Page.Journals (before after : Page) (entries : List PageEvent) : Prop :=
  after.journal = before.journal ++ entries

theorem CarriesOut.exists_journals {policy : RunPolicy} {program : Program} {now : Nat} {p : Page}
    {up : Upshot Page} (h : CarriesOut policy program now p up) :
    ∃ entries, p.Journals up.surface entries := by
  obtain ⟨entries, he⟩ := h.keeps Page.keeps_journal.frames
  exact ⟨entries, he.symm⟩

/-- A run of two programs as one compares with a run of the first that completes and a run of the
second after it: it reports the outcome of the second, the actions of both, and its page and its
journal are theirs. -/
structure RunsInSequence (start middle last whole : Runner Page) (program more : Program)
    (first next : Report) : Prop where
  second : middle.RunsTo more next last
  both : start.RunsTo (program ++ more) (first.andThen next) whole
  surface : whole.surface = last.surface
  journal : ∃ before after, start.surface.Journals middle.surface before ∧
    middle.surface.Journals last.surface after ∧
    start.surface.Journals whole.surface (before ++ after)

/-- Two programs that are run as one in a world do what they do when they are run one after the
other; if the first does not complete, they do what it does. -/
def World.RunsInParts (w : World Page) (program more : Program) : Prop :=
  ∃ (first : Report) (toMiddle toWhole : List (Move Page)),
    let middle := w.afterAll toMiddle
    let whole := w.afterAll toWhole
    w.runner.RunsTo program first middle.runner ∧
    ((first.outcome = .completed ∧ ∃ (next : Report) (toLast : List (Move Page)),
        RunsInSequence w.runner middle.runner (middle.afterAll toLast).runner whole.runner
          program more first next) ∨
      (first.outcome ≠ .completed ∧
        w.runner.RunsTo (program ++ more) (first.withMore more.length) whole.runner ∧
        whole.runner.surface = middle.runner.surface))

/-- **Concatenation.** On an idle runner, whatever happened to it before, any two programs that are
run as one do what they do when they are run one after the other. -/
theorem runsInParts_afterAll (page : Page) (policy : RunPolicy) (moves : List (Move Page))
    (program more : Program)
    (hidle : ((World.fresh page policy).afterAll moves).runner.running = false) :
    ((World.fresh page policy).afterAll moves).RunsInParts program more := by
  let w := (World.fresh page policy).afterAll moves
  have howned : Owned w.runner w.happenings := owned_afterAll page policy moves
  obtain ⟨up, hup⟩ := exists_carriesOut w.runner.policy program w.runner.now w.runner.surface
  obtain ⟨toMiddle, hfirst, hmiddle⟩ := howned.runsTo hidle hup
  by_cases hending : up.ending = .exhausted
  · -- the second program begins with the page and at the instant at which the first one ended
    obtain ⟨up', hup'⟩ := exists_carriesOut w.runner.policy more up.instant up.surface
    have hpolicy : (w.afterAll toMiddle).runner.policy = w.runner.policy := by
      rw [← World.afterAll_append, World.policy_afterAll, World.policy_afterAll]
    have hnext : CarriesOut (w.afterAll toMiddle).runner.policy more
        (w.afterAll toMiddle).runner.now (w.afterAll toMiddle).runner.surface up' := by
      rw [hpolicy, hfirst.now, hmiddle]
      exact hup'
    obtain ⟨toLast, hsecond, hlast⟩ := (howned.afterAll toMiddle).runsTo hfirst.idle hnext
    obtain ⟨toWhole, hwhole, hsurface⟩ :=
      howned.runsTo hidle (hup.append_of_exhausted hending hup')
    obtain ⟨before, hbefore⟩ := hup.exists_journals
    obtain ⟨after, hafter⟩ := hup'.exists_journals
    refine ⟨_, toMiddle, toWhole, hfirst, .inl ⟨Ending.outcome_eq_completed.2 hending,
      up'.report more.length [] (w.afterAll toMiddle).runner.now, toLast, ?_⟩⟩
    constructor
    case second => exact hsecond
    case both =>
      rw [List.length_append] at hwhole
      exact hwhole
    case surface => rw [hsurface, hlast]
    case journal =>
      rw [hmiddle, hlast, hsurface]
      refine ⟨before, after, hbefore, hafter, ?_⟩
      rw [Page.Journals, hafter, hbefore, List.append_assoc]
  · obtain ⟨toWhole, hwhole, hsurface⟩ := howned.runsTo hidle (hup.append_of_ne hending more)
    refine ⟨_, toMiddle, toWhole, hfirst, .inr ⟨mt Ending.outcome_eq_completed.1 hending, ?_, ?_⟩⟩
    · rw [List.length_append] at hwhole
      exact hwhole
    · rw [hsurface, hmiddle]

/-- A pause and then an unknown action, after a run that was abandoned. -/
theorem runsInParts_unknown_action :
    let program : Program := [[("action", .string "wait"), ("ms", .string "300")]]
    let w := (World.fresh (PageFixture.page {}) {}).afterAll
      [.start program, .goOn ⟨1⟩, .pass 50, .abandon ⟨1⟩ true]
    w.runner.running = false ∧ w.RunsInParts program [[("action", .string "nothing")]] := by
  intro program w
  exact ⟨rfl, runsInParts_afterAll (PageFixture.page {}) {}
    [.start program, .goOn ⟨1⟩, .pass 50, .abandon ⟨1⟩ true] program
    [[("action", .string "nothing")]] rfl⟩

end FormRehearsal
