/-
# What runs write

On a page whose elements are told apart by their selectors, a run that completes has carried out all
steps of its program, one after another, each on the page that the one before left. Its page shows
what the steps make of it, one after another, whatever happens while the run waits but that the page
changes from outside: the values that other steps leave, late elements and lookups in vain make no
difference.

* `Run.writes_carryOn`, `Run.writes_advance` : what a run has carried out shows at every turn;
* `Writing.after` : so it does in a world at every move, until the run is over;
* `writtenBy_afterAll` : the elements and the focus that a run leaves which completes.
-/
import FormRehearsal.Proofs.Page.Writing
import FormRehearsal.Proofs.Runner.Stretches

namespace FormRehearsal

open Page

/-! ## Pages and programs -/

/-- No two elements of a page share a selector, and each selector stands for itself alone. -/
structure Page.Apart (p : Page) : Prop where
  distinct : p.selectors.Nodup
  single : ∀ s ∈ p.selectors, Single s

/-- The selectors of a program are those of elements of a page. -/
def Program.Names (program : Program) (p : Page) : Prop :=
  ∀ raw ∈ program, ∀ step, raw.DecodesTo step → ∀ s, step.selector = some s → s ∈ p.selectors

/-- On such a page, the selectors of the program stand for themselves alone. -/
theorem Program.Names.single {program : Program} {p : Page} (h : program.Names p) (hp : p.Apart)
    {raw : Instruction} (hraw : raw ∈ program) {step : Step} (hd : raw.DecodesTo step) :
    ∀ s, step.selector = some s → Single s :=
  fun s hs => hp.single s (h raw hraw step hd s hs)

/-- The steps of a program were carried out on a page, one after another, and left another one. -/
def Page.Carried (start : Page) (program : Program) (p : Page) : Prop :=
  ∃ steps, List.Forall₂ Instruction.DecodesTo program steps ∧
    start.Becomes (steps.foldl View.carry start.view) p

namespace Page.Carried

variable {start p q : Page} {program : Program}

theorem nil (start : Page) : start.Carried [] start := ⟨[], .nil, .refl start⟩

/-- The selectors of the elements are what they were. -/
theorem distinct (h : start.Carried program p) (hstart : start.Apart) : p.selectors.Nodup := by
  obtain ⟨steps, -, hp⟩ := h
  exact selectors_congr hp.layout ▸ hstart.distinct

/-- One more step was carried out. -/
theorem snoc (h : start.Carried program p) {raw : Instruction} {step : Step}
    (hd : raw.DecodesTo step) (hq : p.Becomes (p.view.carry step) q) :
    start.Carried (program ++ [raw]) q := by
  obtain ⟨steps, hsteps, hp⟩ := h
  refine ⟨steps ++ [step], List.rel_append hsteps (.cons hd .nil), hp.layout.trans hq.layout, ?_⟩
  rw [hq.view, hp.view, List.foldl_append]
  rfl

end Page.Carried

/-! ## Runs -/

/-- What a run has carried out of a program shows on a page, and so does what it has done of the
step that waits. -/
def Run.Writing (run : Run) (start : Page) (program : Program) (p : Page) : Prop :=
  match run.stage with
  | .claimed rest => rest = program ∧ start.Carried [] p
  | .waiting step _ wake hold rest => ∃ begun raw before, program = begun ++ raw :: rest ∧
    start.Carried begun before ∧ raw.DecodesTo step ∧ step.Stands before (.waiting wake hold) p

/-- A segment leaves what its run has carried out, and all of the program if the run completes. -/
structure Segment.Writes (start : Page) (program : Program) (g : Segment Page) : Prop where
  running : ∀ next, g.state = .running next → next.Writing start program g.surface
  completed : ∀ report, g.state = .ended report → report.outcome = .completed →
    start.Carried program g.surface

/-- A run waits with what it has carried out. -/
theorem Segment.writes_running {start p : Page} {program : Program} {events : List StatusEvent}
    {run : Run} (h : run.Writing start program p) :
    Segment.Writes start program ⟨events, .running run, p⟩ where
  running := by
    intro next hs
    cases hs
    exact h
  completed := fun _ hs => by cases hs

/-- What is said makes no difference. -/
theorem Segment.Writes.after {start : Page} {program : Program} {g : Segment Page}
    (h : g.Writes start program) (events : List StatusEvent) :
    (g.after events).Writes start program := ⟨h.running, h.completed⟩

namespace Run

variable {start p : Page} {program : Program} {m : Moment}

theorem writes_conclude {run : Run} {outcome : Outcome}
    (h : outcome = .completed → start.Carried program p) :
    (run.conclude m.now outcome p).Writes start program where
  running := fun _ hs => by cases hs
  completed := by
    intro report hs hc
    cases hs
    exact h hc

/-- A run that an error ends does not complete. -/
theorem writes_conclude_ofError {run : Run} {e : RunError} :
    (run.conclude m.now (.ofError e) p).Writes start program := by
  refine writes_conclude fun he => ?_
  unfold Outcome.ofError at he
  split at he <;> cases he

variable (hstart : start.Apart) (hnames : program.Names start)
include hstart hnames

/-- The steps that are left are carried out one after another on what the others left. -/
theorem writes_carryOn (run : Run) {begun rest : Program} (hp : p.Sound)
    (hrest : program = begun ++ rest) (h : start.Carried begun p) :
    (carryOn m run rest p).Writes start program := by
  induction rest generalizing run begun p with
  | nil =>
    rw [List.append_nil] at hrest
    exact writes_conclude fun _ => hrest ▸ h
  | cons raw rest ih =>
    -- how far the step has come that is begun
    have stands : ∀ {kind step result left}, raw.kind = .ok kind →
        Step.decode kind raw = .ok step → (step.start m).run p = (result, left) →
          step.ComesToStand p (result, left) ∧ left.Sound := by
      intro kind step result left hk hd hr
      have hraw : raw ∈ program := by simp [hrest]
      have hsingle := hnames.single hstart hraw ⟨kind, hk, hd⟩
      have hstands := stands_start (m := m) (h.distinct hstart) hsingle ⟨kind, hk, hd⟩ hp
      have hsound := hp.acted (keeps_start keeps_acted.frames m step p)
      rw [hr] at hstands hsound
      exact ⟨hstands, hsound⟩
    cases Run.beginning m raw p with
    | stopped hs =>
      rw [carryOn, if_pos hs]
      exact writes_conclude_ofError
    | unknown e hs hk =>
      simp only [carryOn, hs, hk]
      exact writes_conclude_ofError
    | undecodable kind e hs hk hd =>
      simp only [carryOn, hs, hk, hd]
      exact writes_conclude_ofError.after _
    | failed kind step e left hs hk hd hr =>
      simp only [carryOn, hs, hk, hd, hr]
      exact writes_conclude_ofError.after _
    | finished kind step left hs hk hd hr =>
      simp only [carryOn, hs, hk, hd, hr]
      obtain ⟨hstands, hsound⟩ := stands hk hd hr
      refine (ih _ hsound ?_ (h.snoc ⟨kind, hk, hd⟩ hstands)).after _
      rw [hrest, List.append_assoc, List.singleton_append]
    | waiting kind step wake hold left hs hk hd hr =>
      simp only [carryOn, hs, hk, hd, hr]
      have hnext : Run.Writing { run with stage := .waiting step m.now wake hold rest } start
          program left := ⟨begun, raw, p, hrest, h, ⟨kind, hk, hd⟩, (stands hk hd hr).1⟩
      exact Segment.writes_running hnext

/-- **Going on.** At every turn of a run, what it has carried out shows on its page. -/
theorem writes_advance {run : Run} (hp : p.Sound) (h : run.Writing start program p) :
    (run.advance m p).Writes start program := by
  obtain ⟨token, total, done, startedAt, stage⟩ := run
  cases stage with
  | claimed rest =>
    obtain ⟨rfl, hcarried⟩ := h
    exact (writes_carryOn hstart hnames _ hp rfl hcarried).after _
  | waiting step since wake hold rest =>
    obtain ⟨begun, raw, before, hrest, hcarried, hd, hstands⟩ := h
    simp only [advance]
    by_cases hw : m.resumes wake = true
    · rw [if_pos hw]
      have hraw : raw ∈ program := by simp [hrest]
      have hsingle := hnames.single hstart hraw hd
      have hresumed := stands_resume (m := m) (hcarried.distinct hstart) hsingle hp hstands
      have hsound := hp.acted (keeps_resume keeps_acted.frames m hold p)
      rcases hr : (hold.resume m).run p with ⟨e | _ | ⟨later, more⟩, left⟩ <;>
        rw [hr] at hresumed hsound
      · exact writes_conclude_ofError
      · refine writes_carryOn hstart hnames _ hsound ?_ (hcarried.snoc hd hresumed)
        rw [hrest, List.append_assoc, List.singleton_append]
      · exact Segment.writes_running ⟨begun, raw, before, hrest, hcarried, hd, hresumed⟩
    · rw [if_neg hw]
      split
      · exact writes_conclude_ofError
      · exact Segment.writes_running ⟨begun, raw, before, hrest, hcarried, hd, hstands⟩

end Run

/-! ## Worlds -/

/-- A run was claimed under a token, and as long as it is not over, what it has carried out shows on
the page. -/
structure Writing (start : Page) (program : Program) (token : Token) (w : World Page) : Prop where
  track : OnTrack w
  claimed : .claimed token program ∈ w.happenings
  live : ∀ run ∈ w.runner.runs, run.token = token → run.Writing start program w.runner.surface

namespace Writing

variable {start : Page} {program : Program} {token : Token} {w : World Page}

/-- Nothing of a run that is claimed was carried out, and nothing of it shows. -/
theorem claim (h : OnTrack w) {move : Move Page}
    (hclaim : (w.runner.move move).answer = .claimed token program) :
    Writing w.runner.surface program token (w.after move) := by
  cases h.keeps.owned.comes move with
  | idle hnone _ _ _ _ => exact absurd hclaim (hnone token program)
  | claimed other hr hm =>
    have hrunner := w.runner_after move
    rw [hm] at hclaim
    cases hclaim
    rw [hm, Runner.start_eq_of_idle hr] at hrunner
    constructor
    case track => exact h.claim hr hm
    case claimed =>
      rw [World.happenings_after, hm]
      exact List.mem_append_right _ (List.mem_singleton.2 rfl)
    case live =>
      intro run hrun _
      rw [hrunner, h.keeps.owned.runs_of_idle hr] at hrun
      obtain rfl := List.mem_singleton.1 hrun
      rw [hrunner]
      exact ⟨rfl, .nil _⟩
  | wentOn _ _ _ _ _ _ hm _ _ =>
    rw [hm] at hclaim
    cases hclaim
  | changed f hf =>
    rw [hf] at hclaim
    cases hclaim

variable (hstart : start.Apart) (hnames : program.Names start)
include hstart hnames

/-- **Moves.** Every move leaves on the page what the run has carried out, but for a change from
outside. -/
theorem after (h : Writing start program token w) {move : Move Page}
    (hmove : ∀ f, move ≠ .change f) : Writing start program token (w.after move) := by
  have hfrom : move.FromOutside := by
    cases move with
    | change f => exact absurd rfl (hmove f)
    | _ => trivial
  constructor
  case track => exact h.track.after hfrom
  case claimed =>
    rw [World.happenings_after]
    exact List.mem_append_left _ h.claimed
  case live =>
    have howned := h.track.keeps.owned
    intro run hrun htoken
    rw [World.runner_after] at hrun ⊢
    cases howned.comes move with
    | idle _ _ hruns hsurface _ =>
      rw [hsurface]
      exact h.live run (hruns run hrun) htoken
    | claimed other hr hm =>
      -- the run that is claimed has a new token
      rw [hm, Runner.start_eq_of_idle hr, howned.runs_of_idle hr] at hrun
      obtain rfl := List.mem_singleton.1 hrun
      obtain rfl : ⟨w.runner.lastSerial + 1⟩ = token := htoken
      exact absurd h.claimed (howned.numbered.not_claimed (Nat.lt_succ_self _) program)
    | wentOn current report? events r hruns hcurrent hm hsurface hnext =>
      rw [hm] at hrun ⊢
      obtain ⟨hsame, -, hs⟩ := hnext run hrun
      have hlive := h.live current (hruns ▸ List.mem_singleton.2 rfl)
        (hcurrent.trans (hsame.symm.trans htoken))
      show run.Writing start program r.surface
      rw [hsurface]
      exact (Run.writes_advance hstart hnames h.track.reached.sound hlive).running run hs
    | changed f hf => exact absurd hf (hmove f)

theorem afterAll (h : Writing start program token w) {moves : List (Move Page)}
    (hmoves : ∀ f, .change f ∉ moves) : Writing start program token (w.afterAll moves) := by
  induction moves generalizing w with
  | nil => exact h
  | cons move moves ih =>
    have hmove : ∀ f, move ≠ .change f := fun f hf => hmoves f (hf ▸ List.mem_cons_self)
    exact ih (h.after hstart hnames hmove) fun f hf => hmoves f (List.mem_cons_of_mem _ hf)

/-- A run that completes has carried out its program. -/
theorem completed (h : Writing start program token w) {report : Report}
    (hends : (w.runner.advance token).answer = [(token, report)])
    (hc : report.outcome = .completed) :
    start.Carried program (w.runner.advance token).runner.surface := by
  cases hf : w.runner.find? token with
  | none =>
    rw [Runner.advance_of_none hf] at hends
    cases hends
  | some run =>
    obtain ⟨-, hruns, hcurrent, rfl⟩ := h.track.keeps.owned.eq_of_find? hf
    have hlive := h.live run (hruns ▸ List.mem_singleton.2 rfl) hcurrent
    have hwrites := Run.writes_advance (m := w.runner.moment w.runner.token) hstart hnames
      h.track.reached.sound hlive
    cases hs : (run.advance (w.runner.moment w.runner.token) w.runner.surface).state with
    | running next =>
      rw [Runner.advance_of_running hruns hcurrent hs] at hends
      cases hends
    | ended ended =>
      rw [Runner.advance_of_ended hruns hcurrent hs] at hends ⊢
      obtain rfl : ended = report := by simpa using hends
      exact hwrites.completed _ hs hc

end Writing

/-- **Writing.** A run that is claimed on a page whose elements are told apart by their selectors,
and that completes after whatever was asked of its runner while the page did not change from
outside, leaves each element with what the steps of its selector made of its value, one after
another, and the focus where a step moved it last. -/
theorem writtenBy_afterAll {p : Page} (hp : p.Reachable) (policy : RunPolicy)
    {before since : List (Move Page)} (hbefore : ∀ move ∈ before, move.FromOutside)
    (hsince : ∀ f, .change f ∉ since) {claim : Move Page} {token : Token} {program : Program}
    {report : Report} :
    let w := (World.fresh p policy).afterAll before
    let going := (w.after claim).afterAll since
    (w.runner.move claim).answer = .claimed token program →
      w.runner.surface.Apart → program.Names w.runner.surface →
      (going.runner.advance token).answer = [(token, report)] → report.outcome = .completed →
      ∃ steps, List.Forall₂ Instruction.DecodesTo program steps ∧
        w.runner.surface.WrittenBy steps (going.runner.advance token).runner.surface := by
  intro w going hclaim hstart hnames hends hc
  have htrack : OnTrack w := onTrack_afterAll hp policy hbefore
  have hgoing := (Writing.claim htrack hclaim).afterAll hstart hnames hsince
  obtain ⟨steps, hsteps, hbecomes⟩ := hgoing.completed hstart hnames hends hc
  exact ⟨steps, hsteps, hbecomes.writtenBy hstart.distinct⟩

/-- A text is appended to a value, and another value is set once its element has appeared; the focus
stays with the first element. A run that is asked for meanwhile is refused. -/
theorem writtenBy_afterAll_late :
    let fixture : PageFixture :=
      { elements := [{ selector := "#a", value := "old" }, { selector := "#b", appearAfter := 300 }]
        focused := some "#b" }
    let program : Program :=
      [[("action", .string "type"), ("selector", .string "#a"), ("text", .string "er"),
          ("clear", .bool false)],
        [("action", .string "setValue"), ("selector", .string "#b"), ("value", .string "x")]]
    let w := (World.fresh fixture.page {}).after (.start program)
    let since : List (Move Page) := [.goOn ⟨1⟩, .start program, .pass 400]
    let going := w.afterAll since
    let p := (going.runner.advance ⟨1⟩).runner.surface
    p.valueOf "#a" = some "older" ∧ p.valueOf "#b" = some "x" ∧ p.focusedSelector = some "#a" ∧
      ∃ steps, List.Forall₂ Instruction.DecodesTo program steps ∧
        fixture.page.WrittenBy steps p := by
  intro fixture program w since going p
  let report : Report :=
    ⟨.completed, 2, [⟨.type, some "#a", 0, 0⟩, ⟨.setValue, some "#b", 0, 400⟩], 0, 400⟩
  have hapart : fixture.page.Apart := ⟨by decide +kernel, by decide +kernel⟩
  have hnames : program.Names fixture.page := by
    rintro raw hraw step ⟨kind, hk, hd⟩ s hs
    rcases List.mem_cons.1 hraw with rfl | hraw
    · cases hk
      cases hd
      cases hs
      decide +kernel
    · obtain rfl := List.mem_singleton.1 hraw
      cases hk
      cases hd
      cases hs
      decide +kernel
  have hends : (going.runner.advance ⟨1⟩).answer = [(⟨1⟩, report)] := by decide +kernel
  have hbefore : ∀ move ∈ ([] : List (Move Page)), move.FromOutside := by simp
  have hsince : ∀ f, .change f ∉ since := by simp [since]
  refine ⟨by decide +kernel, by decide +kernel, by decide +kernel, ?_⟩
  exact writtenBy_afterAll (.fixture fixture) {} hbefore hsince rfl hapart hnames hends rfl

end FormRehearsal
