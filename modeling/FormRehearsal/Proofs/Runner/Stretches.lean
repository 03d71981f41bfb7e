/-
# Stretches of runs

What a step of a run does lies between the turn at which it is announced and the turns at which it
waits, is carried out or fails. Each of these ends a stretch: it begins on the surface on which the
step was announced, and what the step has come to on another surface ends it. However the run is
interrupted, stopped or abandoned, and however the page changes from outside while it waits, all
stretches of its story are stretches of the courses of its steps. Every step that fails in a run
fails, therefore, in one of the few ways in which a step can fail by itself.

* `Story.Steps.fits`, `Story.Steps.covers` : every turn of a step ends a stretch;
* `strides_advance` : a run that goes on goes on with the course of its step;
* `OnTrack.after` : every move leaves the runs in the courses of their steps;
* `onTrack_afterAll` : so they are in every world that is reached;
* `failsBy_afterAll` : how the steps of runs fail.
-/
import FormRehearsal.Proofs.Page.Course
import FormRehearsal.Proofs.Runner.Said

namespace FormRehearsal

open Page

/-! ## Stories, step by step -/

section Stories

variable {σ : Type}

/-- What a step comes to at a turn: it waits, it is carried out, or it fails. -/
def Turn.result? : Turn → Option (Except ActionError Progress)
  | suspended wake hold => some (.ok (.waiting wake hold))
  | carriedOut _ => some (.ok .finished)
  | ended (.failed e) _ => some (.error e)
  | _ => none

/-- What a step did: the number under which and the surface on which it was announced, what it came
to, and the surface that it left. -/
structure Stretch (σ : Type) where
  number : Nat
  before : σ
  result : Except ActionError Progress
  after : σ

namespace Story

/-- The step that is under way after a turn, by its number and the surface on which it was
announced. -/
def next (current : Option (Nat × σ)) (entry : Entry σ) : Option (Nat × σ) :=
  match entry.turn with
  | .announced number _ _ => some (number, entry.surface)
  | .suspended .. => current
  | _ => none

/-- The stretch that a turn ends, if a step is under way. -/
def stretch? (current : Option (Nat × σ)) (entry : Entry σ) : Option (Stretch σ) :=
  match current, entry.turn.result? with
  | some (number, before), some result => some ⟨number, before, result, entry.surface⟩
  | _, _ => none

theorem stretch?_eq {current : Option (Nat × σ)} {entry : Entry σ} {number : Nat} {before : σ}
    {result : Except ActionError Progress} (hc : current = some (number, before))
    (hr : entry.turn.result? = some result) :
    stretch? current entry = some ⟨number, before, result, entry.surface⟩ := by
  simp only [stretch?, hc, hr]

/-- The stretches of a story that begins while a step is under way, or while none is. -/
def stretchesFrom : Option (Nat × σ) → Story σ → List (Stretch σ)
  | _, [] => []
  | current, entry :: story =>
    (stretch? current entry).toList ++ stretchesFrom (next current entry) story

/-- The stretches of a story. -/
def stretches (story : Story σ) : List (Stretch σ) := stretchesFrom none story

/-- The step that is under way at the end of a story. -/
def current (story : Story σ) : Option (Nat × σ) := story.foldl next none

end Story

end Stories

/-! ## Stretches of courses -/

/-- A stretch is one of the course of a step of a program. -/
def Stretch.Fits (program : Program) (policy : RunPolicy) (x : Stretch Page) : Prop :=
  ∃ i raw step m₀ m, x.number = i + 1 ∧ program[i]? = some raw ∧ raw.DecodesTo step ∧
    x.before.Reachable ∧ m₀.policy = policy ∧ step.Course m₀ x.before m (x.result, x.after)

/-- Every turn of a step in a story ends a stretch that fits the program; a step may be under way
when the story begins. -/
def Story.Steps (program : Program) (policy : RunPolicy) : Option (Nat × Page) → Story Page → Prop
  | _, [] => True
  | current, entry :: story =>
    (∀ result, entry.turn.result? = some result → ∃ number before,
      current = some (number, before) ∧
        Stretch.Fits program policy ⟨number, before, result, entry.surface⟩) ∧
      Steps program policy (next current entry) story

namespace Story.Steps

variable {program : Program} {policy : RunPolicy} {current : Option (Nat × Page)}
  {a b story : Story Page}

theorem append (ha : Steps program policy current a)
    (hb : Steps program policy (a.foldl next current) b) :
    Steps program policy current (a ++ b) := by
  induction a generalizing current with
  | nil => exact hb
  | cons entry a ih => exact ⟨ha.1, ih ha.2 hb⟩

/-- All stretches fit the program. -/
theorem fits (h : Steps program policy current story) :
    ∀ x ∈ stretchesFrom current story, x.Fits program policy := by
  induction story generalizing current with
  | nil => exact fun x hx => absurd hx List.not_mem_nil
  | cons entry story ih =>
    intro x hx
    rcases List.mem_append.1 hx with hx | hx
    · cases hr : entry.turn.result? with
      | none => simp [stretch?, hr] at hx
      | some result =>
        obtain ⟨number, before, hcurrent, hfits⟩ := h.1 result hr
        rw [stretch?_eq hcurrent hr] at hx
        obtain rfl := List.mem_singleton.1 hx
        exact hfits
    · exact ih h.2 x hx

/-- Every turn of a step ends a stretch. -/
theorem covers (h : Steps program policy current story) {entry : Entry Page} (he : entry ∈ story)
    {result : Except ActionError Progress} (hr : entry.turn.result? = some result) :
    ∃ x ∈ stretchesFrom current story, x.result = result ∧ x.after = entry.surface := by
  induction story generalizing current with
  | nil => cases he
  | cons first story ih =>
    rcases List.mem_cons.1 he with rfl | he
    · obtain ⟨number, before, hcurrent, -⟩ := h.1 result hr
      refine ⟨⟨number, before, result, entry.surface⟩, List.mem_append_left _ ?_, rfl, rfl⟩
      rw [stretch?_eq hcurrent hr]
      exact List.mem_singleton.2 rfl
    · obtain ⟨x, hx, hsame⟩ := ih h.2 he
      exact ⟨x, List.mem_append_right _ hx, hsame⟩

end Story.Steps

/-! ## Runs in the courses of their steps -/

/-- A run that waits does so in the course of the step that is under way. -/
def Run.InCourse (run : Run) (current : Option (Nat × Page)) (m : Moment) (p : Page) : Prop :=
  match run.stage with
  | .claimed _ => True
  | .waiting step _ wake hold _ => ∃ before m₀,
    current = some (run.done.length + 1, before) ∧ before.Reachable ∧
      step.Course m₀ before m (.ok (.waiting wake hold), p)

/-- Time passes, and a stop request may come. -/
theorem Run.InCourse.later {run : Run} {current : Option (Nat × Page)} {m n : Moment} {p : Page}
    (h : run.InCourse current m p) (hnow : m.now ≤ n.now) (hpolicy : n.policy = m.policy) :
    run.InCourse current n p := by
  obtain ⟨token, total, done, startedAt, stage⟩ := run
  cases stage with
  | claimed program => trivial
  | waiting step since wake hold rest =>
    obtain ⟨before, m₀, hcurrent, hp, hc⟩ := h
    exact ⟨before, m₀, hcurrent, hp, hc.later hnow hpolicy⟩

/-- The page changes from outside. -/
theorem Run.InCourse.changed {run : Run} {current : Option (Nat × Page)} {m : Moment} {p : Page}
    (h : run.InCourse current m p) (change : Change) :
    run.InCourse current m (change.apply p) := by
  obtain ⟨token, total, done, startedAt, stage⟩ := run
  cases stage with
  | claimed program => trivial
  | waiting step since wake hold rest =>
    obtain ⟨before, m₀, hcurrent, hp, hc⟩ := h
    exact ⟨before, m₀, hcurrent, hp, hc.changed change⟩

/-- A segment leaves a page that is reached, on which the run is in the course of its step if it
waits again; and every turn of a step ends a stretch that fits the program. -/
structure Strides (program : Program) (m : Moment) (current : Option (Nat × Page))
    (story : Story Page) (g : Segment Page) : Prop where
  reached : g.surface.Reachable
  steps : story.Steps program m.policy current
  running : ∀ next, g.state = .running next →
    next.InCourse (story.foldl Story.next current) m g.surface

namespace Strides

variable {program : Program} {m : Moment} {current : Option (Nat × Page)} {story : Story Page}
  {g : Segment Page}

theorem conclude {run : Run} {p : Page} (hp : p.Reachable) (ending : Ending)
    (h : ∀ e, ending = .failed e → ∃ number before, current = some (number, before) ∧
      Stretch.Fits program m.policy ⟨number, before, .error e, p⟩) :
    Strides program m current [run.lastEntry m.now ending p]
      (run.conclude m.now ending.outcome p) where
  reached := hp
  steps := by
    refine ⟨fun result hr => ?_, trivial⟩
    cases ending with
    | failed e =>
      cases hr
      exact h e rfl
    | _ => cases hr
  running := fun _ hs => by cases hs

/-- A turn before the rest of a segment. -/
theorem cons {entry : Entry Page} (h : Strides program m (Story.next current entry) story g)
    (he : ∀ result, entry.turn.result? = some result → ∃ number before,
      current = some (number, before) ∧
        Stretch.Fits program m.policy ⟨number, before, result, entry.surface⟩) :
    Strides program m current (entry :: story) g :=
  ⟨h.reached, ⟨he, h.steps⟩, h.running⟩

/-- What is said makes no difference. -/
theorem after (h : Strides program m current story g) (events : List StatusEvent) :
    Strides program m current story (g.after events) :=
  ⟨h.reached, h.steps, h.running⟩

end Strides

/-- A step leaves a page that is reached. -/
theorem reachable_of_start {m : Moment} {step : Step} {p left : Page} (hp : p.Reachable)
    {result : Except ActionError Progress} (hr : (step.start m).run p = (result, left)) :
    left.Reachable := by
  have hleft := keeps_start keeps_reachable.frames m step p hp
  rwa [hr] at hleft

/-- Every step that is carried out begins its course where it is announced. -/
theorem strides_carryOn {program : Program} (m : Moment) (run : Run) {rest : Program} {p : Page}
    (hp : p.Reachable) (hrest : program.drop run.done.length = rest)
    (current : Option (Nat × Page)) :
    Strides program m current (Run.carryOnAccount m run rest p) (Run.carryOn m run rest p) := by
  induction rest generalizing run p current with
  | nil => exact Strides.conclude hp .exhausted fun _ he => by cases he
  | cons raw rest ih =>
    obtain ⟨hraw, hnext⟩ := Run.getElem?_of_drop hrest
    -- what a step comes to at once is a stretch that begins with its announcement
    have fits : ∀ {kind step result left}, raw.kind = .ok kind → Step.decode kind raw = .ok step →
        (step.start m).run p = (result, left) →
          Stretch.Fits program m.policy ⟨run.done.length + 1, p, result, left⟩ := by
      intro kind step result left hk hd hr
      exact ⟨_, raw, step, m, m, rfl, hraw, ⟨kind, hk, hd⟩, hp, rfl, hr ▸ .begun⟩
    cases Run.beginning m raw p with
    | stopped hs =>
      rw [Run.carryOn, Run.carryOnAccount, if_pos hs, if_pos hs]
      exact Strides.conclude hp .stopped fun _ he => by cases he
    | unknown e hs hk =>
      simp only [Run.carryOn, Run.carryOnAccount, hs, hk]
      exact Strides.conclude hp (.unknown e) fun _ he => by cases he
    | undecodable kind e hs hk hd =>
      simp only [Run.carryOn, Run.carryOnAccount, hs, hk, hd]
      refine (Strides.cons ?_ fun _ hr => by cases hr).after _
      exact Strides.conclude hp (.undecodable e) fun _ he => by cases he
    | failed kind step e left hs hk hd hr =>
      simp only [Run.carryOn, Run.carryOnAccount, hs, hk, hd, hr]
      refine (Strides.cons ?_ fun _ hr => by cases hr).after _
      refine Strides.conclude (reachable_of_start hp hr) (.failed e) fun e' he => ?_
      cases he
      exact ⟨_, _, rfl, fits hk hd hr⟩
    | finished kind step left hs hk hd hr =>
      simp only [Run.carryOn, Run.carryOnAccount, hs, hk, hd, hr]
      refine (Strides.cons ?_ fun _ hr => by cases hr).after _
      refine Strides.cons ?_ fun result hresult => ?_
      · have hlen : (run.complete step m.now m.now).done.length = run.done.length + 1 :=
          List.length_append
        exact ih _ (reachable_of_start hp hr) (by rw [hlen, hnext]) _
      · cases hresult
        exact ⟨_, _, rfl, fits hk hd hr⟩
    | waiting kind step wake hold left hs hk hd hr =>
      simp only [Run.carryOn, Run.carryOnAccount, hs, hk, hd, hr]
      refine (Strides.cons ?_ fun _ hr => by cases hr).after _
      constructor
      case reached => exact reachable_of_start hp hr
      case steps =>
        refine ⟨fun result hresult => ?_, trivial⟩
        cases hresult
        exact ⟨_, _, rfl, fits hk hd hr⟩
      case running =>
        intro next hs
        cases hs
        exact ⟨p, m, rfl, hp, hr ▸ .begun⟩

/-- **Going on.** A run that goes on goes on with the course of its step. -/
theorem strides_advance {program : Program} {m : Moment} {run : Run} {p : Page}
    {current : Option (Nat × Page)} (hp : p.Reachable) (hu : run.Underway program)
    (h : run.InCourse current m p) :
    Strides program m current (run.account m p) (run.advance m p) := by
  obtain ⟨token, total, done, startedAt, stage⟩ := run
  cases stage with
  | claimed claimed =>
    obtain ⟨rfl, hnil⟩ := hu.stage
    obtain rfl : done = [] := hnil
    exact ((strides_carryOn m _ hp rfl none).cons fun _ hr => by cases hr).after _
  | waiting step since wake hold rest =>
    obtain ⟨raw, hrest, hd⟩ := hu.stage
    obtain ⟨hraw, hnext⟩ := Run.getElem?_of_drop hrest
    obtain ⟨before, m₀, rfl, hbefore, hc⟩ := h
    have fits : ∀ {result left}, step.Course m₀ before m (result, left) →
        Stretch.Fits program m.policy ⟨done.length + 1, before, result, left⟩ := by
      intro result left hc
      exact ⟨_, raw, step, m₀, m, rfl, hraw, hd, hbefore, hc.policy.symm, hc⟩
    simp only [Run.advance, Run.account]
    by_cases hw : m.resumes wake = true
    · rw [if_pos hw, if_pos hw]
      have hleft := keeps_resume keeps_reachable.frames m hold p hp
      have hresumed := hc.resumed (Moment.le_of_resumes hw)
      rcases hr : (hold.resume m).run p with ⟨e | _ | ⟨later, more⟩, left⟩ <;>
        rw [hr] at hleft hresumed
      · refine Strides.conclude hleft (.failed e) fun e' he => ?_
        cases he
        exact ⟨_, _, rfl, fits hresumed⟩
      · refine Strides.cons ?_ fun result hresult => ?_
        · refine strides_carryOn m _ hleft ?_ _
          show program.drop (done ++ [ActionReport.ofStep step since m.now]).length = rest
          rw [List.length_append, List.length_singleton, hnext]
        · cases hresult
          exact ⟨_, _, rfl, fits hresumed⟩
      · constructor
        case reached => exact hleft
        case steps =>
          refine ⟨fun result hresult => ?_, trivial⟩
          cases hresult
          exact ⟨_, _, rfl, fits hresumed⟩
        case running =>
          intro next hs
          cases hs
          exact ⟨before, m₀, rfl, hbefore, hresumed⟩
    · rw [if_neg hw, if_neg hw]
      by_cases hi : m.interrupts = true
      · rw [if_pos hi, if_pos hi]
        refine Strides.conclude hp (.failed (.interrupted stoppedByUser)) fun e he => ?_
        cases he
        exact ⟨_, _, rfl, fits (hc.interrupted hi)⟩
      · rw [if_neg hi, if_neg hi]
        constructor
        case reached => exact hp
        case steps => trivial
        case running =>
          intro next hs
          cases hs
          exact ⟨before, m₀, rfl, hbefore, hc⟩

/-! ## Runners -/

/-- A move that changes the page, if it does, by adding or removing elements or by moving the focus.
-/
def Move.FromOutside : Move Page → Prop
  | .change f => ∃ change : Change, ∀ p, f p = change.apply p
  | _ => True

/-- The page is reached, the run that has not ended is in the course of the step that is under way,
and all turns of steps end stretches that fit the programs. -/
structure OnTrack (w : World Page) : Prop where
  keeps : Keeps w
  reached : w.runner.surface.Reachable
  /-- there is nothing to tell of a run that was not claimed -/
  silent : ∀ token, (∀ program, .claimed token program ∉ w.happenings) → w.storyOf token = []
  live : ∀ run ∈ w.runner.runs,
    run.InCourse (w.storyOf run.token).current (w.runner.moment run.token) w.runner.surface
  steps : ∀ token program, .claimed token program ∈ w.happenings →
    (w.storyOf token).Steps program w.runner.policy none

theorem onTrack_fresh {p : Page} (hp : p.Reachable) (policy : RunPolicy) :
    OnTrack (World.fresh p policy) where
  keeps := keeps_fresh p policy
  reached := hp
  silent := fun _ _ => rfl
  live := fun _ h => absurd h List.not_mem_nil
  steps := fun _ _ h => absurd h List.not_mem_nil

namespace OnTrack

variable {w : World Page}

/-- A move at which no run is claimed and none goes on. -/
theorem quiet (h : OnTrack w) {move : Move Page}
    (hclaim : ∀ token program, (w.runner.move move).answer ≠ .claimed token program)
    (hstory : ∀ token, (w.runner.move move).answer.storyOf token = [])
    (hreached : (w.runner.move move).runner.surface.Reachable)
    (hlive : ∀ run ∈ (w.runner.move move).runner.runs,
      run.InCourse (w.storyOf run.token).current ((w.runner.move move).runner.moment run.token)
        (w.runner.move move).runner.surface) : OnTrack (w.after move) := by
  have hsame : ∀ token, (w.after move).storyOf token = w.storyOf token := by
    intro token
    rw [World.storyOf_after, hstory, List.append_nil]
  have hclaimed : ∀ token program, .claimed token program ∈ (w.after move).happenings ↔
      .claimed token program ∈ w.happenings := by
    intro token program
    rw [World.happenings_after, List.mem_append, List.mem_singleton]
    exact or_iff_left (hclaim token program).symm
  constructor
  case keeps => exact h.keeps.after move
  case reached => exact hreached
  case silent =>
    intro token hnot
    rw [hsame]
    exact h.silent token fun program hm => hnot program ((hclaimed token program).2 hm)
  case live =>
    intro run hrun
    rw [hsame]
    exact hlive run hrun
  case steps =>
    intro token program hm
    rw [hsame, World.runner_after, Runner.policy_move]
    exact h.steps token program ((hclaimed token program).1 hm)

/-- A run is claimed. -/
theorem claim (h : OnTrack w) {move : Move Page} {program : Program}
    (hr : w.runner.running = false)
    (hm : w.runner.move move =
      ⟨.claimed ⟨w.runner.lastSerial + 1⟩ program, [], (w.runner.start program).runner⟩) :
    OnTrack (w.after move) := by
  have hx := World.happenings_after w move
  have hrunner := World.runner_after w move
  have hpolicy := Runner.policy_move w.runner move
  have hsame : ∀ token, (w.after move).storyOf token = w.storyOf token := by
    intro token
    rw [World.storyOf_after, hm]
    exact List.append_nil _
  rw [hm] at hx hrunner hpolicy
  rw [Runner.start_eq_of_idle hr] at hrunner
  constructor
  case keeps => exact h.keeps.after _
  case reached =>
    rw [hrunner]
    exact h.reached
  case silent =>
    intro token hnot
    rw [hsame]
    exact h.silent token fun p hp => hnot p (hx ▸ List.mem_append_left _ hp)
  case live =>
    intro run hrun
    rw [hrunner, h.keeps.owned.runs_of_idle hr] at hrun
    obtain rfl := List.mem_singleton.1 hrun
    trivial
  case steps =>
    intro token p hp
    rw [hx] at hp
    rw [hsame, World.runner_after, Runner.policy_move]
    rcases List.mem_append.1 hp with hp | hp
    · exact h.steps token p hp
    · -- the token is new, so there is nothing to tell of its run
      cases List.mem_singleton.1 hp
      rw [h.silent _ (h.keeps.owned.numbered.not_claimed (Nat.lt_succ_self _))]
      trivial

/-- A run that goes on keeps to its program, in which it was claimed. -/
theorem strides (h : OnTrack w) {run : Run} (hrun : run ∈ w.runner.runs) {program : Program}
    (hclaimed : .claimed w.runner.token program ∈ w.happenings) :
    Strides program (w.runner.moment w.runner.token) (w.storyOf w.runner.token).current
      (run.account (w.runner.moment w.runner.token) w.runner.surface)
      (run.advance (w.runner.moment w.runner.token) w.runner.surface) := by
  have htoken := (h.keeps.owned.eq_of_mem hrun).2.2
  have hcourse := h.live run hrun
  rw [htoken] at hcourse
  exact strides_advance h.reached (h.keeps.live _ program hclaimed run hrun htoken).1 hcourse

/-- A run that has not ended was claimed. -/
theorem exists_claimed (h : OnTrack w) {run : Run} (hrun : run ∈ w.runner.runs) :
    ∃ program, .claimed w.runner.token program ∈ w.happenings :=
  ((h.keeps.owned.live w.runner.token).2 ⟨(h.keeps.owned.eq_of_mem hrun).1, rfl⟩).claimed

/-- The current run goes on. -/
theorem goOn (h : OnTrack w) {move : Move Page} {run : Run} (hrun : run ∈ w.runner.runs)
    {report? : Option Report} {events : List StatusEvent} {r : Runner Page}
    (hm : w.runner.move move =
      ⟨.wentOn w.runner.token (run.account (w.runner.moment w.runner.token) w.runner.surface)
        report?, events, r⟩)
    (hsurface : r.surface =
      (run.advance (w.runner.moment w.runner.token) w.runner.surface).surface)
    (hnext : ∀ next ∈ r.runs, next.token = w.runner.token ∧
      r.moment w.runner.token = w.runner.moment w.runner.token ∧
      (run.advance (w.runner.moment w.runner.token) w.runner.surface).state = .running next) :
    OnTrack (w.after move) := by
  have hx := World.happenings_after w move
  have hrunner := World.runner_after w move
  have hpolicy := Runner.policy_move w.runner move
  have hstory : ∀ token, (w.after move).storyOf token = w.storyOf token ++
      if w.runner.token = token
      then run.account (w.runner.moment w.runner.token) w.runner.surface else [] := by
    intro token
    rw [World.storyOf_after, hm, Happening.storyOf]
  rw [hm] at hx hrunner hpolicy
  obtain ⟨own, hown⟩ := h.exists_claimed hrun
  constructor
  case keeps => exact h.keeps.after _
  case reached =>
    rw [hrunner, hsurface]
    exact (h.strides hrun hown).reached
  case silent =>
    intro token hnot
    have hne : w.runner.token ≠ token := by
      rintro rfl
      exact hnot own (hx ▸ List.mem_append_left _ hown)
    rw [hstory, if_neg hne, List.append_nil]
    exact h.silent token fun p hp => hnot p (hx ▸ List.mem_append_left _ hp)
  case live =>
    intro next hm
    rw [hrunner] at hm ⊢
    obtain ⟨hsame, hmoment, hs⟩ := hnext next hm
    rw [hsame, hstory, if_pos rfl, hmoment, hsurface, Story.current, List.foldl_append]
    exact (h.strides hrun hown).running next hs
  case steps =>
    intro token p hp
    rw [hx] at hp
    rw [hrunner, hpolicy, hstory]
    rcases List.mem_append.1 hp with hp | hp
    · split
      · rename_i ht
        subst ht
        exact (h.steps _ p hp).append (h.strides hrun hp).steps
      · rw [List.append_nil]
        exact h.steps token p hp
    · cases List.mem_singleton.1 hp

/-- **Moves.** Every move leaves the runs in the courses of their steps. -/
theorem after (h : OnTrack w) {move : Move Page} (hmove : move.FromOutside) :
    OnTrack (w.after move) := by
  cases h.keeps.owned.comes move with
  | idle hclaim hstory hruns hsurface hnow =>
    refine h.quiet hclaim hstory ?_ ?_ <;> rw [hsurface]
    · exact h.reached
    · intro run hrun
      exact (h.live run (hruns run hrun)).later hnow (Runner.policy_move w.runner move)
  | claimed program hr hm => exact h.claim hr hm
  | wentOn run report? events r hruns _ hm hsurface hnext =>
    exact h.goOn (hruns ▸ List.mem_singleton.2 rfl) hm hsurface hnext
  | changed f hf =>
    subst hf
    obtain ⟨change, hf⟩ := hmove
    have hsurface : (w.runner.move (.change f)).runner.surface = change.apply w.runner.surface :=
      hf _
    refine h.quiet (fun _ _ hx => by cases hx) (fun _ => rfl) ?_ ?_ <;> rw [hsurface]
    · exact h.reached.changed change
    · exact fun run hrun => (h.live run hrun).changed change

end OnTrack

/-- **Reached worlds.** Whatever is asked of a runner on a page that is reached, and however the
page changes from outside, its runs are in the courses of their steps. -/
theorem onTrack_afterAll {p : Page} (hp : p.Reachable) (policy : RunPolicy)
    {moves : List (Move Page)} (hmoves : ∀ move ∈ moves, move.FromOutside) :
    OnTrack ((World.fresh p policy).afterAll moves) := by
  have hall : ∀ w : World Page, OnTrack w → OnTrack (w.afterAll moves) := by
    induction moves with
    | nil => exact fun _ h => h
    | cons move moves ih =>
      obtain ⟨hmove, hrest⟩ := List.forall_mem_cons.1 hmoves
      exact fun w h => ih hrest _ (h.after hmove)
  exact hall _ (onTrack_fresh hp policy)

/-- **Steps that fail.** Whatever is asked of a runner on a page that is reached, and however the
page changes from outside, each step that fails in a run was decoded, began on a page that is
reached, and fails in one of a few ways. -/
theorem failsBy_afterAll {p : Page} (hp : p.Reachable) (policy : RunPolicy)
    {moves : List (Move Page)} (hmoves : ∀ move ∈ moves, move.FromOutside) {token : Token} {story : Story Page}
    {report? : Option Report}
    (hwent : .wentOn token story report? ∈ ((World.fresh p policy).afterAll moves).happenings)
    {entry : Entry Page} (he : entry ∈ story) {e : ActionError} {report : Report}
    (hturn : entry.turn = .ended (.failed e) report) :
    ∃ raw step m₀ p₀ m, Instruction.DecodesTo raw step ∧ p₀.Reachable ∧ m₀.policy = policy ∧
      step.FailsBy m₀ p₀ m e entry.surface := by
  have htrack := onTrack_afterAll hp policy hmoves
  have hmem := World.mem_storyOf hwent he
  -- something is told of the run, so it was claimed
  obtain ⟨program, hclaimed⟩ : ∃ program,
      .claimed token program ∈ ((World.fresh p policy).afterAll moves).happenings := by
    by_contra hnot
    rw [htrack.silent token (not_exists.1 hnot)] at hmem
    cases hmem
  have hsteps := htrack.steps token program hclaimed
  have hresult : entry.turn.result? = some (.error e) := by
    rw [hturn]
    rfl
  obtain ⟨x, hx, hxresult, hxafter⟩ := hsteps.covers hmem hresult
  obtain ⟨_, raw, step, m₀, m, -, -, hd, hbefore, hpolicy, hc⟩ := hsteps.fits x hx
  rw [hxresult, hxafter] at hc
  rw [World.policy_afterAll] at hpolicy
  exact ⟨raw, step, m₀, x.before, m, hd, hbefore, hpolicy, hc.meets hd hbefore.sound⟩

end FormRehearsal
