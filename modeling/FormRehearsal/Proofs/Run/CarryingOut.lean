/-
# Programs that are carried out

A step to which nothing happens but time goes on whenever its wait is over. What it has come to at
an instant `Lasts` until the step is over: finished or failed, at an instant and with a surface. A
program is carried out one such step after another, until one cannot be begun, one fails, or none is
left. What it comes to then is an `Upshot`: the actions, why it ended, when, and the surface.

* `exists_lasts`, `exists_carriesOut` : every step and every program comes to an end;
* `append_of_exhausted`, `append_of_ne` : one program after another;
* `endsWith_carryOnStory` : the story of a run that is not asked to stop ends as its program does.
-/
import FormRehearsal.Proofs.Run.Stopping

namespace FormRehearsal

variable {σ : Type} [Surface σ]

/-! ## Steps -/

/-- What a step came to at an instant lasts until it is over at another one. -/
inductive Lasts (policy : RunPolicy) : Nat → Except ActionError Progress × σ → Nat →
    Except ActionError Unit × σ → Prop
  | finished (now : Nat) (s : σ) : Lasts policy now (.ok .finished, s) now (.ok (), s)
  | failed (now : Nat) (e : ActionError) (s : σ) : Lasts policy now (.error e, s) now (.error e, s)
  | waits {now wake later : Nat} {hold : Hold} {s : σ} {result : Except ActionError Unit × σ}
      (hw : now < wake)
      (h : Lasts policy wake ((hold.resume ⟨wake, policy, false⟩).run s) later result) :
      Lasts policy now (.ok (.waiting wake hold), s) later result

namespace Lasts

variable {policy : RunPolicy} {now later : Nat} {x : Except ActionError Progress × σ}
  {result : Except ActionError Unit × σ}

theorem le (h : Lasts policy now x later result) : now ≤ later := by
  induction h with
  | finished => exact Nat.le_refl _
  | failed => exact Nat.le_refl _
  | waits hw _ ih => exact Nat.le_trans (Nat.le_of_lt hw) ih

end Lasts

/-- A hold that is resumed when its wait is over comes to an end. -/
theorem exists_lasts_resume (policy : RunPolicy) (wake : Nat) (hold : Hold) (s : σ) :
    ∃ later result, Lasts policy wake ((hold.resume ⟨wake, policy, false⟩).run s) later result := by
  rcases hr : (hold.resume ⟨wake, policy, false⟩).run s with ⟨e | _ | ⟨next, more⟩, left⟩
  · exact ⟨_, _, .failed wake e left⟩
  · exact ⟨_, _, .finished wake left⟩
  · -- what is left can wait less often
    have hrank := (gives_resume (Nat.le_refl wake) s _ (congrArg Prod.fst hr)).2
    obtain ⟨later, result, h⟩ := exists_lasts_resume policy next more left
    exact ⟨later, result, .waits (yields_resume.ok hr).1 h⟩
termination_by hold.rank wake

/-- A step that begins comes to an end. -/
theorem exists_lasts (policy : RunPolicy) (now : Nat) (step : Step) (s : σ) :
    ∃ later result, Lasts policy now ((step.start ⟨now, policy, false⟩).run s) later result := by
  rcases hr : (step.start ⟨now, policy, false⟩).run s with ⟨e | _ | ⟨wake, hold⟩, left⟩
  · exact ⟨_, _, .failed now e left⟩
  · exact ⟨_, _, .finished now left⟩
  · obtain ⟨later, result, h⟩ := exists_lasts_resume policy wake hold left
    exact ⟨later, result, .waits ((yields_start step).ok hr).1 h⟩

/-! ## Programs -/

/-- What the steps of a program come to. -/
structure Upshot (σ : Type) where
  actions : List ActionReport
  ending : Ending
  instant : Nat
  surface : σ

/-- The upshot with one more action before the others. -/
def Upshot.after {σ : Type} (action : ActionReport) (up : Upshot σ) : Upshot σ :=
  { up with actions := action :: up.actions }

/-- The report of a run that had carried out some actions before. -/
def Upshot.report {σ : Type} (up : Upshot σ) (total : Nat) (done : List ActionReport)
    (startedAt : Nat) : Report :=
  ⟨up.ending.outcome, total, done ++ up.actions, startedAt, up.instant⟩

/-- A program is carried out from an instant on, if nothing happens but that time passes. -/
inductive CarriesOut (policy : RunPolicy) : Program → Nat → σ → Upshot σ → Prop
  | exhausted (now : Nat) (s : σ) : CarriesOut policy [] now s ⟨[], .exhausted, now, s⟩
  | unknown {raw : Instruction} {e : RunError} (rest : Program) (now : Nat) (s : σ)
      (hk : raw.kind = .error e) :
      CarriesOut policy (raw :: rest) now s ⟨[], .unknown e, now, s⟩
  | undecodable {raw : Instruction} {kind : ActionKind} {e : ActionError} (rest : Program)
      (now : Nat) (s : σ) (hk : raw.kind = .ok kind) (hd : Step.decode kind raw = .error e) :
      CarriesOut policy (raw :: rest) now s ⟨[], .undecodable e, now, s⟩
  | failed {raw : Instruction} {step : Step} {e : ActionError} {now later : Nat} {s left : σ}
      (rest : Program) (hd : raw.DecodesTo step)
      (h : Lasts policy now ((step.start ⟨now, policy, false⟩).run s) later (.error e, left)) :
      CarriesOut policy (raw :: rest) now s ⟨[], .failed e, later, left⟩
  | carriedOut {raw : Instruction} {step : Step} {now later : Nat} {s left : σ} {rest : Program}
      {up : Upshot σ} (hd : raw.DecodesTo step)
      (h : Lasts policy now ((step.start ⟨now, policy, false⟩).run s) later (.ok (), left))
      (hrest : CarriesOut policy rest later left up) :
      CarriesOut policy (raw :: rest) now s (up.after (.ofStep step now later))

/-- Every program comes to an end. -/
theorem exists_carriesOut (policy : RunPolicy) (program : Program) (now : Nat) (s : σ) :
    ∃ up, CarriesOut policy program now s up := by
  induction program generalizing now s with
  | nil => exact ⟨_, .exhausted now s⟩
  | cons raw rest ih =>
    cases hk : raw.kind with
    | error e => exact ⟨_, .unknown rest now s hk⟩
    | ok kind =>
      cases hd : Step.decode kind raw with
      | error e => exact ⟨_, .undecodable rest now s hk hd⟩
      | ok step =>
        obtain ⟨later, ⟨e | _, left⟩, h⟩ := exists_lasts policy now step s
        · exact ⟨_, .failed rest ⟨kind, hk, hd⟩ h⟩
        · obtain ⟨up, hup⟩ := ih later left
          exact ⟨_, .carriedOut ⟨kind, hk, hd⟩ h hup⟩

namespace CarriesOut

variable {policy : RunPolicy} {program : Program} {now : Nat} {s : σ} {up : Upshot σ}

theorem le (h : CarriesOut policy program now s up) : now ≤ up.instant := by
  induction h with
  | failed _ _ h => exact h.le
  | carriedOut _ h _ ih => exact Nat.le_trans h.le ih
  | _ => exact Nat.le_refl _

/-- A program none of whose steps is left, and then another one. -/
theorem append_of_exhausted (h : CarriesOut policy program now s up)
    (hup : up.ending = .exhausted) {more : Program} {next : Upshot σ}
    (hnext : CarriesOut policy more up.instant up.surface next) :
    CarriesOut policy (program ++ more) now s
      { next with actions := up.actions ++ next.actions } := by
  induction h with
  | exhausted now s => exact hnext
  | carriedOut hd hlasts _ ih => exact .carriedOut hd hlasts (ih hup hnext)
  | _ => cases hup

/-- What comes after a step at which a program ends makes no difference. -/
theorem append_of_ne (h : CarriesOut policy program now s up) (hup : up.ending ≠ .exhausted)
    (more : Program) : CarriesOut policy (program ++ more) now s up := by
  induction h with
  | exhausted => exact absurd rfl hup
  | unknown rest now s hk => exact .unknown _ now s hk
  | undecodable rest now s hk hd => exact .undecodable _ now s hk hd
  | failed rest hd hlasts => exact .failed _ hd hlasts
  | carriedOut hd hlasts _ ih => exact .carriedOut hd hlasts (ih hup)

end CarriesOut

/-! ## Stories -/

/-- The last entry of a story is that the run ends: nothing is reported before, and nothing is
later. -/
def Story.EndsWith (story : Story σ) (ending : Ending) (report : Report) (s : σ) : Prop :=
  ∃ before, story = before ++ [⟨report.finishedAt, .ended ending report, s⟩] ∧
    Story.reports before = [] ∧ ∀ e ∈ before, e.instant ≤ report.finishedAt

namespace Story.EndsWith

variable {story : Story σ} {ending : Ending} {report : Report} {s : σ}

omit [Surface σ] in
theorem append {waits : Story σ} (h : EndsWith story ending report s)
    (hwaits : ∀ e ∈ waits, e.turn.report? = none ∧ e.instant ≤ report.finishedAt) :
    EndsWith (waits ++ story) ending report s := by
  obtain ⟨before, rfl, hreports, hle⟩ := h
  refine ⟨waits ++ before, (List.append_assoc _ _ _).symm, ?_, ?_⟩
  · rw [Story.reports_append, hreports, List.append_nil]
    apply List.flatMap_eq_nil_iff.2
    intro e he
    rw [(hwaits e he).1]
    rfl
  · intro e he
    rcases List.mem_append.1 he with he | he
    · exact (hwaits e he).2
    · exact hle e he

omit [Surface σ] in
theorem cons {e : Entry σ} (h : EndsWith story ending report s) (hr : e.turn.report? = none)
    (he : e.instant ≤ report.finishedAt) : EndsWith (e :: story) ending report s := by
  show EndsWith ([e] ++ story) ending report s
  refine append h fun e' he' => ?_
  obtain rfl := List.mem_singleton.1 he'
  exact ⟨hr, he⟩

end Story.EndsWith

namespace Run

/-- What is told of a run depends on its stage only through the program that is left. -/
theorem carryOn_stage (m : Moment) (run : Run) (stage : Stage) (program : Program) (s : σ) :
    carryOn m { run with stage } program s = carryOn m run program s := by
  induction program generalizing run s with
  | nil => rfl
  | cons raw rest ih =>
    have hrest : ∀ step now s, carryOn m (complete { run with stage } step now now) rest s =
        carryOn m (complete run step now now) rest s :=
      fun step now s => ih (run.complete step now now) s
    simp only [carryOn, hrest]
    rfl

theorem carryOnAccount_stage (m : Moment) (run : Run) (stage : Stage) (program : Program) (s : σ) :
    carryOnAccount m { run with stage } program s = carryOnAccount m run program s := by
  induction program generalizing run s with
  | nil => rfl
  | cons raw rest ih =>
    have hrest : ∀ step now s,
        carryOnAccount m (complete { run with stage } step now now) rest s =
          carryOnAccount m (complete run step now now) rest s :=
      fun step now s => ih (run.complete step now now) s
    simp only [carryOnAccount, hrest]
    rfl

/-- What is told of a run depends on its stage only through the program that is left. -/
theorem carryOnStory_stage (m : Moment) (run : Run) (stage : Stage) (program : Program) (s : σ) :
    carryOnStory m { run with stage } program s = carryOnStory m run program s := by
  rw [carryOnStory, carryOnStory, carryOn_stage, carryOnAccount_stage]

section Steps

variable (policy : RunPolicy) (run : Run) (step : Step) (since : Nat) (rest : Program)

/-- What is told of a run from what its step came to at an instant. -/
def fromStep (now : Nat) : Except ActionError Progress × σ → Story σ
  | (.error e, s) => [run.lastEntry now (.failed e) s]
  | (.ok .finished, s) =>
    ⟨now, .carriedOut (.ofStep step since now), s⟩ ::
      carryOnStory ⟨now, policy, false⟩ (run.complete step since now) rest s
  | (.ok (.waiting wake hold), s) =>
    ⟨now, .suspended wake hold, s⟩ ::
      story ⟨now, policy, false⟩ { run with stage := .waiting step since wake hold rest } s

/-- What is told of a run from the end of its step on. -/
def fromEnd (now : Nat) : Except ActionError Unit × σ → Story σ
  | (.error e, s) => [run.lastEntry now (.failed e) s]
  | (.ok (), s) =>
    ⟨now, .carriedOut (.ofStep step since now), s⟩ ::
      carryOnStory ⟨now, policy, false⟩ (run.complete step since now) rest s

theorem fromEnd_stage (stage : Stage) (now : Nat) (result : Except ActionError Unit × σ) :
    fromEnd policy { run with stage } step since rest now result =
      fromEnd policy run step since rest now result := by
  rcases result with ⟨e | _, s⟩
  · rfl
  · exact congrArg (_ :: ·) (carryOnStory_stage _ (run.complete step since now) stage rest s)

/-- A step that is announced begins at once. -/
theorem carryOnStory_begins {raw : Instruction} {kind : ActionKind} (hk : raw.kind = .ok kind)
    (hd : Step.decode kind raw = .ok step) (now : Nat) (s : σ) :
    carryOnStory ⟨now, policy, false⟩ run (raw :: rest) s =
      ⟨now, .announced (run.done.length + 1) run.total raw.actionName, s⟩ ::
        fromStep policy run step now rest now ((step.start ⟨now, policy, false⟩).run s) := by
  simp only [carryOnStory, carryOnAccount, carryOn, hk, hd, Bool.false_eq_true, if_false]
  rcases (step.start ⟨now, policy, false⟩).run s with ⟨e | _ | ⟨wake, hold⟩, left⟩ <;> rfl

/-- Until its step is over, a run waits. -/
theorem fromStep_of_lasts {now later : Nat} {x : Except ActionError Progress × σ}
    {result : Except ActionError Unit × σ} (h : Lasts policy now x later result) :
    ∃ waits, (∀ e ∈ waits, e.turn.report? = none ∧ e.instant ≤ later) ∧
      fromStep policy run step since rest now x =
        waits ++ fromEnd policy run step since rest later result := by
  induction h generalizing run with
  | finished now s => exact ⟨[], fun _ he => absurd he List.not_mem_nil, rfl⟩
  | failed now e s => exact ⟨[], fun _ he => absurd he List.not_mem_nil, rfl⟩
  | @waits now wake later hold s result hw h ih =>
    -- nothing is told of the run until the wait is over
    have hd : isDue ⟨now, policy, false⟩
        { run with stage := .waiting step since wake hold rest } = false := by
      simpa [isDue, Moment.interrupts] using hw
    obtain ⟨waits, hwaits, hstory⟩ := ih { run with stage := .waiting step since wake hold rest }
    rw [fromEnd_stage] at hstory
    refine ⟨⟨now, .suspended wake hold, s⟩ :: waits, ?_, ?_⟩
    · intro e he
      rcases List.mem_cons.1 he with rfl | he
      · exact ⟨rfl, Nat.le_trans (Nat.le_of_lt hw) h.le⟩
      · exact hwaits e he
    · rw [fromStep, story_of_not_isDue hd, List.cons_append, ← hstory]
      exact congrArg (_ :: ·) (story_waiting _ _ _ _ _ _ _ _ _ _ _
        (Moment.resumes_of_le (Bool.and_false _) (Nat.le_refl wake)))

end Steps

/-- **Carrying out.** The story of a run that is not asked to stop ends as its program does. -/
theorem endsWith_carryOnStory {policy : RunPolicy} {program : Program} {now : Nat} {s : σ}
    {up : Upshot σ} (h : CarriesOut policy program now s up) (run : Run) :
    Story.EndsWith (carryOnStory ⟨now, policy, false⟩ run program s) up.ending
      (up.report run.total run.done run.startedAt) up.surface := by
  have single : ∀ (run : Run) (ending : Ending) (now : Nat) (s : σ),
      Story.EndsWith [run.lastEntry now ending s] ending
        (Upshot.report ⟨[], ending, now, s⟩ run.total run.done run.startedAt) s := by
    intro run ending now s
    refine ⟨[], ?_, rfl, fun _ he => absurd he List.not_mem_nil⟩
    rw [Upshot.report, List.append_nil]
    rfl
  induction h generalizing run with
  | exhausted now s =>
    rw [carryOnStory_nil]
    exact single run .exhausted now s
  | @unknown raw e rest now s hk =>
    simp only [carryOnStory, carryOnAccount, carryOn, hk, Bool.false_eq_true, if_false]
    exact single run (.unknown e) now s
  | @undecodable raw kind e rest now s hk hd =>
    simp only [carryOnStory, carryOnAccount, carryOn, hk, hd, Bool.false_eq_true, if_false]
    exact (single run (.undecodable e) now s).cons rfl (Nat.le_refl now)
  | @failed raw step e now later s left rest hd hlasts =>
    obtain ⟨kind, hk, hd⟩ := hd
    obtain ⟨waits, hwaits, hstory⟩ := fromStep_of_lasts policy run step now rest hlasts
    rw [carryOnStory_begins _ _ _ _ hk hd, hstory]
    refine Story.EndsWith.cons ?_ rfl hlasts.le
    exact (single run (.failed e) later left).append hwaits
  | @carriedOut raw step now later s left rest up hd hlasts hrest ih =>
    obtain ⟨kind, hk, hd⟩ := hd
    obtain ⟨waits, hwaits, hstory⟩ := fromStep_of_lasts policy run step now rest hlasts
    have hend := ih (run.complete step now later)
    have hreport : up.report run.total (run.complete step now later).done run.startedAt =
        (up.after (.ofStep step now later)).report run.total run.done run.startedAt := by
      simp [Upshot.report, Upshot.after, complete]
    rw [carryOnStory_begins _ _ _ _ hk hd, hstory]
    have hle : later ≤ up.instant := hrest.le
    refine Story.EndsWith.cons ?_ rfl (Nat.le_trans hlasts.le hle)
    refine Story.EndsWith.append (Story.EndsWith.cons ?_ rfl hle) ?_
    · rw [← hreport]
      exact hend
    · exact fun e he => ⟨(hwaits e he).1, Nat.le_trans (hwaits e he).2 hle⟩

/-- The story of a run that begins ends as its program does. -/
theorem endsWith_story_claimed {policy : RunPolicy} {program : Program} {now : Nat} {s : σ}
    {up : Upshot σ} (h : CarriesOut policy program now s up) (token : Token) (startedAt : Nat) :
    Story.EndsWith
      (story ⟨now, policy, false⟩ ⟨token, program.length, [], startedAt, .claimed program⟩ s)
      up.ending (up.report program.length [] now) up.surface := by
  rw [story_claimed]
  exact (endsWith_carryOnStory h ⟨token, program.length, [], now, .claimed program⟩).cons rfl h.le

end Run

end FormRehearsal
