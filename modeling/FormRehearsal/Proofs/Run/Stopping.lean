/-
# Stop requests and the steps of a run

What a stop request makes of a run that waits depends on the policy. If the policy lets it end
waits, the run ends at once. If not, the step that waits goes on as it would have, and the run ends
before the next one: its story is that of the run that was not asked to stop up to the end of the
step.

* `story_waiting` : what comes of a wait that is over;
* `endsAtBoundary_story` : a run that is asked to stop ends where the step ends;
* `story_interrupted` : a run that is asked to stop ends at once.
-/
import FormRehearsal.Proofs.Run.Protocol
import FormRehearsal.Proofs.Run.Story

namespace FormRehearsal

namespace Run

variable {σ : Type} [Surface σ]

/-! ## Stories of what is left -/

/-- What a run does from a moment on that carries out the steps of a program. -/
def carryOnStory (m : Moment) (run : Run) (program : Program) (s : σ) : Story σ :=
  carryOnAccount m run program s ++ afterwards m (carryOn m run program s)

/-- A run ends when no step is left. -/
theorem carryOnStory_nil (m : Moment) (run : Run) (s : σ) :
    carryOnStory m run [] s = [run.lastEntry m.now .exhausted s] := rfl

/-- A run ends before a step if it was asked to stop. -/
theorem carryOnStory_of_stopping {m : Moment} (h : m.stopping = true) (run : Run)
    (raw : Instruction) (rest : Program) (s : σ) :
    carryOnStory m run (raw :: rest) s = [run.lastEntry m.now .stopped s] := by
  rw [carryOnStory, carryOnAccount, carryOn, if_pos h, if_pos h]
  rfl

/-- The story of a run that begins. -/
theorem story_claimed (m : Moment) (token : Token) (total : Nat) (done : List ActionReport)
    (startedAt : Nat) (program : Program) (s : σ) :
    story m ⟨token, total, done, startedAt, .claimed program⟩ s =
      ⟨m.now, .opened, s⟩ ::
        carryOnStory m ⟨token, total, done, m.now, .claimed program⟩ program s := by
  rw [story_eq, comesTo_of_isDue rfl]
  rfl

section Waiting

variable (m : Moment) (token : Token) (total : Nat) (done : List ActionReport) (startedAt : Nat)
  (step : Step) (since wake : Nat) (hold : Hold) (rest : Program) (s : σ)

/-- The story of a run whose wait is over. -/
theorem story_waiting (hw : m.resumes wake = true) :
    story m ⟨token, total, done, startedAt, .waiting step since wake hold rest⟩ s =
      match (hold.resume m).run s with
      | (.error e, s) =>
        [lastEntry ⟨token, total, done, startedAt, .waiting step since wake hold rest⟩ m.now
          (.failed e) s]
      | (.ok .finished, s) =>
        ⟨m.now, .carriedOut (.ofStep step since m.now), s⟩ ::
          carryOnStory m
            (complete ⟨token, total, done, startedAt, .waiting step since wake hold rest⟩ step since
              m.now) rest s
      | (.ok (.waiting later more), s) =>
        ⟨m.now, .suspended later more, s⟩ ::
          story m ⟨token, total, done, startedAt, .waiting step since later more rest⟩ s := by
  have hd : isDue m ⟨token, total, done, startedAt, .waiting step since wake hold rest⟩ = true := by
    simp [isDue, Moment.le_of_resumes hw]
  rw [story_eq, comesTo_of_isDue hd]
  simp only [account, advance, if_pos hw]
  rcases (hold.resume m).run s with ⟨e | _ | ⟨later, more⟩, left⟩
  · rfl
  · rfl
  · rfl

end Waiting

/-! ## Stop requests that end no wait -/

/-- The number of the step in which a run is; it is zero before the first one. -/
def stepNumber (run : Run) : Nat :=
  match run.stage with
  | .claimed _ => 0
  | .waiting .. => run.done.length + 1

/-- Between the entries a step waits. -/
def Waits (story : Story σ) : Prop := ∀ e ∈ story, ∃ wake hold, e.turn = .suspended wake hold

/-- The turn with which a run comes to the end of its step, the actions that were carried out until
then, and when the run began. -/
def PassesBy (run : Run) (now : Nat) (turn : Turn) (actions : List ActionReport)
    (startedAt : Nat) : Prop :=
  match run.stage with
  | .claimed _ => turn = .opened ∧ actions = [] ∧ startedAt = now
  | .waiting step since .. =>
    turn = .carriedOut (.ofStep step since now) ∧
      actions = run.done ++ [.ofStep step since now] ∧ startedAt = run.startedAt

/-- Two stories of a run, which is asked to stop in the second one only. They are the same up to the
end of the step in which the run is. If the step fails, that is all; if not, the run that is asked
to stop ends there and then, and does nothing more. -/
inductive EndsAtBoundary (program : Program) (run : Run) (free stopped : Story σ) : Prop where
  /-- the step fails -/
  | failing (waits : Story σ) (now : Nat) (s : σ) (e : ActionError) (hwaits : Waits waits)
      (hfree : free = waits ++ [⟨now, .ended (.failed e)
        ⟨.failed (RunError.action e).message, program.length, run.done, run.startedAt, now⟩, s⟩])
      (hstopped : stopped = free)
  /-- the step is carried out -/
  | passing (waits later : Story σ) (now : Nat) (s : σ) (turn : Turn)
      (actions : List ActionReport) (startedAt : Nat) (ending : Ending) (hwaits : Waits waits)
      (hfree : free = waits ++ ⟨now, turn, s⟩ :: later)
      (hstopped : stopped = waits ++ [⟨now, turn, s⟩, ⟨now, .ended ending
        ⟨ending.outcome, program.length, actions, startedAt, now⟩, s⟩])
      (hpasses : run.PassesBy now turn actions startedAt)
      (hactions : CarriedOut program actions) (hlength : actions.length = run.stepNumber)
      (hending : ending = if run.stepNumber < program.length then .stopped else .exhausted)
      (houtcome : ending.outcome =
        if run.stepNumber < program.length then .cancelled else .completed)
      (hlast : run.stepNumber = program.length → later = [⟨now, .ended .exhausted
        ⟨.completed, program.length, actions, startedAt, now⟩, s⟩])

/-- What is left of a program after the step, if the run was asked to stop or not. -/
theorem carryOnStory_boundary (policy : RunPolicy) (now : Nat) (run : Run) (s : σ)
    {program rest : Program} {n : Nat} (htotal : run.total = program.length)
    (hrest : program.drop n = rest) (hn : n ≤ program.length) :
    (∃ ending : Ending, ending = (if n < program.length then .stopped else .exhausted) ∧
      ending.outcome = (if n < program.length then .cancelled else .completed) ∧
      carryOnStory ⟨now, policy, true⟩ run rest s = [⟨now, .ended ending
        ⟨ending.outcome, program.length, run.done, run.startedAt, now⟩, s⟩]) ∧
    (n = program.length → carryOnStory ⟨now, policy, false⟩ run rest s = [⟨now, .ended .exhausted
        ⟨.completed, program.length, run.done, run.startedAt, now⟩, s⟩]) := by
  cases rest with
  | nil =>
    have hlength := Nat.le_antisymm hn (List.drop_eq_nil_iff.1 hrest)
    have hlast : ¬ n < program.length := Nat.not_lt.2 (Nat.le_of_eq hlength.symm)
    refine ⟨⟨.exhausted, ?_, ?_, ?_⟩, fun _ => ?_⟩
    · rw [if_neg hlast]
    · rw [if_neg hlast]
      rfl
    · rw [carryOnStory_nil, lastEntry, htotal]
    · rw [carryOnStory_nil, lastEntry, htotal]
      rfl
  | cons raw rest =>
    have hlt : n < program.length := (List.getElem?_eq_some_iff.1 (getElem?_of_drop hrest).1).1
    refine ⟨⟨.stopped, ?_, ?_, ?_⟩, fun hlength => absurd hlength (Nat.ne_of_lt hlt)⟩
    · rw [if_pos hlt]
    · rw [if_pos hlt]
      rfl
    · rw [carryOnStory_of_stopping rfl, lastEntry, htotal]

omit [Surface σ] in
theorem waits_nil : Waits ([] : Story σ) := fun _ he => absurd he List.not_mem_nil

omit [Surface σ] in
/-- One more wait before the end of the step. -/
theorem EndsAtBoundary.suspended {program : Program} {run next : Run} {free stopped : Story σ}
    (h : EndsAtBoundary program next free stopped) (now wake : Nat) (hold : Hold) (s : σ)
    (hdone : next.done = run.done) (hstarted : next.startedAt = run.startedAt)
    (hpasses : ∀ now turn actions startedAt, next.PassesBy now turn actions startedAt →
      run.PassesBy now turn actions startedAt) (hnumber : next.stepNumber = run.stepNumber) :
    EndsAtBoundary program run (⟨now, .suspended wake hold, s⟩ :: free)
      (⟨now, .suspended wake hold, s⟩ :: stopped) := by
  have more : ∀ {waits : Story σ}, Waits waits →
      Waits (⟨now, .suspended wake hold, s⟩ :: waits) := by
    intro waits hw e he
    rcases List.mem_cons.1 he with rfl | he
    · exact ⟨wake, hold, rfl⟩
    · exact hw e he
  cases h with
  | failing waits u t e hwaits hfree hstopped =>
    refine .failing (⟨now, .suspended wake hold, s⟩ :: waits) u t e (more hwaits) ?_ ?_
    · rw [hfree, hdone, hstarted]
      rfl
    · rw [hstopped]
  | passing waits later u t turn actions startedAt ending hwaits hfree hstopped hpass hactions
      hlength hending houtcome hlast =>
    rw [hnumber] at hlength hending houtcome hlast
    refine .passing (⟨now, .suspended wake hold, s⟩ :: waits) later u t turn actions startedAt
      ending (more hwaits) ?_ ?_ (hpasses _ _ _ _ hpass) hactions hlength hending houtcome hlast
    · rw [hfree]
      rfl
    · rw [hstopped]
      rfl

/-- A run that was only claimed is stopped before its first step. -/
theorem endsAtBoundary_claimed {program : Program} {policy : RunPolicy} {token : Token}
    {total : Nat} {done : List ActionReport} {startedAt : Nat} {p : Program}
    (hu : Underway program ⟨token, total, done, startedAt, .claimed p⟩) (now : Nat) (s : σ) :
    EndsAtBoundary program ⟨token, total, done, startedAt, .claimed p⟩
      (story ⟨now, policy, false⟩ ⟨token, total, done, startedAt, .claimed p⟩ s)
      (story ⟨now, policy, true⟩ ⟨token, total, done, startedAt, .claimed p⟩ s) := by
  obtain ⟨htotal, hactions, rfl, hnil⟩ := hu
  obtain rfl : done = [] := hnil
  obtain ⟨⟨ending, hending, houtcome, hstopped⟩, hlast⟩ :=
    carryOnStory_boundary policy now ⟨token, total, [], now, .claimed p⟩ s htotal List.drop_zero
      (Nat.zero_le _)
  rw [story_claimed, story_claimed]
  refine .passing [] _ now s .opened [] now ending waits_nil rfl ?_ ⟨rfl, rfl, rfl⟩ hactions rfl
    hending houtcome hlast
  exact congrArg (_ :: ·) hstopped

omit [Surface σ] in
/-- A wait that is not over is due later, asked to stop or not. -/
theorem not_isDue_waiting {policy : RunPolicy} (hp : policy.interruptible = false) {now wake : Nat}
    (hw : ¬ wake ≤ now) (stopping : Bool) (token : Token) (total : Nat) (done : List ActionReport)
    (startedAt : Nat) (step : Step) (since : Nat) (hold : Hold) (rest : Program) :
    isDue ⟨now, policy, stopping⟩
      ⟨token, total, done, startedAt, .waiting step since wake hold rest⟩ = false := by
  simp only [isDue, Moment.interrupts, hp, Bool.false_and, Bool.or_false]
  exact decide_eq_false hw

/-- A step that waits comes to its end, asked to stop or not. -/
theorem endsAtBoundary_waiting {program : Program} {policy : RunPolicy}
    (hp : policy.interruptible = false) {token : Token} {total : Nat} {done : List ActionReport}
    {startedAt : Nat} {step : Step} {since wake : Nat} {hold : Hold} {rest : Program}
    (hu : Underway program ⟨token, total, done, startedAt, .waiting step since wake hold rest⟩)
    (now : Nat) (s : σ) :
    EndsAtBoundary program ⟨token, total, done, startedAt, .waiting step since wake hold rest⟩
      (story ⟨now, policy, false⟩
        ⟨token, total, done, startedAt, .waiting step since wake hold rest⟩ s)
      (story ⟨now, policy, true⟩
        ⟨token, total, done, startedAt, .waiting step since wake hold rest⟩ s) := by
  by_cases hw : wake ≤ now
  · -- both runs act at moments that are the same to the step
    have hagree := agrees_of_not_interruptible hp now true false
    have hresumes : Moment.resumes ⟨now, policy, false⟩ wake = true :=
      Moment.resumes_of_le (Bool.and_false _) hw
    rw [story_waiting _ _ _ _ _ _ _ _ _ _ _ hresumes,
      story_waiting _ _ _ _ _ _ _ _ _ _ _ ((resumes_congr hagree wake).trans hresumes),
      resume_congr hagree]
    obtain ⟨htotal, hactions, raw, hraw, hd⟩ := hu
    replace htotal : total = program.length := htotal
    obtain ⟨hget, hdrop⟩ := getElem?_of_drop hraw
    rcases hr : (hold.resume ⟨now, policy, false⟩).run s with ⟨e | _ | ⟨later, more⟩, left⟩
    · -- the step fails
      have hpermits := yields_resume.error hr
      have hfailed : Outcome.ofError (.action e) = .failed (RunError.action e).message := by
        have hquiet := hpermits.not_isInterruption (Bool.and_false _)
        rw [Outcome.ofError, RunError.isCancellation, hquiet]
        rfl
      refine .failing [] now left e waits_nil ?_ rfl
      show [Entry.mk now (.ended (.failed e) ⟨Outcome.ofError (.action e), total, done, startedAt,
        now⟩) left] = _
      rw [hfailed, htotal]
      rfl
    · -- the step is carried out
      have hlength : (done ++ [ActionReport.ofStep step since now]).length = done.length + 1 :=
        List.length_append
      have hle : done.length + 1 ≤ program.length := (List.getElem?_eq_some_iff.1 hget).1
      obtain ⟨⟨ending, hending, houtcome, hstopped⟩, hlast⟩ :=
        carryOnStory_boundary policy now (complete
          ⟨token, total, done, startedAt, .waiting step since wake hold rest⟩ step since now) left
          htotal hdrop hle
      refine .passing [] _ now left (.carriedOut (.ofStep step since now)) _ startedAt ending
        waits_nil rfl ?_ ⟨rfl, rfl, rfl⟩ (hactions.snoc hget hd since now) hlength hending houtcome
        hlast
      exact congrArg (_ :: ·) hstopped
    · -- the step waits again
      have hrank := (gives_resume hw s _ (congrArg Prod.fst hr)).2
      have hnext : Underway program
          ⟨token, total, done, startedAt, .waiting step since later more rest⟩ :=
        ⟨htotal, hactions, raw, hraw, hd⟩
      exact (endsAtBoundary_waiting hp hnext now left).suspended now later more left rfl rfl
        (fun _ _ _ _ => id) rfl
  · -- until the wait is over, nothing is told of either run
    rw [story_of_not_isDue (not_isDue_waiting hp hw _ _ _ _ _ _ _ _ _),
      story_of_not_isDue (not_isDue_waiting hp hw _ _ _ _ _ _ _ _ _)]
    exact endsAtBoundary_waiting hp hu wake s
termination_by (hold.rank wake, wake - now)

/-- **The boundary.** Under a policy that lets nothing end waits, a run that is asked to stop ends
where its step ends. -/
theorem endsAtBoundary_story {program : Program} {policy : RunPolicy}
    (hp : policy.interruptible = false) {run : Run} (hu : Underway program run) (now : Nat)
    (s : σ) :
    EndsAtBoundary program run (run.story ⟨now, policy, false⟩ s)
      (run.story ⟨now, policy, true⟩ s) := by
  obtain ⟨token, total, done, startedAt, stage⟩ := run
  cases stage with
  | claimed p => exact endsAtBoundary_claimed hu now s
  | waiting step since wake hold rest => exact endsAtBoundary_waiting hp hu now s

/-! ## Stop requests that end waits -/

/-- A run that waits ends at once if waits do. -/
theorem story_interrupted {m : Moment} (hi : m.interrupts = true) {run : Run} {step : Step}
    {since wake : Nat} {hold : Hold} {rest : Program}
    (hstage : run.stage = .waiting step since wake hold rest) (hw : m.now < wake) (s : σ) :
    run.story m s = [run.lastEntry m.now (.failed (.interrupted stoppedByUser)) s] := by
  obtain ⟨token, total, done, startedAt, stage⟩ := run
  obtain rfl : stage = .waiting step since wake hold rest := hstage
  have hd : isDue m ⟨token, total, done, startedAt, .waiting step since wake hold rest⟩ = true := by
    simp only [isDue, hi, Bool.or_true]
  rw [story_eq, comesTo_of_isDue hd]
  simp only [account, advance, if_neg (mt Moment.le_of_resumes (Nat.not_le.2 hw)), if_pos hi]
  rfl

/-- A run that was asked to stop before it began ends before its first step. -/
theorem story_of_stopping {m : Moment} (hs : m.stopping = true) {run : Run} {raw : Instruction}
    {rest : Program} (hstage : run.stage = .claimed (raw :: rest)) (s : σ) :
    run.story m s =
      [⟨m.now, .opened, s⟩, { run with startedAt := m.now }.lastEntry m.now .stopped s] := by
  obtain ⟨token, total, done, startedAt, stage⟩ := run
  obtain rfl : stage = .claimed (raw :: rest) := hstage
  rw [story_claimed, carryOnStory_of_stopping hs]

end Run

end FormRehearsal
