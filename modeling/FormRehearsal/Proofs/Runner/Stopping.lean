/-
# Stop requests to a runner

A runner that is asked to stop and one that is not are left alone from then on. If the policy lets
no stop request end waits, both do the same up to the end of the step in which the run is, and then
the run that was asked to stop ends. If it does, that run ends there and then, and the surface stays
as the run left it when it began to wait.

* `stop_at_boundary` : a stop request under a policy that lets nothing end waits;
* `stop_at_once` : a stop request under a policy that lets it end waits.
-/
import FormRehearsal.Page.Fixture
import FormRehearsal.Proofs.Run.Stopping
import FormRehearsal.Proofs.Runner.Clock
import FormRehearsal.Proofs.Runner.Said

namespace FormRehearsal

variable {σ : Type} [Surface σ]

/-! ## Runners that are asked to stop -/

namespace Runner

variable {r : Runner σ}

/-- What the run of a token does that is not asked to stop, and that is. -/
theorem tells_stop {hs : List (Happening σ)} (h : Owned r hs) {token : Token} {run : Run}
    (hf : r.find? token = some run) (hc : r.isCancelled token = false) :
    r.Tells token (run.story ⟨r.now, r.policy, false⟩ r.surface) ∧
      r.stop.runner.Tells token (run.story ⟨r.now, r.policy, true⟩ r.surface) := by
  obtain ⟨hr, hruns, htoken, rfl⟩ := h.eq_of_find? hf
  have free := tells_story run r hruns
  have hstop : r.stop.runner.runs = [run] := by
    rw [stop_of_running hr]
    exact hruns
  have stopped := tells_story run r.stop.runner hstop
  have hfree : r.moment run.token = ⟨r.now, r.policy, false⟩ := by
    rw [moment, htoken, hc]
  -- the request cancels the token of the run and changes nothing else
  have hstopped : r.stop.runner.moment run.token = ⟨r.now, r.policy, true⟩ := by
    have hcancelled : r.stop.runner.isCancelled run.token = true := by
      rw [isCancelled, stop_of_running hr, htoken]
      simp
    rw [moment, hcancelled, stop_of_running hr]
  rw [hfree, htoken] at free
  rw [hstopped, htoken, stop_of_running hr] at stopped
  rw [stop_of_running hr]
  exact ⟨free, stopped⟩

end Runner

/-- **Stopping at the boundary.** A stop request to a run that waits or has not begun, under a
policy that lets nothing end waits: up to the end of the step in which the run is, it does the same
as the run that is not asked to stop, at the same instants. If the step fails, both end with that;
if not, the run ends there, is completed if this was the last step and cancelled otherwise, and
nothing of the next step is looked at. -/
theorem stop_at_boundary (s : σ) (policy : RunPolicy) (moves : List (Move σ))
    (hp : policy.interruptible = false) :
    let w := (World.fresh s policy).afterAll moves
    ∀ token program run, .claimed token program ∈ w.happenings →
      w.runner.find? token = some run → w.runner.isCancelled token = false →
        w.saidBy token = run.said program ∧
          ∃ free stopped, w.runner.Tells token free ∧ w.runner.stop.runner.Tells token stopped ∧
            Run.EndsAtBoundary program run free stopped := by
  intro w token program run hm hf hc
  have h := keeps_afterAll s policy moves
  obtain ⟨-, hruns, htoken, rfl⟩ := h.owned.eq_of_find? hf
  obtain ⟨hunder, hsaid⟩ := h.live _ program hm run (hruns ▸ List.mem_singleton.2 rfl) htoken
  obtain ⟨hfree, hstopped⟩ := Runner.tells_stop h.owned hf hc
  refine ⟨hsaid, _, _, hfree, hstopped, ?_⟩
  apply Run.endsAtBoundary_story _ hunder
  rw [World.policy_afterAll]
  exact hp

/-- A stop request that comes while the first of two steps waits; the second one names no action. -/
theorem stop_at_boundary_wait :
    let program : Program :=
      [[("action", .string "wait"), ("ms", .string "400")], [("action", .string "nothing")]]
    let w := (World.fresh (PageFixture.page {}) {}).afterAll
      [.start program, .goOn ⟨1⟩, .pass 150]
    ∃ run free stopped, w.runner.Tells ⟨1⟩ free ∧ w.runner.stop.runner.Tells ⟨1⟩ stopped ∧
      Run.EndsAtBoundary program run free stopped ∧ run.stepNumber = 1 := by
  intro program w
  obtain ⟨-, free, stopped, hfree, hstopped, hends⟩ := stop_at_boundary (PageFixture.page {}) {}
    [.start program, .goOn ⟨1⟩, .pass 150] rfl ⟨1⟩ program _
    (List.mem_of_getElem? (i := 0) rfl) rfl rfl
  exact ⟨_, free, stopped, hfree, hstopped, hends, rfl⟩

/-- A run that waits inside a step ends at once when it is asked to stop. -/
structure EndsInside (w : World σ) (program : Program) (token : Token) (run : Run) : Prop where
  /-- the step was announced -/
  announced : w.saidBy token = Run.opening ++ stepLines program run.stepNumber
  /-- it is not among those that were carried out -/
  completed : run.done.length + 1 = run.stepNumber
  /-- if the run is not asked to stop, it does nothing before the wait is over -/
  free : ∃ free, w.runner.Tells token free ∧ ∀ e ∈ free, w.runner.now < e.instant
  /-- if it is, it ends as cancelled, and that is all -/
  stopped : w.runner.stop.runner.Tells token
    [⟨w.runner.now, .ended (.failed (.interrupted stoppedByUser))
      ⟨.cancelled, program.length, run.done, run.startedAt, w.runner.now⟩, w.runner.surface⟩]
  /-- it leaves the surface that the run that was not asked to stop has now -/
  surface : ∀ t, w.runner.now ≤ t → (w.runner.stop.runner.elapse t).runner.surface =
    (w.runner.elapse w.runner.now).runner.surface

/-- A run that has not begun ends before its first step when it is asked to stop. -/
def EndsBefore (w : World σ) (program : Program) (token : Token) : Prop :=
  w.runner.stop.runner.Tells token
    [⟨w.runner.now, .opened, w.runner.surface⟩,
      ⟨w.runner.now, .ended .stopped
        ⟨.cancelled, program.length, [], w.runner.now, w.runner.now⟩, w.runner.surface⟩]

/-- **Stopping at once.** A stop request under a policy that lets it end waits: a run that waits
until later ends at the instant of the request, as cancelled and without the step that waits, and
the surface stays as it is for the run that is not asked to stop. A run that has not begun and has a
step ends before its first step. -/
theorem stop_at_once (s : σ) (policy : RunPolicy) (moves : List (Move σ))
    (hp : policy.interruptible = true) :
    let w := (World.fresh s policy).afterAll moves
    ∀ token program run, .claimed token program ∈ w.happenings →
      w.runner.find? token = some run → w.runner.isCancelled token = false →
        (∀ step since wake hold rest, run.stage = .waiting step since wake hold rest →
          w.runner.now < wake → EndsInside w program token run) ∧
        (∀ steps, run.stage = .claimed steps → program ≠ [] → EndsBefore w program token) := by
  intro w token program run hm hf hc
  have h := keeps_afterAll s policy moves
  obtain ⟨-, hruns, htoken, rfl⟩ := h.owned.eq_of_find? hf
  obtain ⟨hunder, hsaid⟩ := h.live _ program hm run (hruns ▸ List.mem_singleton.2 rfl) htoken
  obtain ⟨hfree, hstopped⟩ := Runner.tells_stop h.owned hf hc
  have hpolicy : w.runner.policy.interruptible = true := by
    rw [World.policy_afterAll]
    exact hp
  have hnow : w.runner.stop.runner.now = w.runner.now := by
    rw [Runner.stop]
    dsimp only
    split <;> rfl
  have hsurface : w.runner.stop.runner.surface = w.runner.surface := by
    rw [Runner.stop]
    dsimp only
    split <;> rfl
  constructor
  · intro step since wake hold rest hstage hw
    -- waits end at once only for the run that is asked to stop
    have hi : Moment.interrupts ⟨w.runner.now, w.runner.policy, true⟩ = true := by
      rw [Moment.interrupts, hpolicy]
      rfl
    have hd : run.isDue ⟨w.runner.now, w.runner.policy, false⟩ = false := by
      simp only [Run.isDue, hstage, Moment.interrupts, Bool.and_false, Bool.or_false]
      exact decide_eq_false (Nat.not_le.2 hw)
    have hlater := Run.lt_instant_story hd w.runner.surface
    rw [Run.story_interrupted hi hstage hw, Run.lastEntry, hunder.total] at hstopped
    constructor
    case announced =>
      rw [hsaid]
      simp only [Run.said, Run.stepNumber, hstage]
    case completed => simp only [Run.stepNumber, hstage]
    case free => exact ⟨_, hfree, hlater⟩
    case stopped => exact hstopped
    case surface =>
      intro t ht
      rw [hstopped.surface t (hnow ▸ ht), hfree.surface w.runner.now (Nat.le_refl _),
        Story.upTo_of_lt hlater, Story.upTo_of_le]
      · rfl
      · intro e he
        rw [List.mem_singleton.1 he]
        exact ht
  · intro steps hstage hne
    obtain ⟨htotal, -, hunder⟩ := hunder
    rw [hstage] at hunder
    obtain ⟨rfl, hdone⟩ := hunder
    obtain ⟨raw, rest, rfl⟩ := List.exists_cons_of_ne_nil hne
    rw [Run.story_of_stopping rfl hstage, Run.lastEntry] at hstopped
    dsimp only at hstopped
    rw [htotal, hdone] at hstopped
    exact hstopped

/-- A stop request that comes while the first of two steps waits, and one that comes before it. -/
theorem stop_at_once_wait :
    let program : Program :=
      [[("action", .string "wait"), ("ms", .string "400")], [("action", .string "nothing")]]
    let w := World.fresh (PageFixture.page {}) { interruptible := true }
    (∃ run, EndsInside (w.afterAll [.start program, .goOn ⟨1⟩, .pass 150]) program ⟨1⟩ run ∧
      run.stepNumber = 1) ∧ EndsBefore (w.afterAll [.start program]) program ⟨1⟩ := by
  intro program w
  have inside := stop_at_once (PageFixture.page {}) { interruptible := true }
    [.start program, .goOn ⟨1⟩, .pass 150] rfl ⟨1⟩ program _
    (List.mem_of_getElem? (i := 0) rfl) rfl rfl
  have before := stop_at_once (PageFixture.page {}) { interruptible := true } [.start program] rfl
    ⟨1⟩ program _ (List.mem_of_getElem? (i := 0) rfl) rfl rfl
  refine ⟨⟨_, inside.1 _ _ _ _ _ rfl (by decide), rfl⟩, before.2 _ rfl ?_⟩
  exact List.cons_ne_nil _ _

end FormRehearsal
