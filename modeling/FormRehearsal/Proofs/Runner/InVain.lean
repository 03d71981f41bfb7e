/-
# What is asked in vain

A start while a run is live is refused, a stop request while none is live finds nothing to stop, and
one to a run that was asked to stop before finds it asked. Each of these is answered and gets its
line of text, and that is all: a runner that is not asked so does the same things at the same
instants.

The two runners agree on everything but how often a token is among the cancelled ones. So the proof
follows runners that are alike, that is, renumbered with the numbers that they have: whatever is
done to both, the same comes of it and they stay alike, and what is asked in vain leaves a runner
like itself.

* `Alike.does`, `Alike.scene` : what alike runners do, also when time passes;
* `alike_of_ignores` : what a runner ignores;
* `ignores_iff` : a runner ignores what is asked in vain, as its history has it;
* `undisturbed_course` : what is asked in vain can be left out.
-/
import FormRehearsal.Page.Fixture
import FormRehearsal.Proofs.Runner.Course
import FormRehearsal.Proofs.Runner.Renumbering

namespace FormRehearsal

variable {σ : Type}

/-! ## Doings in vain -/

/-- Nothing but a line of text comes of a doing, and the answer says no more. -/
def Scene.IsLine (scene : Scene σ) : Prop :=
  let refusal : Occasion σ :=
    ⟨scene.now, .refused, [.status "Automation already running."]⟩
  let request : Occasion σ :=
    ⟨scene.now, .stopAsked scene.running, [.status "Stopping automation..."]⟩
  match scene.doing with
  | .run _ | .move (.start _) =>
    scene.occasions = [refusal] ∧ scene.reply? = some (.claim (.error .alreadyRunning))
  | .move (.command (.start _)) =>
    scene.occasions = [refusal] ∧ scene.reply? = some (.ack .alreadyRunning)
  | .move .stop => scene.occasions = [request] ∧ scene.reply? = some (.stop scene.running)
  | .move (.command .stop) => scene.occasions = [request] ∧ scene.reply? = some (.ack .accepted)
  | _ => False

/-- A run is asked for while one is live, or a stop is asked for while none is live or after the run
that is live was asked to stop. -/
def InVain (hs : List (Happening σ)) (doing : Doing σ) : Prop :=
  (doing.asksForRun = true ∧ ∃ token, LiveIn hs token) ∨
    (doing.asksToStop = true ∧
      ((∀ token, ¬ LiveIn hs token) ∨ ∃ token, LiveIn hs token ∧ AskedToStop hs token))

namespace Runner

/-- What comes of the doings that are not ignored. -/
def kept [Surface σ] (r : Runner σ) (doings : List (Doing σ)) : List (Scene σ) :=
  (r.course doings).filter fun scene => !scene.vain

/-- The doings that are not ignored. -/
def effective [Surface σ] (r : Runner σ) (doings : List (Doing σ)) : List (Doing σ) :=
  (r.kept doings).map (·.doing)

theorem kept_cons [Surface σ] (r : Runner σ) (doing : Doing σ) (doings : List (Doing σ)) :
    r.kept (doing :: doings) =
      if r.ignores doing then (r.does doing).kept doings
      else r.scene doing :: (r.does doing).kept doings := by
  have hvain : (r.scene doing).vain = r.ignores doing := rfl
  simp only [kept, course, List.filter_cons, hvain]
  cases r.ignores doing <;> rfl

/-! ## Runners that are alike -/

/-- Two runners are the same, except for how often a token is among the cancelled ones. -/
def Alike (r r' : Runner σ) : Prop :=
  ∃ cancelled, r' = { r with cancelled } ∧
    ∀ token, cancelled.contains token = r.cancelled.contains token

end Runner

namespace Runner

variable {r r' r'' : Runner σ}

theorem Alike.refl (r : Runner σ) : r.Alike r := ⟨r.cancelled, rfl, fun _ => rfl⟩

theorem Alike.symm (h : r.Alike r') : r'.Alike r := by
  obtain ⟨cancelled, rfl, hc⟩ := h
  exact ⟨r.cancelled, rfl, fun token => (hc token).symm⟩

theorem Alike.trans (h : r.Alike r') (h' : r'.Alike r'') : r.Alike r'' := by
  obtain ⟨cancelled, rfl, hc⟩ := h
  obtain ⟨cancelled', rfl, hc'⟩ := h'
  exact ⟨cancelled', rfl, fun token => (hc' token).trans (hc token)⟩

/-- Runners that are alike are renumbered, with the numbers that they have. -/
theorem alike_iff_recoded : r.Alike r' ↔ r.Recoded (.raising 0) r' := by
  simp [Alike, Recoded, Recoding.shift_raising]

theorem Alike.now (h : r.Alike r') : r'.now = r.now := (alike_iff_recoded.1 h).now

theorem Alike.running (h : r.Alike r') : r'.running = r.running := (alike_iff_recoded.1 h).running

variable [Surface σ]

/-- Alike runners stay so. -/
theorem Alike.does (h : r.Alike r') (doing : Doing σ) : (r.does doing).Alike (r'.does doing) := by
  have hdoes := (alike_iff_recoded.1 h).does doing
  rw [Recoding.doing_raising_zero] at hdoes
  exact alike_iff_recoded.2 hdoes

/-- The same comes of a doing. -/
theorem Alike.scene (h : r.Alike r') (doing : Doing σ) : r'.scene doing = r.scene doing := by
  have hscene := (alike_iff_recoded.1 h).scene doing
  rwa [Recoding.doing_raising_zero, Recoding.scene_raising_zero] at hscene

/-! ## What is ignored -/

theorem move_start_of_running (hr : r.running = true) (program : Program) :
    r.move (.start program) = ⟨.refused, [.status RunError.alreadyRunning.message], r⟩ := by
  rw [move, start_of_running hr]
  rfl

omit [Surface σ] in
/-- A runner that ignores a stop request stays as it is. -/
theorem alike_stop (h : (!r.running || r.cancelRequested) = true) : r.Alike r.stop.runner := by
  rcases Bool.eq_false_or_eq_true r.running with hr | hr
  · -- the token is cancelled once more
    have hc : r.cancelled.contains r.token = true := by
      simpa [hr, cancelRequested, isCancelled] using h
    rw [stop_of_running hr]
    refine ⟨r.token :: r.cancelled, rfl, fun token => ?_⟩
    rw [List.contains_cons]
    by_cases ht : token = r.token
    · rw [ht, hc, Bool.or_true]
    · rw [beq_eq_false_iff_ne.2 ht, Bool.false_or]
  · rw [stop_of_idle hr]
    exact .refl r

/-- What comes of a doing that is one move, if the runner stays as it is. -/
theorem scene_of_alike {doing : Doing σ} {move : Move σ} (hm : r.movesOf doing = [move])
    (h : r.Alike (r.move move).runner) :
    r.Alike (r.does doing) ∧
      (r.scene doing).occasions =
        [⟨(r.scene doing).now, (r.move move).answer, (r.move move).events⟩] ∧
      (r.scene doing).running = r.running := by
  have hdoes : r.does doing = (r.move move).runner := by
    rw [Runner.does, hm]
    rfl
  refine ⟨hdoes ▸ h, ?_, ?_⟩
  · show r.occasions (r.movesOf doing) = [⟨(r.does doing).now, _, _⟩]
    rw [hm, hdoes, h.now]
    rfl
  · show (r.does doing).running = r.running
    rw [hdoes, h.running]

/-- A runner that is running refuses a start. -/
theorem ignored_start {doing : Doing σ} {move : Move σ} {program : Program}
    (hr : r.running = true) (hm : r.movesOf doing = [move])
    (hstart : r.move move = r.move (.start program)) :
    r.Alike (r.does doing) ∧
      (r.scene doing).occasions =
        [⟨(r.scene doing).now, .refused, [.status "Automation already running."]⟩] := by
  rw [move_start_of_running hr] at hstart
  obtain ⟨halike, hoccasions, -⟩ := scene_of_alike hm (by rw [hstart]; exact .refl r)
  rw [hstart] at hoccasions
  exact ⟨halike, hoccasions⟩

/-- A runner that is idle, or was asked before, only says that it stops. -/
theorem ignored_stop {doing : Doing σ} {move : Move σ}
    (h : (!r.running || r.cancelRequested) = true) (hm : r.movesOf doing = [move])
    (hstop : r.move move = r.move .stop) :
    r.Alike (r.does doing) ∧ (r.scene doing).running = r.running ∧
      (r.scene doing).occasions = [⟨(r.scene doing).now, .stopAsked (r.scene doing).running,
        [.status "Stopping automation..."]⟩] := by
  obtain ⟨halike, hoccasions, hrunning⟩ := scene_of_alike hm (by rw [hstop]; exact alike_stop h)
  refine ⟨halike, hrunning, ?_⟩
  rw [hoccasions, hstop, hrunning]
  rfl

/-- A runner stays as it is by what it ignores, and one line is said. -/
theorem alike_of_ignores {doing : Doing σ} (h : r.ignores doing = true) :
    r.Alike (r.does doing) ∧ (r.scene doing).IsLine := by
  have answer : r.running = true → ∀ program,
      (r.start program).answer = .error .alreadyRunning := by
    intro hr program
    rw [start_of_running hr]
  cases doing with
  | elapse instant => cases h
  | run program =>
    rw [ignores_of_asksForRun rfl] at h
    have hm : r.movesOf (.run program) = [.start program] := by
      simp only [Runner.movesOf, answer h]
    obtain ⟨halike, hoccasions⟩ := ignored_start h hm rfl
    refine ⟨halike, hoccasions, ?_⟩
    simp only [Runner.scene, Runner.reply?, answer h]
  | move move =>
    have hm := movesOf_move r move
    cases move with
    | start program =>
      rw [ignores_of_asksForRun rfl] at h
      obtain ⟨halike, hoccasions⟩ := ignored_start h hm rfl
      refine ⟨halike, hoccasions, ?_⟩
      simp only [Runner.scene, Runner.reply?, answer h]
    | stop =>
      rw [ignores_of_asksToStop rfl] at h
      obtain ⟨halike, hrunning, hoccasions⟩ := ignored_stop h hm rfl
      refine ⟨halike, hoccasions, ?_⟩
      rw [hrunning]
      rfl
    | command command =>
      cases command with
      | start program =>
        rw [ignores_of_asksForRun rfl] at h
        obtain ⟨halike, hoccasions⟩ := ignored_start h hm ((move_command r).1 program)
        refine ⟨halike, hoccasions, ?_⟩
        simp only [Runner.scene, Runner.reply?, handle, answer h]
      | stop =>
        rw [ignores_of_asksToStop rfl] at h
        obtain ⟨halike, -, hoccasions⟩ := ignored_stop h hm (move_command r).2
        exact ⟨halike, hoccasions, rfl⟩
    | _ => cases h

/-- What is ignored can be left out. -/
theorem Alike.course (h : r.Alike r') (doings : List (Doing σ)) :
    r'.course (r.effective doings) = r.kept doings ∧
      (r.doesAll doings).Alike (r'.doesAll (r.effective doings)) := by
  induction doings generalizing r r' with
  | nil => exact ⟨rfl, h⟩
  | cons doing doings ih =>
    cases hi : r.ignores doing with
    | true =>
      -- the runner that does more stays like the one that does not
      have hkept : r.kept (doing :: doings) = (r.does doing).kept doings := by
        rw [kept_cons, if_pos hi]
      rw [effective, hkept]
      exact ih ((alike_of_ignores hi).1.symm.trans h)
    | false =>
      have hkept : r.kept (doing :: doings) = r.scene doing :: (r.does doing).kept doings := by
        rw [kept_cons, hi]
        rfl
      obtain ⟨hscenes, hlast⟩ := ih (h.does doing)
      rw [effective, hkept]
      refine ⟨?_, hlast⟩
      rw [List.map_cons, Runner.course]
      show r'.scene doing :: (r'.does doing).course ((r.does doing).effective doings) = _
      rw [h.scene, hscenes]

end Runner

/-- A runner ignores what is asked in vain. -/
theorem Owned.ignores_iff {r : Runner σ} {hs : List (Happening σ)} (h : Owned r hs)
    (doing : Doing σ) : r.ignores doing = true ↔ InVain hs doing := by
  have live : (∃ token, LiveIn hs token) ↔ r.running = true := by
    constructor
    · rintro ⟨token, hl⟩
      exact ((h.live token).1 hl).1
    · exact fun hr => ⟨r.token, (h.live _).2 ⟨hr, rfl⟩⟩
  have asked : (∃ token, LiveIn hs token ∧ AskedToStop hs token) ↔ r.cancelRequested = true := by
    rw [Runner.cancelRequested, Bool.and_eq_true, h.cancelled]
    constructor
    · rintro ⟨token, hl, ha⟩
      obtain ⟨hr, rfl⟩ := (h.live token).1 hl
      exact ⟨hr, ha⟩
    · rintro ⟨hr, ha⟩
      exact ⟨r.token, (h.live _).2 ⟨hr, rfl⟩, ha⟩
  rw [InVain, ← not_exists, live, asked]
  simp [Runner.ignores]

/-! ## What is asked in vain can be left out -/

section

variable [Surface σ]

/-- What is asked in vain of a runner does not disturb the rest. -/
structure Undisturbed (w : World σ) (doings : List (Doing σ)) : Prop where
  /-- the scenes are what happens to the runner -/
  history : (w.afterAll (w.runner.moves doings)).history =
    w.history ++ (w.runner.course doings).flatMap (·.occasions)
  /-- a doing is ignored exactly when it is in vain after what happened before it -/
  vain : ∀ before scene after, w.runner.course doings = before ++ scene :: after →
    (scene.vain = true ↔ InVain (w.happenings ++ happeningsIn before) scene.doing)
  /-- then a line is said, and that is all -/
  line : ∀ scene ∈ w.runner.course doings, scene.vain = true → scene.IsLine
  /-- the same comes of the other doings when those in vain are left out -/
  kept : w.runner.course (w.runner.effective doings) = w.runner.kept doings
  /-- and the runner that is left is the same -/
  last : (w.runner.doesAll doings).Alike (w.runner.doesAll (w.runner.effective doings))

/-- **In vain.** Whatever is done with a runner and whenever, the starts that come while a run is
live are refused, and the stop requests that come while none is live, or after the run that is live
was asked to stop, have no effect. Without them the same comes of the rest: the same answers, the
same happenings with the same lines at the same instants, the same reports, the same surfaces. Both
are on one runtime, which makes the same of a stop request that comes when a wait is over. -/
theorem undisturbed_course (s : σ) (policy : RunPolicy) (doings : List (Doing σ)) :
    Undisturbed (World.fresh s policy) doings := by
  have howned : Owned (World.fresh s policy).runner (World.fresh s policy).happenings :=
    owned_fresh s policy
  obtain ⟨hkept, hlast⟩ := (Runner.Alike.refl (World.fresh s policy).runner).course doings
  constructor
  case history => rw [World.afterAll_eq, Runner.occasions_moves]
  case vain =>
    intro before scene after hcourse
    obtain ⟨earlier, rfl, hscene⟩ := Runner.of_course_eq_append hcourse
    rw [hscene]
    exact (howned.doesAll earlier).ignores_iff scene.doing
  case line =>
    intro scene hm hvain
    obtain ⟨before, after, hcourse⟩ := List.append_of_mem hm
    obtain ⟨earlier, -, hscene⟩ := Runner.of_course_eq_append hcourse
    rw [hscene] at hvain ⊢
    exact (Runner.alike_of_ignores hvain).2
  case kept => exact hkept
  case last => exact hlast

/-- A run is started and waited for; meanwhile another start comes and two stop requests, and a stop
request comes before and after it. What is left is the run and the first of the two requests. -/
theorem undisturbed_course_wait :
    let program : Program := [[("action", .string "wait"), ("ms", .string "200")]]
    let w := World.fresh (PageFixture.page {}) {}
    let r := w.runner
    let doings := [.move .stop, .run program, .elapse 100, .move (.command (.start program)),
      .move .stop, .move .stop, .elapse 500, .move (.command .stop)]
    (r.course doings).map (·.vain) = [true, false, false, true, false, true, false, true] ∧
      r.course (r.effective doings) = r.kept doings ∧
      told ((w.afterAll (r.moves (r.effective doings))).history) =
        StatusEvent.toldAt 0
          [.runningBadge, .status "Automation running...", .status "Step 1/1: wait"] ++
        StatusEvent.toldAt 100 [.status "Stopping automation..."] ++
        StatusEvent.toldAt 200 [.status "Automation completed.", .idleBadge] := by
  intro program w r doings
  refine ⟨by decide +kernel, (undisturbed_course (PageFixture.page {}) {} doings).kept, ?_⟩
  decide +kernel

end

end FormRehearsal
