/-
# Stories of runs

A run to which nothing happens but time goes on whenever its wait is over. Its story is one account
after another: it begins no earlier than the run is looked at, its instants never decrease, and it
ends.

* `running_advance` : a run that waits again does so until later;
* `story_of_running`, `story_of_ended` : a story is one account after another;
* `le_instant_story` : when a story begins;
* `story_ends` : the last entry of a story is that the run ends.
-/
import FormRehearsal.Proofs.Run.Account

namespace FormRehearsal

namespace Run

variable {σ : Type} [Surface σ]

/-! ## Runs that wait again -/

/-- A run that waits while it carries out a program keeps its token, and it waits until later: no
stop request ends its wait. -/
theorem running_carryOn (run : Run) {m : Moment} {next : Run} {program : Program} {s : σ}
    (h : (carryOn m run program s).state = .running next) :
    next.token = run.token ∧ next.isDue m = false := by
  induction program generalizing run s with
  | nil => cases h
  | cons raw rest ih =>
    cases beginning m raw s with
    | stopped hs =>
      rw [carryOn, if_pos hs] at h
      cases h
    | unknown e hs hk =>
      simp only [carryOn, hs, hk] at h
      cases h
    | undecodable kind e hs hk hd =>
      simp only [carryOn, hs, hk, hd] at h
      cases h
    | failed kind step e left hs hk hd hr =>
      simp only [carryOn, hs, hk, hd, hr] at h
      cases h
    | finished kind step left hs hk hd hr =>
      simp only [carryOn, hs, hk, hd, hr, Bool.false_eq_true, if_false] at h
      exact ih (run.complete step m.now m.now) h
    | waiting kind step wake hold left hs hk hd hr =>
      simp only [carryOn, hs, hk, hd, hr] at h
      cases h
      -- the step began now, so it waits until later
      obtain ⟨hw, hi⟩ := (yields_start step).ok hr
      refine ⟨rfl, ?_⟩
      simp only [isDue, hi, Bool.or_false]
      exact decide_eq_false (Nat.not_le.2 hw)

/-- A run that waits again keeps its token and is not due. -/
theorem running_advance {m : Moment} {run next : Run} {s : σ}
    (h : (run.advance m s).state = .running next) :
    next.token = run.token ∧ next.isDue m = false := by
  obtain ⟨token, total, done, startedAt, stage⟩ := run
  cases stage with
  | claimed program => exact running_carryOn ⟨token, total, done, m.now, _⟩ h
  | waiting step since wake hold rest =>
    simp only [advance] at h
    by_cases hw : m.resumes wake = true
    · rw [if_pos hw] at h
      rcases hr : (hold.resume m).run s with ⟨e | _ | ⟨later, more⟩, left⟩
      · rw [hr] at h
        cases h
      · rw [hr] at h
        exact running_carryOn (complete ⟨token, total, done, startedAt, _⟩ step since m.now) h
      · rw [hr] at h
        cases h
        obtain ⟨hlater, hi⟩ := yields_resume.ok hr
        refine ⟨rfl, ?_⟩
        simp only [isDue, hi, Bool.or_false]
        exact decide_eq_false (Nat.not_le.2 hlater)
    · rw [if_neg hw] at h
      by_cases hi : m.interrupts = true
      · rw [if_pos hi] at h
        cases h
      · rw [if_neg hi] at h
        cases h
        exact ⟨rfl, Bool.eq_false_iff.2 fun hd => hi (Moment.interrupts_of_not_resumes hd hw)⟩

omit [Surface σ] in
/-- A run that is not due goes on later. -/
theorem lt_wakesAt {m : Moment} {run : Run} (h : run.isDue m = false) :
    m.now < run.wakesAt m.now := by
  obtain ⟨token, total, done, startedAt, stage⟩ := run
  cases stage with
  | claimed program => cases h
  | waiting step since wake hold rest =>
    simp only [isDue, Bool.or_eq_false_iff] at h
    exact Nat.not_le.1 (of_decide_eq_false h.1)

/-! ## Stories -/

/-- The moment at which a run goes on, if nothing happens but that time passes. -/
def comesTo (m : Moment) (run : Run) : Moment :=
  if run.isDue m then m else { m with now := run.wakesAt m.now }

omit [Surface σ] in
theorem comesTo_of_isDue {m : Moment} {run : Run} (h : run.isDue m = true) : run.comesTo m = m :=
  if_pos h

omit [Surface σ] in
theorem comesTo_of_not_isDue {m : Moment} {run : Run} (h : run.isDue m = false) :
    run.comesTo m = { m with now := run.wakesAt m.now } :=
  if_neg (Bool.eq_false_iff.1 h)

omit [Surface σ] in
theorem isDue_wakesAt {m : Moment} {run : Run} :
    run.isDue { m with now := run.wakesAt m.now } = true := by
  obtain ⟨token, total, done, startedAt, stage⟩ := run
  cases stage with
  | claimed program => rfl
  | waiting step since wake hold rest =>
    show (decide (wake ≤ wake) || _) = true
    rw [decide_eq_true (Nat.le_refl wake), Bool.true_or]

omit [Surface σ] in
/-- A run is due when it goes on. -/
theorem isDue_comesTo (m : Moment) (run : Run) : run.isDue (run.comesTo m) = true := by
  cases h : run.isDue m with
  | true =>
    rw [comesTo_of_isDue h]
    exact h
  | false =>
    rw [comesTo_of_not_isDue h]
    exact isDue_wakesAt

omit [Surface σ] in
theorem le_now_comesTo (m : Moment) (run : Run) : m.now ≤ (run.comesTo m).now := by
  cases h : run.isDue m with
  | true =>
    exact Nat.le_of_eq (congrArg Moment.now (comesTo_of_isDue h)).symm
  | false =>
    rw [comesTo_of_not_isDue h]
    exact Nat.le_of_lt (lt_wakesAt h)

/-- What a run does from a moment on, if nothing happens but that time passes. -/
def story (m : Moment) (run : Run) (s : σ) : Story σ :=
  let g := run.advance (run.comesTo m) s
  run.account (run.comesTo m) s ++
    match _h : g.state with
    | .ended _ => []
    | .running next => story (run.comesTo m) next g.surface
termination_by run.rank
decreasing_by exact advance_nearer (isDue_comesTo m run) _h

/-- What is told of a run after a segment. -/
def afterwards (m : Moment) (g : Segment σ) : Story σ :=
  match g.state with
  | .ended _ => []
  | .running next => next.story m g.surface

/-- A story is an account and what is told afterwards. -/
theorem story_eq (m : Moment) (run : Run) (s : σ) :
    run.story m s = run.account (run.comesTo m) s ++
      afterwards (run.comesTo m) (run.advance (run.comesTo m) s) := by
  rw [story, afterwards]
  split <;> simp_all

theorem story_of_ended {m : Moment} {run : Run} {s : σ} {report : Report}
    (h : (run.advance (run.comesTo m) s).state = .ended report) :
    run.story m s = run.account (run.comesTo m) s := by
  rw [story_eq, afterwards, h]
  exact List.append_nil _

theorem story_of_running {m : Moment} {run next : Run} {s : σ}
    (h : (run.advance (run.comesTo m) s).state = .running next) :
    run.story m s = run.account (run.comesTo m) s ++
      next.story (run.comesTo m) (run.advance (run.comesTo m) s).surface := by
  rw [story_eq, afterwards, h]

/-- Until a run is due, nothing is told of it. -/
theorem story_of_not_isDue {m : Moment} {run : Run} (h : run.isDue m = false) (s : σ) :
    run.story m s = run.story { m with now := run.wakesAt m.now } s := by
  have hsame : run.comesTo m = run.comesTo { m with now := run.wakesAt m.now } := by
    rw [comesTo_of_not_isDue h, comesTo_of_isDue isDue_wakesAt]
  rw [story_eq, story_eq, hsame]

/-- What holds of the accounts of a run holds of its story. -/
theorem story_induction {P : Moment → Run → σ → Story σ → Prop}
    (ended : ∀ m run s report, (run.advance (run.comesTo m) s).state = .ended report →
      P m run s (run.account (run.comesTo m) s))
    (running : ∀ m run s next, (run.advance (run.comesTo m) s).state = .running next →
      P (run.comesTo m) next (run.advance (run.comesTo m) s).surface
        (next.story (run.comesTo m) (run.advance (run.comesTo m) s).surface) →
      P m run s (run.account (run.comesTo m) s ++
        next.story (run.comesTo m) (run.advance (run.comesTo m) s).surface))
    (m : Moment) (run : Run) (s : σ) : P m run s (run.story m s) := by
  induction m, run, s using story.induct with
  | case1 m run s g ih =>
    cases h : (run.advance (run.comesTo m) s).state with
    | ended report =>
      rw [story_of_ended h]
      exact ended m run s report h
    | running next =>
      rw [story_of_running h]
      exact running m run s next h (ih next h)

/-- A story begins when the run is due. -/
theorem le_instant_story (m : Moment) (run : Run) (s : σ) :
    ∀ e ∈ run.story m s, (run.comesTo m).now ≤ e.instant := by
  refine story_induction (P := fun m run _ story => ∀ e ∈ story, (run.comesTo m).now ≤ e.instant)
    ?_ ?_ m run s
  · intro m run s report h e he
    exact Nat.le_of_eq ((tells_account _ run s).instants e he).symm
  · intro m run s next h ih e he
    rcases List.mem_append.1 he with he | he
    · exact Nat.le_of_eq ((tells_account _ run s).instants e he).symm
    · exact Nat.le_trans (le_now_comesTo _ next) (ih e he)

/-- The story of a run that is not due has yet to begin. -/
theorem lt_instant_story {m : Moment} {run : Run} (hd : run.isDue m = false) (s : σ) :
    ∀ e ∈ run.story m s, m.now < e.instant := by
  intro e he
  have hle := le_instant_story m run s e he
  rw [comesTo_of_not_isDue hd] at hle
  exact Nat.lt_of_lt_of_le (lt_wakesAt hd) hle

/-- A story ends with the end of the run. -/
theorem story_ends (m : Moment) (run : Run) (s : σ) :
    ∃ report, Story.reports (run.story m s) = [report] := by
  refine story_induction (P := fun _ _ _ story => ∃ report, Story.reports story = [report])
    ?_ ?_ m run s
  · intro m run s report h
    refine ⟨report, ?_⟩
    rw [← (tells_account _ run s).reports, h]
    rfl
  · intro m run s next h ih
    obtain ⟨report, hreport⟩ := ih
    refine ⟨report, ?_⟩
    rw [Story.reports_append, ← (tells_account _ run s).reports, h, hreport]
    rfl

end Run

end FormRehearsal
