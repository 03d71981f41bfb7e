/-
# Runners while time passes

A runner with one run goes on with it whenever its wait is over. What a runner does until an instant
is the part of the story of its run that is not later; the badge is cleared for abandoned runs
before time passes.

* `Tells` : what a runner does until any instant, as a story tells it;
* `tells_story` : a runner does what the story of its run tells.
-/
import FormRehearsal.Proofs.Run.Story
import FormRehearsal.Proofs.Runner.Ownership

namespace FormRehearsal

/-! ## Parts of stories -/

namespace Story

variable {σ : Type} {a b story : Story σ} {t u : Nat}

/-- The part of a story that is not later than an instant. -/
def upTo (story : Story σ) (t : Nat) : Story σ := story.takeWhile (·.instant ≤ t)

/-- The part of a story that begins after an instant. -/
def since (story : Story σ) (t : Nat) : Story σ := story.dropWhile (·.instant ≤ t)

theorem upTo_append (h : ∀ e ∈ a, e.instant ≤ t) : (a ++ b).upTo t = a ++ b.upTo t := by
  apply List.takeWhile_append_of_pos
  exact fun e he => decide_eq_true (h e he)

theorem since_append (h : ∀ e ∈ a, e.instant ≤ t) : (a ++ b).since t = b.since t := by
  apply List.dropWhile_append_of_pos
  exact fun e he => decide_eq_true (h e he)

/-- All of a story that is not later. -/
theorem upTo_of_le (h : ∀ e ∈ story, e.instant ≤ t) : story.upTo t = story := by
  have hall := upTo_append (b := []) h
  rw [List.append_nil] at hall
  exact hall.trans (List.append_nil story)

/-- Nothing of a story that begins later. -/
theorem upTo_of_lt (h : ∀ e ∈ story, t < e.instant) : story.upTo t = [] := by
  cases story with
  | nil => rfl
  | cons e story =>
    apply List.takeWhile_cons_of_neg
    simpa using h e List.mem_cons_self

/-- All of a story that begins later. -/
theorem since_of_lt (h : ∀ e ∈ story, t < e.instant) : story.since t = story := by
  cases story with
  | nil => rfl
  | cons e story =>
    apply List.dropWhile_cons_of_neg
    simpa using h e List.mem_cons_self

/-- A story up to an instant, in two parts. -/
theorem upTo_append_since (story : Story σ) (h : t ≤ u) :
    story.upTo t ++ (story.since t).upTo u = story.upTo u := by
  have hsplit : story = story.upTo t ++ story.since t := List.takeWhile_append_dropWhile.symm
  -- the first part is not later than the second instant either
  have hle : ∀ e ∈ story.upTo t, e.instant ≤ u := by
    intro e he
    exact Nat.le_trans (of_decide_eq_true (List.all_eq_true.1 List.all_takeWhile e he)) h
  rw [← upTo_append hle, ← hsplit]

/-- All of a story is over at some instant. -/
theorem exists_upTo (t : Nat) (story : Story σ) : ∃ u, t ≤ u ∧ story.upTo u = story := by
  have bound : ∃ u, t ≤ u ∧ ∀ e ∈ story, e.instant ≤ u := by
    induction story with
    | nil => exact ⟨t, Nat.le_refl t, fun _ he => absurd he List.not_mem_nil⟩
    | cons e story ih =>
      obtain ⟨u, ht, hu⟩ := ih
      refine ⟨max u e.instant, Nat.le_trans ht (Nat.le_max_left _ _), fun e' he => ?_⟩
      rcases List.mem_cons.1 he with rfl | he
      · exact Nat.le_max_right _ _
      · exact Nat.le_trans (hu e' he) (Nat.le_max_left _ _)
  obtain ⟨u, ht, hu⟩ := bound
  exact ⟨u, ht, upTo_of_le hu⟩

end Story

/-- What happened before a passage of time, and then. -/
def Passage.after {σ : Type} (p : Passage σ) (endings : Endings) (events : List TimedEvent) :
    Passage σ :=
  ⟨endings ++ p.endings, events ++ p.events, p.runner⟩

namespace Runner

variable {σ : Type} [Surface σ] {r : Runner σ} {run : Run}

/-! ## Runners that rest -/

/-- Settling a runner with one run is going on with it and clearing the badge. -/
theorem settle_of_one (h : r.runs = [run]) :
    r.settle = ⟨(r.advance run.token).answer,
      (r.advance run.token).events ++
        List.replicate (r.advance run.token).runner.clearings .idleBadge,
      { (r.advance run.token).runner with clearings := 0 }⟩ := by
  simp [settle, h, advanceAll]

/-- There is nothing to do at the present instant. -/
def Rests (r : Runner σ) : Prop :=
  r.clearings = 0 ∧ (r.runs = [] ∨ ∃ run, r.runs = [run] ∧ run.isDue (r.moment run.token) = false)

/-- Going on with a run that is not due changes nothing. -/
theorem advance_of_not_isDue (h : r.runs = [run]) (hd : run.isDue (r.moment run.token) = false) :
    r.advance run.token = ⟨[], [], r⟩ := by
  have hsame := Run.advance_of_not_isDue (s := r.surface) hd
  have hs : (run.advance (r.moment run.token) r.surface).state = .running run := by rw [hsame]
  rw [advance_of_running h rfl hs, hsame, ← h]

theorem settle_of_rests (h : r.Rests) : r.settle = ⟨[], [], r⟩ := by
  obtain ⟨surface, policy, now, running, token, lastSerial, cancelled, runs, clearings⟩ := r
  obtain ⟨rfl, rfl | ⟨run, rfl, hd⟩⟩ := h
  · rfl
  · rw [settle_of_one rfl, advance_of_not_isDue rfl hd]
    rfl

/-- A runner with one run rests once it is settled. -/
theorem rests_settle (h : r.runs = [run]) : r.settle.runner.Rests := by
  rw [settle_of_one h]
  refine ⟨rfl, ?_⟩
  cases hs : (run.advance (r.moment run.token) r.surface).state with
  | running next =>
    obtain ⟨htoken, hd⟩ := Run.running_advance hs
    right
    rw [advance_of_running h rfl hs]
    refine ⟨next, rfl, ?_⟩
    rw [htoken]
    exact hd
  | ended report =>
    left
    rw [advance_of_ended h rfl hs]
    rfl

/-- What a runner does while time passes is what it does at once, and what it does then. -/
theorem elapse_settle (h : r.settle.runner.Rests) (t : Nat) :
    r.elapse t =
      (r.settle.runner.elapse t).after r.settle.answer
        (StatusEvent.toldAt r.now r.settle.events) := by
  rw [elapse.eq_def r t, elapse.eq_def r.settle.runner t, settle_of_rests h, now_settle]
  cases hn : r.settle.runner.nextWake? with
  | none => simp [hn, Passage.after, StatusEvent.toldAt]
  | some wake =>
    simp only [hn]
    by_cases hw : r.now < wake ∧ wake ≤ t
    · simp [if_pos hw, Passage.after, StatusEvent.toldAt]
    · simp [if_neg hw, Passage.after, StatusEvent.toldAt]

/-- A runner without runs lets time pass. -/
theorem elapse_of_nil (h : r.Rests) (hruns : r.runs = []) (t : Nat) :
    r.elapse t = ⟨[], [], { r with now := max r.now t }⟩ := by
  rw [elapse, settle_of_rests h]
  have hw : r.nextWake? = none := by rw [nextWake?, hruns]; rfl
  simp [hw, StatusEvent.toldAt]

/-- A runner that rests sleeps until its run goes on. -/
theorem elapse_of_one (h : r.Rests) (hruns : r.runs = [run]) (hw : r.now < run.wakesAt r.now)
    (t : Nat) :
    r.elapse t =
      if run.wakesAt r.now ≤ t then { r with now := run.wakesAt r.now }.elapse t
      else ⟨[], [], { r with now := max r.now t }⟩ := by
  have hnext : r.nextWake? = some (run.wakesAt r.now) := by rw [nextWake?, hruns]; rfl
  rw [elapse, settle_of_rests h]
  dsimp only
  rw [hnext]
  dsimp only
  by_cases ht : run.wakesAt r.now ≤ t
  · rw [if_pos ht, if_pos ⟨hw, ht⟩]
    rfl
  · rw [if_neg ht, if_neg fun hc => ht hc.2]
    rfl

/-! ## What a story tells of a runner -/

/-- A story tells what a runner does until any instant: the surface then, the reports of the run of
a token, and what is said when. At the present instant the badge is cleared for abandoned runs after
what the run says. -/
structure Tells (r : Runner σ) (token : Token) (story : Story σ) : Prop where
  surface : ∀ t, r.now ≤ t → (r.elapse t).runner.surface = Story.surface r.surface (story.upTo t)
  endings : ∀ t, r.now ≤ t →
    (r.elapse t).endings = (Story.reports (story.upTo t)).map fun report => (token, report)
  events : ∀ t, r.now ≤ t →
    (r.elapse t).events =
      Story.events (story.upTo r.now) ++
        StatusEvent.toldAt r.now (List.replicate r.clearings .idleBadge) ++
          Story.events ((story.since r.now).upTo t)

/-- There is nothing to tell of a runner without runs. -/
theorem tells_nil {token : Token} (h : r.Rests) (hruns : r.runs = []) : r.Tells token [] where
  surface := by
    intro t _
    rw [elapse_of_nil h hruns]
    rfl
  endings := by
    intro t _
    rw [elapse_of_nil h hruns]
    rfl
  events := by
    intro t _
    rw [elapse_of_nil h hruns, h.1]
    rfl

/-- What is done at once comes before what is done later. -/
theorem Tells.settle {token : Token} {done later : Story σ} (hrests : r.settle.runner.Rests)
    (hdone : ∀ e ∈ done, e.instant = r.now) (hlater : ∀ e ∈ later, r.now < e.instant)
    (hsurface : r.settle.runner.surface = Story.surface r.surface done)
    (hendings : r.settle.answer = (Story.reports done).map fun report => (token, report))
    (hevents : StatusEvent.toldAt r.now r.settle.events =
      Story.events done ++ StatusEvent.toldAt r.now (List.replicate r.clearings .idleBadge))
    (h : r.settle.runner.Tells token later) : r.Tells token (done ++ later) := by
  have hle : ∀ t, r.now ≤ t → ∀ e ∈ done, e.instant ≤ t := by
    intro t ht e he
    rw [hdone e he]
    exact ht
  have hnow : r.settle.runner.now = r.now := now_settle r
  have hnone : later.upTo r.now = [] := Story.upTo_of_lt hlater
  have hall : later.since r.now = later := Story.since_of_lt hlater
  constructor
  case surface =>
    intro t ht
    have hs := h.surface t (hnow ▸ ht)
    rw [elapse_settle hrests, Story.upTo_append (hle t ht), Story.surface_append, ← hsurface]
    exact hs
  case endings =>
    intro t ht
    have he := h.endings t (hnow ▸ ht)
    rw [elapse_settle hrests, Story.upTo_append (hle t ht), Story.reports_append, List.map_append,
      ← hendings, ← he]
    rfl
  case events =>
    -- what is said later is said after the badge was cleared
    intro t ht
    have he := h.events t (hnow ▸ ht)
    rw [hnow, hnone, hall, hrests.1] at he
    have hself := hle r.now (Nat.le_refl _)
    rw [elapse_settle hrests, Story.upTo_append hself, Story.since_append hself, hnone, hall,
      List.append_nil, ← hevents]
    show _ ++ (r.settle.runner.elapse t).events = _
    rw [he]
    rfl

/-- What is told of a runner that sleeps is what is told when it wakes up. -/
theorem Tells.wake (run : Run) {token : Token} {story : Story σ} (hrests : r.Rests)
    (hruns : r.runs = [run])
    (hw : r.now < run.wakesAt r.now) (hstory : ∀ e ∈ story, run.wakesAt r.now ≤ e.instant)
    (h : Tells { r with now := run.wakesAt r.now } token story) : r.Tells token story := by
  have hlt : ∀ t, t < run.wakesAt r.now → ∀ e ∈ story, t < e.instant := by
    intro t ht e he
    exact Nat.lt_of_lt_of_le ht (hstory e he)
  have hnone : story.upTo r.now = [] := Story.upTo_of_lt (hlt r.now hw)
  have hall : story.since r.now = story := Story.since_of_lt (hlt r.now hw)
  constructor
  case surface =>
    intro t _
    rw [elapse_of_one hrests hruns hw]
    by_cases ht : run.wakesAt r.now ≤ t
    · rw [if_pos ht]
      exact h.surface t ht
    · rw [if_neg ht, Story.upTo_of_lt (hlt t (Nat.not_le.1 ht))]
      rfl
  case endings =>
    intro t _
    rw [elapse_of_one hrests hruns hw]
    by_cases ht : run.wakesAt r.now ≤ t
    · rw [if_pos ht]
      exact h.endings t ht
    · rw [if_neg ht, Story.upTo_of_lt (hlt t (Nat.not_le.1 ht))]
      rfl
  case events =>
    intro t _
    have hclear : List.replicate r.clearings StatusEvent.idleBadge = [] := by
      rw [hrests.1]
      rfl
    rw [elapse_of_one hrests hruns hw, hnone, hall, hclear]
    by_cases ht : run.wakesAt r.now ≤ t
    · rw [if_pos ht, h.events t ht]
      show Story.events (story.upTo (run.wakesAt r.now)) ++
        StatusEvent.toldAt _ (List.replicate r.clearings .idleBadge) ++
          Story.events ((story.since (run.wakesAt r.now)).upTo t) = Story.events (story.upTo t)
      rw [hclear, ← Story.upTo_append_since story ht, Story.events_append]
      exact congrArg (· ++ _) (List.append_nil _)
    · rw [if_neg ht, Story.upTo_of_lt (hlt t (Nat.not_le.1 ht))]
      rfl

/-- What a runner with one run does at once. -/
structure Settles (r : Runner σ) (token : Token) (g : Segment σ) : Prop where
  surface : r.settle.runner.surface = g.surface
  answer : r.settle.answer = g.state.report?.toList.map fun report => (token, report)
  events : r.settle.events = g.events ++ List.replicate r.clearings .idleBadge
  runs : r.settle.runner.runs = match g.state with
    | .running next => [next]
    | .ended _ => []
  moment : ∀ other, r.settle.runner.moment other = r.moment other

theorem settles (h : r.runs = [run]) :
    r.Settles run.token (run.advance (r.moment run.token) r.surface) := by
  have hsettle := settle_of_one h
  cases hs : (run.advance (r.moment run.token) r.surface).state with
  | running next =>
    rw [advance_of_running h rfl hs] at hsettle
    constructor <;> rw [hsettle]
    · rw [hs]
      rfl
    · rw [hs]
    · exact fun _ => rfl
  | ended report =>
    rw [advance_of_ended h rfl hs] at hsettle
    constructor <;> rw [hsettle]
    · rfl
    · rw [hs]
      rfl
    · rfl
    · rw [hs]
      rfl
    · exact fun _ => rfl

/-- The story of a run that is due, if it is that of the run that it leaves. -/
theorem tells_story_of_isDue (h : r.runs = [run]) (hd : run.isDue (r.moment run.token) = true)
    (ih : ∀ next : Run, Run.Nearer next.rank run.rank → ∀ later : Runner σ, later.runs = [next] →
      later.Tells next.token (next.story (later.moment next.token) later.surface)) :
    r.Tells run.token (run.story (r.moment run.token) r.surface) := by
  obtain ⟨hsurface, hanswer, hevents, hruns, hmoment⟩ := settles h
  have hrests := rests_settle h
  have hcomes := Run.comesTo_of_isDue hd
  have htells := Run.tells_account (r.moment run.token) run r.surface
  have htold : StatusEvent.toldAt r.now r.settle.events =
      Story.events (run.account (r.moment run.token) r.surface) ++
        StatusEvent.toldAt r.now (List.replicate r.clearings .idleBadge) := by
    rw [hevents, Run.toldAt_append, ← htells.events]
    rfl
  rw [htells.reports] at hanswer
  rw [htells.surface] at hsurface
  cases hs : (run.advance (r.moment run.token) r.surface).state with
  | running next =>
    rw [hs] at hruns
    obtain ⟨htoken, hnext⟩ := Run.running_advance hs
    have hstory : run.story (r.moment run.token) r.surface =
        run.account (r.moment run.token) r.surface ++
          next.story (r.settle.runner.moment next.token) r.settle.runner.surface := by
      rw [Run.story_of_running (hcomes.symm ▸ hs), hcomes, htoken, hmoment, hsurface,
        htells.surface]
    rw [hstory]
    refine Tells.settle hrests htells.instants ?_ hsurface hanswer htold ?_
    · -- the run that waits goes on later
      rw [htoken, hmoment]
      exact Run.lt_instant_story hnext _
    · have hn := ih next (Run.advance_nearer hd hs) _ hruns
      rw [htoken] at hn ⊢
      exact hn
  | ended report =>
    rw [hs] at hruns
    have hstory : run.story (r.moment run.token) r.surface =
        run.account (r.moment run.token) r.surface ++ [] := by
      rw [Run.story_of_ended (hcomes.symm ▸ hs), hcomes, List.append_nil]
    rw [hstory]
    refine Tells.settle hrests htells.instants ?_ hsurface hanswer htold (tells_nil hrests hruns)
    exact fun _ he => absurd he List.not_mem_nil

/-- **Stories.** A runner with one run does what the story of the run tells. -/
theorem tells_story (run : Run) (r : Runner σ) (h : r.runs = [run]) :
    r.Tells run.token (run.story (r.moment run.token) r.surface) := by
  have ih : ∀ next : Run, Run.Nearer next.rank run.rank → ∀ later : Runner σ, later.runs = [next] →
      later.Tells next.token (next.story (later.moment next.token) later.surface) :=
    fun next _ later hlater => tells_story next later hlater
  cases hd : run.isDue (r.moment run.token) with
  | true => exact tells_story_of_isDue h hd ih
  | false =>
    have hw := Run.lt_wakesAt hd
    have hsettle := settle_of_one h
    rw [advance_of_not_isDue h hd] at hsettle
    have hstory := Run.story_of_not_isDue hd r.surface
    have hlater : ∀ e ∈ run.story (r.moment run.token) r.surface,
        run.wakesAt r.now ≤ e.instant := by
      intro e he
      have hle := Run.le_instant_story _ _ _ e he
      rw [Run.comesTo_of_not_isDue hd] at hle
      exact hle
    -- the runner settles and sleeps; its run is due when it wakes up
    show r.Tells run.token ([] ++ run.story (r.moment run.token) r.surface)
    refine Tells.settle (rests_settle h) ?_ ?_ ?_ ?_ ?_ ?_
    · exact fun _ he => absurd he List.not_mem_nil
    · exact fun e he => Nat.lt_of_lt_of_le hw (hlater e he)
    · rw [hsettle]
      rfl
    · rw [hsettle]
      rfl
    · rw [hsettle]
      rfl
    · refine Tells.wake run (rests_settle h) ?_ ?_ ?_ ?_ <;> rw [hsettle]
      · exact h
      · exact hw
      · exact hlater
      · rw [hstory]
        exact tells_story_of_isDue (r := { r with clearings := 0, now := run.wakesAt r.now }) h
          (Run.isDue_wakesAt (m := r.moment run.token)) ih
termination_by run.rank
decreasing_by assumption

/-- A run ends if enough time passes. -/
theorem exists_endings (h : r.runs = [run]) :
    ∃ t report, (r.elapse t).endings = [(run.token, report)] := by
  have htells := tells_story run r h
  obtain ⟨report, hreport⟩ := Run.story_ends (r.moment run.token) run r.surface
  obtain ⟨t, ht, hall⟩ := Story.exists_upTo r.now (run.story (r.moment run.token) r.surface)
  refine ⟨t, report, ?_⟩
  rw [htells.endings t ht, hall, hreport]
  rfl

end Runner

end FormRehearsal
