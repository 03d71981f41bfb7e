/-
# The badge of a runner

Runs set the badge when they begin and clear it when they end; for a run that was abandoned it is
cleared later, if something is left to do that. What a move does to the badge follows from what it
does to the run that is live.

The badge says that a run is in progress while one is, unless it was still to be cleared for another
one when the run began, and was cleared since; and it is clear when no run is live and nothing is
left to be cleared, unless a run that had begun was abandoned with nothing left to attend to it, and
nothing was said about the badge since.

* `Keeps.badgeMove` : what a move does to the badge, to the runs and to what is left to be cleared;
* `Keeps.exists_before` : what has become of a run that has set the badge;
* `badge_afterAll` : what the badge says in every world that is reached.
-/
import FormRehearsal.Proofs.Runner.Protocol
import Mathlib.Data.List.Induction

namespace FormRehearsal

/-! ## Badges that are said -/

/-- The events that are about the badge. -/
def StatusEvent.badges (events : List StatusEvent) : List StatusEvent := events.filter isBadge

open StatusEvent (badges runningBadge idleBadge)

theorem StatusEvent.badges_append (a b : List StatusEvent) :
    badges (a ++ b) = badges a ++ badges b := List.filter_append _ _

/-- The lines of steps are not about the badge. -/
theorem badges_stepLines (program : Program) (count : Nat) :
    badges (stepLines program count) = [] := by
  rw [StatusEvent.badges, List.filter_eq_nil_iff]
  intro e he
  obtain ⟨i, hi, rfl⟩ := List.mem_mapIdx.1 he
  exact Bool.false_ne_true

namespace Run

/-- A run has begun once it waits. -/
def begun (run : Run) : Bool :=
  match run.stage with
  | .claimed _ => false
  | .waiting .. => true

/-- A run that has begun has set the badge, and has said nothing else about it. -/
theorem badges_said (program : Program) (run : Run) :
    badges (run.said program) = if run.begun then [runningBadge] else [] := by
  obtain ⟨token, total, done, startedAt, stage⟩ := run
  cases stage with
  | claimed p => rfl
  | waiting step since wake hold rest =>
    show badges (opening ++ stepLines program _) = _
    rw [StatusEvent.badges_append, badges_stepLines]
    rfl

/-- A run that has ended has set the badge and cleared it. -/
theorem EndsAs.badges {σ : Type} {program : Program} {said : List StatusEvent} {story : Story σ}
    {report : Report} (h : EndsAs program said story report) :
    badges said = [runningBadge, idleBadge] := by
  obtain ⟨ending, announced, -, hc⟩ := h
  rw [hc.said, StatusEvent.badges_append, StatusEvent.badges_append, badges_stepLines]
  rfl

/-- A run that waits again has begun. -/
theorem begun_of_running {σ : Type} [Surface σ] {m : Moment} {run next : Run} {s : σ}
    (h : (run.advance m s).state = .running next) : next.begun = true := by
  have hd := (running_advance h).2
  obtain ⟨token, total, done, startedAt, stage⟩ := next
  cases stage with
  | claimed p => cases hd
  | waiting step since wake hold rest => rfl

end Run

/-! ## What moves do to the badge -/

/-- Whether the happening is that a run is claimed. -/
def Happening.isClaim {σ : Type} : Happening σ → Bool
  | claimed .. => true
  | _ => false

/-- What comes of a move for the badge, for the runs and for what is left to be cleared. -/
inductive BadgeMove {σ : Type} (r : Runner σ) (move : Move σ) (a : Reaction σ (Happening σ)) :
    Prop where
  | aside (hclaim : a.answer.isClaim = false) (hbadges : badges a.events = [])
      (hruns : a.runner.runs = r.runs) (hclearings : a.runner.clearings = r.clearings)
  | claims (run : Run) (hbegun : run.begun = false) (hnew : run.token = ⟨r.lastSerial + 1⟩)
      (hclaim : a.answer.isClaim = true) (hbadges : badges a.events = []) (hnone : r.runs = [])
      (hruns : a.runner.runs = [run]) (hclearings : a.runner.clearings = r.clearings)
  | goesOn (run next : Run) (hbegun : next.begun = true) (hsame : next.token = run.token)
      (hclaim : a.answer.isClaim = false)
      (hbadges : badges a.events = if run.begun then [] else [runningBadge])
      (hrun : r.runs = [run]) (hruns : a.runner.runs = [next])
      (hclearings : a.runner.clearings = r.clearings)
  | ends (run : Run) (hclaim : a.answer.isClaim = false)
      (hbadges : badges a.events = (if run.begun then [] else [runningBadge]) ++ [idleBadge])
      (hrun : r.runs = [run]) (hruns : a.runner.runs = [])
      (hclearings : a.runner.clearings = r.clearings)
  | abandons (run : Run) (attended : Bool) (hmove : move = .abandon run.token attended)
      (hclaim : a.answer.isClaim = false) (hbadges : badges a.events = []) (hrun : r.runs = [run])
      (hruns : a.runner.runs = [])
      (hclearings : a.runner.clearings = if attended then r.clearings + 1 else r.clearings)
  | clears (hmove : move = .clear) (hclaim : a.answer.isClaim = false)
      (hbadges : badges a.events = [idleBadge]) (hruns : a.runner.runs = r.runs)
      (hclearings : a.runner.clearings + 1 = r.clearings)

variable {σ : Type} [Surface σ]

omit [Surface σ] in
/-- A runner whose run is abandoned is idle, and has a fresh token. -/
theorem Owned.abandon_of_find? {r : Runner σ} {hs : List (Happening σ)} (h : Owned r hs)
    {token : Token} {run : Run} (hf : r.find? token = some run) (attended : Bool) :
    r.abandon token attended =
      { r with
        running := false, token := ⟨r.lastSerial + 1⟩, lastSerial := r.lastSerial + 1, runs := [],
        clearings := if attended then r.clearings + 1 else r.clearings } := by
  obtain ⟨-, hruns, htoken, rfl⟩ := h.eq_of_find? hf
  simp [Runner.abandon, hf, Runner.release, Runner.renew, hruns, htoken]

namespace Keeps

variable {w : World σ}

omit [Surface σ] in
/-- The run that is live keeps to a program that was claimed. -/
theorem exists_program (h : Keeps w) {run : Run} (hm : run ∈ w.runner.runs) :
    ∃ program, .claimed run.token program ∈ w.happenings ∧ run.Underway program ∧
      w.saidBy run.token = run.said program := by
  obtain ⟨hr, -, htoken⟩ := h.owned.eq_of_mem hm
  obtain ⟨program, hp⟩ := ((h.owned.live run.token).2 ⟨hr, htoken⟩).claimed
  exact ⟨program, hp, h.live run.token program hp run hm rfl⟩

/-- The run that goes on sets the badge if it has not begun, and clears it if it ends. -/
theorem badgeMove_goOn (h : Keeps w) (token : Token) :
    BadgeMove w.runner (.goOn token) (w.runner.move (.goOn token)) := by
  cases h.owned.goesOn token with
  | absent hm =>
    rw [hm]
    exact .aside rfl rfl rfl rfl
  | waits run next ht hruns htoken hs hm =>
    obtain ⟨program, hp, -, hsaid⟩ := h.exists_program (hruns ▸ List.mem_singleton.2 rfl)
    rw [htoken] at hp hsaid
    have hfollows := h.follows hruns htoken hp (w.runner.moment w.runner.token)
    rw [Run.Follows, hs, hsaid] at hfollows
    have hbegun : next.begun = true := Run.begun_of_running hs
    have hbadges := congrArg badges hfollows.2
    rw [StatusEvent.badges_append, Run.badges_said, Run.badges_said, hbegun] at hbadges
    rw [hm]
    refine .goesOn run next hbegun (Run.running_advance hs).1 rfl ?_ hruns rfl rfl
    cases hrun : run.begun <;> simpa [hrun] using hbadges
  | ends run report ht hruns htoken hs hm =>
    obtain ⟨program, hp, -, hsaid⟩ := h.exists_program (hruns ▸ List.mem_singleton.2 rfl)
    rw [htoken] at hp hsaid
    have hfollows := h.follows hruns htoken hp (w.runner.moment w.runner.token)
    rw [Run.Follows, hs, hsaid] at hfollows
    have hbadges := hfollows.badges
    rw [StatusEvent.badges_append, Run.badges_said] at hbadges
    rw [hm]
    refine .ends run rfl ?_ hruns rfl rfl
    cases hrun : run.begun <;> simpa [hrun] using hbadges

/-- Every move does one of these things to the badge. -/
theorem badgeMove (h : Keeps w) (move : Move σ) :
    BadgeMove w.runner move (w.runner.move move) := by
  have start : ∀ program, BadgeMove w.runner move (w.runner.move (.start program)) := by
    intro program
    cases hr : w.runner.running with
    | true =>
      simp only [Runner.move, Runner.start_of_running hr]
      exact .aside rfl rfl rfl rfl
    | false =>
      have hnone := h.owned.runs_of_idle hr
      simp only [Runner.move, Runner.start_eq_of_idle hr, hnone]
      exact .claims _ rfl rfl rfl rfl hnone rfl rfl
  have stop : BadgeMove w.runner move (w.runner.move .stop) := by
    have hsame : w.runner.stop.runner.runs = w.runner.runs ∧
        w.runner.stop.runner.clearings = w.runner.clearings := by
      unfold Runner.stop
      dsimp only
      split <;> exact ⟨rfl, rfl⟩
    exact .aside rfl rfl hsame.1 hsame.2
  cases move with
  | start program => exact start program
  | stop => exact stop
  | command command =>
    cases command with
    | start program =>
      rw [(Runner.move_command w.runner).1]
      exact start program
    | stop =>
      rw [(Runner.move_command w.runner).2]
      exact stop
  | goOn token => exact h.badgeMove_goOn token
  | abandon token attended =>
    cases hf : w.runner.find? token with
    | none =>
      simp only [Runner.move, Runner.abandon, hf]
      exact .aside rfl rfl rfl rfl
    | some run =>
      obtain ⟨-, hruns, htoken, rfl⟩ := h.owned.eq_of_find? hf
      rw [Runner.move, h.owned.abandon_of_find? hf]
      exact .abandons run attended (htoken ▸ rfl) rfl rfl hruns rfl rfl
  | clear =>
    by_cases hc : w.runner.clearings = 0
    · refine .aside rfl ?_ rfl ?_
      · simp only [Runner.move, if_pos hc]
        rfl
      · simp only [Runner.move, hc]
    · refine .clears rfl rfl ?_ rfl (Nat.sub_add_cancel (Nat.pos_of_ne_zero hc))
      simp only [Runner.move, if_neg hc]
      rfl
  | pass instant => exact .aside rfl rfl rfl rfl
  | change f => exact .aside rfl rfl rfl rfl

end Keeps

/-! ## What the badge says in a world -/

namespace World

omit [Surface σ] in
/-- What was said about the badge. -/
def badges (w : World σ) : List StatusEvent := StatusEvent.badges (w.history.flatMap (·.events))

omit [Surface σ] in
/-- What was last said about the badge, if anything was. -/
def lastBadge? (w : World σ) : Option StatusEvent := w.badges.getLast?

theorem badges_after (w : World σ) (move : Move σ) :
    (w.after move).badges = w.badges ++ StatusEvent.badges (w.runner.move move).events := by
  rw [badges, badges, after, List.flatMap_append, List.flatMap_singleton, StatusEvent.badges_append]

/-- A move that says something about the badge decides what the badge says. -/
theorem lastBadge?_after (w : World σ) (move : Move σ) :
    (w.after move).lastBadge? =
      (StatusEvent.badges (w.runner.move move).events).getLast?.or w.lastBadge? := by
  rw [lastBadge?, lastBadge?, badges_after, List.getLast?_append]

theorem lastBadge?_after_of_nil {w : World σ} {move : Move σ}
    (h : StatusEvent.badges (w.runner.move move).events = []) :
    (w.after move).lastBadge? = w.lastBadge? := by
  rw [lastBadge?_after, h]
  rfl

omit [Surface σ] in
/-- The badge is clear: it was never set, or it was cleared last. -/
def BadgeClear (w : World σ) : Prop := w.lastBadge? = none ∨ w.lastBadge? = some idleBadge

omit [Surface σ] in
/-- While the run of a token is there, the badge says so. -/
def BadgeShows (w : World σ) (token : Token) : Prop :=
  ∀ run ∈ w.runner.runs, run.token = token → w.lastBadge? = some runningBadge

omit [Surface σ] in
/-- While the run of a token is there, nothing is left to be cleared. -/
def NothingLeft (w : World σ) (token : Token) : Prop :=
  ∀ run ∈ w.runner.runs, run.token = token → w.runner.clearings = 0

/-- The next move of a run is that it sets the badge. -/
def SetsBadge (w : World σ) (token : Token) : Prop :=
  .runningBadge ∉ w.saidBy token ∧ .runningBadge ∈ (w.after (.goOn token)).saidBy token

/-- The run of a token set the badge when it was still to be cleared for another run, and it was
cleared since. -/
def ClearedLate (w : World σ) (moves : List (Move σ)) (token : Token) : Prop :=
  ∃ before after, moves = before ++ .goOn token :: after ∧ (w.afterAll before).SetsBadge token ∧
    (w.afterAll before).runner.clearings ≠ 0 ∧ .clear ∈ after

/-- No run that has set the badge is abandoned with nothing left to attend to it, unless something
is said about the badge later. -/
def Attends (w : World σ) (moves : List (Move σ)) : Prop :=
  ∀ before token after, moves = before ++ .abandon token false :: after →
    (w.afterAll before).runner.find? token ≠ none →
      .runningBadge ∉ (w.afterAll before).saidBy token ∨
        (w.afterAll moves).badges ≠ (w.afterAll before).badges

/-- What a run says first after a move is said by that move, by which the run goes on. -/
theorem of_mem_saidBy_after {w : World σ} {move : Move σ} {token : Token} {e : StatusEvent}
    (h : e ∈ (w.after move).saidBy token) (hn : e ∉ w.saidBy token) :
    (w.runner.move move).answer.isOf token = true ∧ e ∈ (w.runner.move move).events := by
  rw [saidBy_after] at h
  rcases List.mem_append.1 h with hold | hnew
  · exact absurd hold hn
  · split at hnew
    · rename_i hof
      exact ⟨hof, hnew⟩
    · cases hnew

end World

namespace Keeps

variable {w : World σ}

omit [Surface σ] in
/-- A run has begun if it has set the badge. -/
theorem runningBadge_mem_iff (h : Keeps w) {run : Run} (hm : run ∈ w.runner.runs) :
    runningBadge ∈ w.saidBy run.token ↔ run.begun = true := by
  obtain ⟨program, -, -, hsaid⟩ := h.exists_program hm
  have hbadges := Run.badges_said program run
  have hmem : runningBadge ∈ w.saidBy run.token ↔ runningBadge ∈ badges (w.saidBy run.token) := by
    simp [StatusEvent.badges, runningBadge, StatusEvent.isBadge]
  rw [hmem, hsaid, hbadges]
  cases run.begun <;> simp

/-- If nothing is left to be cleared and no run has begun, then the badge is clear after a move, if
it was before a move that says nothing about it. -/
theorem badgeClear_after (h : Keeps w) {move : Move σ}
    (hclear : badges (w.runner.move move).events = [] → w.runner.clearings = 0 →
      (∀ run ∈ w.runner.runs, run.begun = false) → w.BadgeClear)
    (hmove : ∀ run ∈ w.runner.runs, move = .abandon run.token false → run.begun = false)
    (hnone : (w.after move).runner.clearings = 0)
    (hidle : ∀ run ∈ (w.after move).runner.runs, run.begun = false) :
    (w.after move).BadgeClear := by
  rw [World.runner_after] at hnone hidle
  have same : badges (w.runner.move move).events = [] → w.BadgeClear →
      (w.after move).BadgeClear := by
    intro hbadges hw
    rwa [World.BadgeClear, World.lastBadge?_after_of_nil hbadges]
  cases h.badgeMove move with
  | aside hclaim hbadges hruns hclearings =>
    rw [hclearings] at hnone
    rw [hruns] at hidle
    exact same hbadges (hclear hbadges hnone hidle)
  | claims run hbegun hnew hclaim hbadges hnil hruns hclearings =>
    rw [hclearings] at hnone
    refine same hbadges (hclear hbadges hnone ?_)
    rw [hnil]
    exact fun _ hm => absurd hm List.not_mem_nil
  | goesOn run next hbegun hsame hclaim hbadges hrun hruns hclearings =>
    have hnot := hidle next (hruns ▸ List.mem_singleton.2 rfl)
    rw [hbegun] at hnot
    cases hnot
  | ends run hclaim hbadges hrun hruns hclearings =>
    right
    rw [World.lastBadge?_after, hbadges, List.getLast?_append]
    rfl
  | abandons run attended hmove' hclaim hbadges hrun hruns hclearings =>
    have hm : run ∈ w.runner.runs := hrun ▸ List.mem_singleton.2 rfl
    rw [hclearings] at hnone
    -- nothing is left to be cleared only if nothing attends to the run
    cases attended with
    | true => cases hnone
    | false =>
      refine same hbadges (hclear hbadges hnone ?_)
      rw [hrun]
      intro other hother
      obtain rfl := List.mem_singleton.1 hother
      exact hmove other hm hmove'
  | clears hmove' hclaim hbadges hruns hclearings =>
    right
    rw [World.lastBadge?_after, hbadges]
    rfl

/-- A run that sets the badge has it set. -/
theorem badgeShows_of_sets (h : Keeps w) {token : Token} (hs : w.SetsBadge token) :
    (w.after (.goOn token)).BadgeShows token := by
  -- what the move says about the badge is that it is set
  have hset : runningBadge ∈ badges (w.runner.move (.goOn token)).events :=
    List.mem_filter.2 ⟨(World.of_mem_saidBy_after hs.2 hs.1).2, rfl⟩
  intro run hm htoken
  rw [World.runner_after] at hm
  cases h.badgeMove (.goOn token) with
  | goesOn first next hbegun hsame hclaim hbadges hrun hruns hclearings =>
    rw [World.lastBadge?_after]
    rw [hbadges] at hset ⊢
    cases hfirst : first.begun with
    | true => simp [hfirst] at hset
    | false => rfl
  | ends first hclaim hbadges hrun hruns hclearings =>
    rw [hruns] at hm
    cases hm
  | abandons first attended hmove => cases hmove
  | clears hmove => cases hmove
  | aside hclaim hbadges => simp [hbadges] at hset
  | claims first hbegun hnew hclaim hbadges => simp [hbadges] at hset

/-- A run that has set the badge and is there after a move was there before it, and nothing was said
about the badge, unless the badge was cleared for another run. -/
theorem exists_before (h : Keeps w) {token : Token} (hsaid : runningBadge ∈ w.saidBy token)
    {move : Move σ} {run : Run} (hm : run ∈ (w.after move).runner.runs)
    (htoken : run.token = token) :
    ∃ first ∈ w.runner.runs, first.token = token ∧
      ((badges (w.runner.move move).events = [] ∧
          (w.after move).runner.clearings = w.runner.clearings) ∨
        (move = .clear ∧ w.runner.clearings ≠ 0)) := by
  rw [World.runner_after] at hm ⊢
  cases h.badgeMove move with
  | aside hclaim hbadges hruns hclearings =>
    rw [hruns] at hm
    exact ⟨run, hm, htoken, .inl ⟨hbadges, hclearings⟩⟩
  | claims new hbegun hnew hclaim hbadges hnil hruns hclearings =>
    -- the token of the new run has not said anything
    rw [hruns] at hm
    obtain rfl := List.mem_singleton.1 hm
    obtain rfl := htoken
    rw [hnew, h.silent _ (Nat.lt_succ_self _)] at hsaid
    cases hsaid
  | goesOn first next hbegun hsame hclaim hbadges hrun hruns hclearings =>
    rw [hruns] at hm
    obtain rfl := List.mem_singleton.1 hm
    have hfirst : first ∈ w.runner.runs := hrun ▸ List.mem_singleton.2 rfl
    obtain rfl : first.token = token := hsame.symm.trans htoken
    rw [(h.runningBadge_mem_iff hfirst).1 hsaid, if_pos rfl] at hbadges
    exact ⟨first, hfirst, rfl, .inl ⟨hbadges, hclearings⟩⟩
  | ends first hclaim hbadges hrun hruns hclearings =>
    rw [hruns] at hm
    cases hm
  | abandons first attended hmove hclaim hbadges hrun hruns hclearings =>
    rw [hruns] at hm
    cases hm
  | clears hmove hclaim hbadges hruns hclearings =>
    rw [hruns] at hm
    exact ⟨run, hm, htoken, .inr ⟨hmove, by omega⟩⟩

/-- As long as a run that has set the badge is there, the badge stays set, unless it is cleared for
another run. -/
theorem badgeShows_after (h : Keeps w) {token : Token} (hsaid : runningBadge ∈ w.saidBy token)
    (hshows : w.BadgeShows token) {move : Move σ} (hmove : move = .clear → w.NothingLeft token) :
    (w.after move).BadgeShows token := by
  intro run hm htoken
  obtain ⟨first, hfirst, ht, ⟨hbadges, -⟩ | ⟨hclear, hleft⟩⟩ := h.exists_before hsaid hm htoken
  · exact (World.lastBadge?_after_of_nil hbadges).trans (hshows first hfirst ht)
  · exact absurd (hmove hclear first hfirst ht) hleft

/-- As long as it is there, no other run leaves the badge to be cleared. -/
theorem nothingLeft_after (h : Keeps w) {token : Token} (hsaid : runningBadge ∈ w.saidBy token)
    (hnone : w.NothingLeft token) (move : Move σ) : (w.after move).NothingLeft token := by
  intro run hm htoken
  obtain ⟨first, hfirst, ht, ⟨-, hclearings⟩ | ⟨-, hleft⟩⟩ := h.exists_before hsaid hm htoken
  · exact hclearings.trans (hnone first hfirst ht)
  · exact absurd (hnone first hfirst ht) hleft

end Keeps

/-! ## Histories -/

/-- Only going on with a run is going on with it. -/
theorem Runner.eq_goOn_of_isOf {r : Runner σ} {move : Move σ} {token : Token}
    (h : (r.move move).answer.isOf token = true) : move = .goOn token := by
  have start : ∀ program, (r.move (.start program)).answer.isOf token = false := by
    intro program
    cases hr : r.running with
    | true => simp only [Runner.move, start_of_running hr]; rfl
    | false => simp only [Runner.move, start_of_idle hr]; rfl
  cases move with
  | goOn other => exact congrArg Move.goOn (of_decide_eq_true h)
  | start program =>
    rw [start] at h
    cases h
  | command command =>
    cases command with
    | start program =>
      rw [(move_command r).1, start] at h
      cases h
    | stop => cases h
  | _ => cases h

/-- A run that has set the badge set it by one of its moves. -/
theorem exists_setsBadge (s : σ) (policy : RunPolicy) {moves : List (Move σ)} {token : Token}
    (h : runningBadge ∈ ((World.fresh s policy).afterAll moves).saidBy token) :
    ∃ before after, moves = before ++ .goOn token :: after ∧
      ((World.fresh s policy).afterAll before).SetsBadge token := by
  -- what is said last is said by the last move
  induction moves using List.reverseRecOn with
  | nil => cases h
  | append_singleton moves move ih =>
    by_cases hold : runningBadge ∈ ((World.fresh s policy).afterAll moves).saidBy token
    · obtain ⟨before, after, rfl, hsets⟩ := ih hold
      exact ⟨before, after ++ [move], by simp, hsets⟩
    · rw [World.afterAll_snoc] at h
      obtain rfl := Runner.eq_goOn_of_isOf (World.of_mem_saidBy_after h hold).1
      exact ⟨moves, [], rfl, hold, h⟩

/-- What is said stays said. -/
theorem World.mem_saidBy_after {w : World σ} {token : Token} {e : StatusEvent} (move : Move σ)
    (h : e ∈ w.saidBy token) : e ∈ (w.after move).saidBy token := by
  rw [saidBy_after]
  exact List.mem_append_left _ h

/-- A run that goes on leaves nothing to be cleared. -/
theorem Runner.clearings_advance (r : Runner σ) (token : Token) :
    (r.advance token).runner.clearings = r.clearings := by
  unfold advance
  split
  · rfl
  · dsimp only
    split <;> rfl

/-- The badge stays set for a run as long as it is there, if nothing was left to be cleared or
nothing is. -/
theorem Keeps.badgeShows_afterAll {w : World σ} (h : Keeps w) {token : Token}
    (hsaid : runningBadge ∈ w.saidBy token) (hshows : w.BadgeShows token) {moves : List (Move σ)}
    (hclear : w.NothingLeft token ∨ .clear ∉ moves) : (w.afterAll moves).BadgeShows token := by
  induction moves generalizing w with
  | nil => exact hshows
  | cons move moves ih =>
    refine ih (h.after move) (World.mem_saidBy_after move hsaid)
      (h.badgeShows_after hsaid hshows ?_) ?_
    · rintro rfl
      exact hclear.resolve_right fun hn => hn List.mem_cons_self
    · rcases hclear with hnone | hn
      · exact .inl (h.nothingLeft_after hsaid hnone move)
      · exact .inr fun hm => hn (List.mem_cons_of_mem _ hm)

/-- A run that set the badge has it set as long as it is live, unless the badge was still to be
cleared for another run, and was cleared since. -/
theorem Keeps.lastBadge?_of_live {w : World σ} (h : Keeps w) {token : Token}
    (hs : w.SetsBadge token) {moves : List (Move σ)}
    (hclear : w.runner.clearings = 0 ∨ .clear ∉ moves)
    (hlive : LiveIn (w.afterAll (.goOn token :: moves)).happenings token) :
    (w.afterAll (.goOn token :: moves)).lastBadge? = some runningBadge := by
  have hlater : Keeps (w.afterAll (.goOn token :: moves)) :=
    World.afterAll_induction (fun _ move h => h.after move) h _
  have hclear' : (w.after (.goOn token)).NothingLeft token ∨ .clear ∉ moves := by
    refine hclear.imp_left fun hnone run hm htoken => ?_
    exact (Runner.clearings_advance w.runner token).trans hnone
  have hshows := (h.after (.goOn token)).badgeShows_afterAll hs.2 (h.badgeShows_of_sets hs) hclear'
  obtain ⟨hrunning, hcurrent⟩ := (hlater.owned.live token).1 hlive
  obtain ⟨run, hruns, htoken⟩ := hlater.owned.runs_of_running hrunning
  exact hshows run (hruns ▸ List.mem_singleton.2 rfl) (htoken.trans hcurrent.symm)

/-- What was said about the badge is the same after a move that says nothing about it. -/
theorem World.badges_snoc_of_nil {w : World σ} {moves : List (Move σ)} {move : Move σ}
    (hnil : StatusEvent.badges ((w.afterAll moves).runner.move move).events = []) :
    (w.afterAll (moves ++ [move])).badges = (w.afterAll moves).badges := by
  rw [afterAll_snoc, badges_after, hnil, List.append_nil]

/-- A move that says nothing about the badge makes up for nothing that was not attended to. -/
theorem World.Attends.of_append {w : World σ} {moves : List (Move σ)} {move : Move σ}
    (h : w.Attends (moves ++ [move]))
    (hnil : StatusEvent.badges ((w.afterAll moves).runner.move move).events = []) :
    w.Attends moves := by
  rintro before token after rfl hfind
  rw [← badges_snoc_of_nil hnil]
  exact h before token (after ++ [move]) (by simp) hfind

/-- If nothing is left to be cleared and no run has begun, then the badge is clear. -/
theorem Keeps.badgeClear_afterAll {w : World σ} (h : Keeps w)
    (hclear : w.runner.clearings = 0 → (∀ run ∈ w.runner.runs, run.begun = false) → w.BadgeClear)
    {moves : List (Move σ)} (hattends : w.Attends moves)
    (hnone : (w.afterAll moves).runner.clearings = 0)
    (hidle : ∀ run ∈ (w.afterAll moves).runner.runs, run.begun = false) :
    (w.afterAll moves).BadgeClear := by
  -- the last move decides, so the induction adds moves at the end
  induction moves using List.reverseRecOn with
  | nil => exact hclear hnone hidle
  | append_singleton moves move ih =>
    rw [World.afterAll_snoc] at hnone hidle ⊢
    have hkeeps : Keeps (w.afterAll moves) :=
      World.afterAll_induction (fun _ move h => h.after move) h moves
    refine hkeeps.badgeClear_after (fun hnil => ih (hattends.of_append hnil)) ?_ hnone hidle
    rintro run hm rfl
    obtain ⟨-, hruns, -⟩ := hkeeps.owned.eq_of_mem hm
    have hfind : (w.afterAll moves).runner.find? run.token ≠ none := by
      rw [Runner.find?_of_one hruns rfl]
      exact Option.some_ne_none run
    rcases hattends moves run.token [] rfl hfind with hnot | hsaid
    · exact Bool.eq_false_iff.2 (mt (hkeeps.runningBadge_mem_iff hm).2 hnot)
    · exact absurd (World.badges_snoc_of_nil rfl) hsaid

/-- **The badge.** Whatever is done to a runner and in whatever order: a live run that set the badge
has it set, unless the badge was still to be cleared for another run then, and was cleared since;
and when no run is live and nothing is left to be cleared, the badge is clear, unless a run that had
set it was abandoned with nothing left to attend to it, and nothing was said about the badge since.
-/
theorem badge_afterAll (s : σ) (policy : RunPolicy) (moves : List (Move σ)) :
    let start := World.fresh s policy
    (∀ token, LiveIn (start.afterAll moves).happenings token →
      .runningBadge ∈ (start.afterAll moves).saidBy token →
        (start.afterAll moves).lastBadge? = some .runningBadge ∨ start.ClearedLate moves token) ∧
    (start.Attends moves → (start.afterAll moves).runner.running = false →
      (start.afterAll moves).runner.clearings = 0 → (start.afterAll moves).BadgeClear) := by
  intro start
  constructor
  · intro token hlive hsaid
    obtain ⟨before, after, rfl, hsets⟩ := exists_setsBadge s policy hsaid
    by_cases hclear : (start.afterAll before).runner.clearings = 0 ∨ .clear ∉ after
    · left
      rw [World.afterAll_append] at hlive ⊢
      exact (keeps_afterAll s policy before).lastBadge?_of_live hsets hclear hlive
    · rw [not_or, not_not] at hclear
      exact .inr ⟨before, after, rfl, hsets, hclear.1, hclear.2⟩
  · intro hattends hrunning hnone
    refine (keeps_fresh s policy).badgeClear_afterAll (fun _ _ => .inl rfl) hattends hnone ?_
    rw [(owned_afterAll s policy moves).runs_of_idle hrunning]
    exact fun _ hm => absurd hm List.not_mem_nil

/-- A run that waits with the badge set, and one that was abandoned and for which the badge was
cleared. -/
theorem badge_wait :
    let program : Program := [[("action", .string "wait"), ("ms", .string "400")]]
    let start := World.fresh (PageFixture.page {}) {}
    (start.afterAll [.start program, .goOn ⟨1⟩]).lastBadge? = some runningBadge ∧
      (start.afterAll [.start program, .goOn ⟨1⟩, .abandon ⟨1⟩ true, .clear]).BadgeClear := by
  intro program start
  have shown := (badge_afterAll (PageFixture.page {}) {} [.start program, .goOn ⟨1⟩]).1 ⟨1⟩
  have clear := (badge_afterAll (PageFixture.page {}) {}
    [.start program, .goOn ⟨1⟩, .abandon ⟨1⟩ true, .clear]).2
  refine ⟨(shown ?_ (by decide +kernel)).resolve_right ?_, clear ?_ rfl rfl⟩
  · exact ((owned_afterAll (PageFixture.page {}) {} [.start program, .goOn ⟨1⟩]).live ⟨1⟩).2
      ⟨rfl, rfl⟩
  · -- the badge was not cleared
    rintro ⟨before, after, h, -, -, hclear⟩
    have hmem : .clear ∈ before ++ .goOn ⟨1⟩ :: after := by simp [hclear]
    rw [← h] at hmem
    simp at hmem
  · -- nothing was abandoned that is not attended to
    intro before token after h
    have hmem : .abandon token false ∈ before ++ .abandon token false :: after := by simp
    rw [← h] at hmem
    simp at hmem

/-- The badge says that a run is in progress exactly while one is that has set it, as soon as
nothing is left to be cleared. -/
structure World.BadgeAgrees (w : World σ) : Prop where
  during : ∀ token, LiveIn w.happenings token → .runningBadge ∈ w.saidBy token →
    w.lastBadge? = some .runningBadge
  idle : w.runner.running = false → w.runner.clearings = 0 → w.BadgeClear

/-- The badge stays set after a run that was abandoned with nothing left to attend to it; and what
is left to be cleared for a run may be cleared when the next one has set the badge. -/
theorem badge_disagrees :
    let program : Program := [[("action", .string "wait"), ("ms", .string "1000")]]
    let start := World.fresh (PageFixture.page {}) {}
    ¬ (start.afterAll [.start program, .goOn ⟨1⟩, .abandon ⟨1⟩ false]).BadgeAgrees ∧
      ¬ (start.afterAll [.start program, .goOn ⟨1⟩, .abandon ⟨1⟩ true, .start program, .goOn ⟨3⟩,
        .clear]).BadgeAgrees := by
  intro program start
  constructor
  · intro h
    have hset : (start.afterAll [.start program, .goOn ⟨1⟩, .abandon ⟨1⟩ false]).lastBadge? =
        some runningBadge := by decide +kernel
    have hclear := h.idle rfl rfl
    rw [World.BadgeClear, hset] at hclear
    simp [runningBadge, idleBadge] at hclear
  · intro h
    have hlast : (start.afterAll [.start program, .goOn ⟨1⟩, .abandon ⟨1⟩ true, .start program,
        .goOn ⟨3⟩, .clear]).lastBadge? = some idleBadge := by decide +kernel
    have hset := h.during ⟨3⟩ ?_ (by decide +kernel)
    · rw [hlast] at hset
      simp [runningBadge, idleBadge] at hset
    · exact ((owned_afterAll (PageFixture.page {}) {} [.start program, .goOn ⟨1⟩, .abandon ⟨1⟩ true,
        .start program, .goOn ⟨3⟩, .clear]).live ⟨3⟩).2 ⟨rfl, rfl⟩

end FormRehearsal
