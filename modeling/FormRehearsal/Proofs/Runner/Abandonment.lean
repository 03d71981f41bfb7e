/-
# Runs that are abandoned

A run can be abandoned wherever it waits, and before it has begun. It is over at once then: the
surface stays as the run left it, no wait of it ends any more, and it says nothing more; the badge
is cleared once for it. The runner is idle, and does from then on what a fresh runner does with the
same surface at the same instant.

Every run that was claimed is live, has ended, or was given up. It says one last line and clears the
badge itself exactly if it has ended; for one that was given up the badge is cleared later.

* `Keeps.cleansUp_of_find?` : what comes of abandoning a run;
* `Keeps.fate_after` : every move leaves each run with one of these fates;
* `Keeps.balanced_after` : the badge is cleared at most once for each claim;
* `abandonment_afterAll` : all of this in every world that is reached.
-/
import FormRehearsal.Proofs.Runner.Badge
import FormRehearsal.Proofs.Runner.Exclusion
import FormRehearsal.Proofs.Runner.Renumbering

namespace FormRehearsal

open StatusEvent (badges runningBadge idleBadge)

/-! ## Last lines -/

/-- Whether the event is the last line of a run: that it is completed, or why it is not. -/
def StatusEvent.isTerminal : StatusEvent → Bool
  | status text =>
    text == "Automation completed." || "Error: ".toList.isPrefixOf text.toList
  | badge .. => false

/-- A run that said these events has said its last line and cleared the badge a number of times. -/
def ClosedTimes (n : Nat) (said : List StatusEvent) : Prop :=
  said.count idleBadge = n ∧ said.countP StatusEvent.isTerminal = n

theorem count_idleBadge (events : List StatusEvent) :
    events.count idleBadge = (StatusEvent.badges events).count idleBadge :=
  (List.count_filter rfl).symm

/-- The line of a step is not the last one of a run: it begins otherwise. -/
theorem isTerminal_stepLine (number total : Nat) (name : String) :
    (Run.stepLine number total name).isTerminal = false := by
  have hline : ∀ line : String, line.toList.head? = some 'S' →
      (StatusEvent.status line).isTerminal = false := by
    intro line hhead
    rcases hl : line.toList with _ | ⟨c, rest⟩
    · rw [hl] at hhead
      cases hhead
    · rw [hl] at hhead
      cases hhead
      have hne : line ≠ "Automation completed." := by
        rintro rfl
        cases hl
      simp only [StatusEvent.isTerminal, hl, beq_false_of_ne hne]
      rfl
  apply hline
  simp [String.toList_append]

theorem isTerminal_statusText (outcome : Outcome) :
    (StatusEvent.status outcome.statusText).isTerminal = true := by
  cases outcome <;> simp [StatusEvent.isTerminal, Outcome.statusText, String.toList_append]

theorem countP_isTerminal_stepLines (program : Program) (count : Nat) :
    (stepLines program count).countP StatusEvent.isTerminal = 0 := by
  rw [List.countP_eq_zero]
  intro e he
  obtain ⟨i, hi, rfl⟩ := List.mem_mapIdx.1 he
  rw [isTerminal_stepLine]
  exact Bool.false_ne_true

theorem countP_isTerminal_opening : Run.opening.countP StatusEvent.isTerminal = 0 := by
  decide +kernel

namespace Run

/-- A run that has not ended has not said its last line. -/
theorem closedTimes_said (program : Program) (run : Run) : ClosedTimes 0 (run.said program) := by
  constructor
  · rw [count_idleBadge, badges_said]
    cases run.begun <;> decide
  · obtain ⟨token, total, done, startedAt, stage⟩ := run
    cases stage with
    | claimed p => rfl
    | waiting step since wake hold rest =>
      simp only [said, List.countP_append, countP_isTerminal_opening, countP_isTerminal_stepLines]

/-- A run that has ended has said its last line once. -/
theorem EndsAs.closedTimes {σ : Type} {program : Program} {said : List StatusEvent}
    {story : Story σ} {report : Report} (h : EndsAs program said story report) :
    ClosedTimes 1 said := by
  constructor
  · rw [count_idleBadge, h.badges]
    decide
  · obtain ⟨ending, announced, -, hc⟩ := h
    simp only [hc.said, List.countP_append, countP_isTerminal_opening, countP_isTerminal_stepLines,
      closing, List.countP_cons, isTerminal_statusText]
    rfl

end Run

/-! ## What can become of a run -/

section Histories

variable {σ : Type} {hs : List (Happening σ)} {x : Happening σ} {token : Token}

/-- The run of a token was live when it was abandoned. -/
def GivenUp (hs : List (Happening σ)) (token : Token) : Prop :=
  ∃ before since, hs = before ++ .abandoned token :: since ∧ LiveIn before token

/-- The run of a token has ended with a report. -/
def HasEnded (hs : List (Happening σ)) (token : Token) : Prop :=
  ∃ story report, .wentOn token story (some report) ∈ hs

/-- What releases a run is that it ends or is abandoned. -/
theorem releases_iff :
    x.Releases token ↔
      (∃ story report, x = .wentOn token story (some report)) ∨ x = .abandoned token := by
  constructor
  · intro h
    cases x with
    | wentOn other story report? =>
      cases report? with
      | none => exact absurd h id
      | some report =>
        obtain rfl : other = token := h
        exact .inl ⟨story, report, rfl⟩
    | abandoned other =>
      obtain rfl : other = token := h
      exact .inr rfl
    | _ => exact absurd h id
  · rintro (⟨story, report, rfl⟩ | rfl) <;> rfl

/-- A run is not live after what releases it. -/
theorem not_liveIn_snoc (h : x.Releases token) : ¬ LiveIn (hs ++ [x]) token := by
  rw [liveIn_snoc]
  rintro (⟨program, rfl⟩ | ⟨-, hn⟩)
  · exact h
  · exact hn h

theorem givenUp_snoc :
    GivenUp (hs ++ [x]) token ↔ GivenUp hs token ∨ (x = .abandoned token ∧ LiveIn hs token) :=
  exists_cons_snoc

theorem hasEnded_snoc :
    HasEnded (hs ++ [x]) token ↔
      HasEnded hs token ∨ ∃ story report, x = .wentOn token story (some report) := by
  simp only [HasEnded, List.mem_append, List.mem_singleton, exists_or, eq_comm]

end Histories

/-- What has become of the run of a token: it is live, it has ended, or it was given up, and only
one of these. It said its last line and cleared the badge once if it has ended, and did neither
otherwise. -/
inductive World.Fate {σ : Type} (w : World σ) (token : Token) : Prop where
  | live (hlive : LiveIn w.happenings token) (hended : ¬ HasEnded w.happenings token)
      (hgiven : ¬ GivenUp w.happenings token) (hsaid : ClosedTimes 0 (w.saidBy token))
  | ended (hlive : ¬ LiveIn w.happenings token) (hended : HasEnded w.happenings token)
      (hgiven : ¬ GivenUp w.happenings token) (hsaid : ClosedTimes 1 (w.saidBy token))
  | givenUp (hlive : ¬ LiveIn w.happenings token) (hended : ¬ HasEnded w.happenings token)
      (hgiven : GivenUp w.happenings token) (hsaid : ClosedTimes 0 (w.saidBy token))

variable {σ : Type} [Surface σ]

/-- A claim is made under the next token. -/
theorem Runner.token_eq_of_claimed {r : Runner σ} {move : Move σ} {token : Token}
    {program : Program} (h : (r.move move).answer = .claimed token program) :
    token = ⟨r.lastSerial + 1⟩ := by
  have start : ∀ steps, (r.move (.start steps)).answer = .claimed token program →
      token = ⟨r.lastSerial + 1⟩ := by
    intro steps h
    cases hr : r.running with
    | true =>
      simp only [Runner.move, start_of_running hr] at h
      cases h
    | false =>
      simp only [Runner.move, start_of_idle hr] at h
      cases h
      rfl
  cases move with
  | start steps => exact start steps h
  | command command =>
    cases command with
    | start steps =>
      rw [(move_command r).1] at h
      exact start steps h
    | stop => cases h
  | _ => cases h

namespace Keeps

variable {w : World σ} {token : Token}

omit [Surface σ] in
/-- The run that is live has not ended. -/
theorem not_hasEnded (h : Keeps w) (hl : LiveIn w.happenings token) :
    ¬ HasEnded w.happenings token := by
  rintro ⟨story, report, he⟩
  exact h.owned.ne_of_ended he ((h.owned.live token).1 hl).2

omit [Surface σ] in
/-- The run that is live has not said its last line. -/
theorem closedTimes_of_live (h : Keeps w) (hl : LiveIn w.happenings token) :
    ClosedTimes 0 (w.saidBy token) := by
  obtain ⟨hr, rfl⟩ := (h.owned.live token).1 hl
  obtain ⟨run, hruns, htoken⟩ := h.owned.runs_of_running hr
  obtain ⟨program, -, -, hsaid⟩ := h.exists_program (hruns ▸ List.mem_singleton.2 rfl)
  rw [← htoken, hsaid]
  exact Run.closedTimes_said program run

omit [Surface σ] in
/-- A run that has ended has said its last line. -/
theorem closedTimes_of_ended (h : Keeps w) {program : Program}
    (hp : .claimed token program ∈ w.happenings) (he : HasEnded w.happenings token) :
    ClosedTimes 1 (w.saidBy token) := by
  obtain ⟨story, report, he⟩ := he
  exact (h.ended token program story report hp he).1.closedTimes

/-- Nothing comes of going on with a run that is not live. -/
theorem goOn_of_not_live (h : Keeps w) (hn : ¬ LiveIn w.happenings token) :
    w.runner.move (.goOn token) = ⟨.wentOn token [] none, [], w.runner⟩ := by
  have live : ∀ run, token = w.runner.token → w.runner.runs = [run] → LiveIn w.happenings token :=
    fun run ht hruns =>
      (h.owned.live token).2 ⟨(h.owned.eq_of_mem (hruns ▸ List.mem_singleton.2 rfl)).1, ht⟩
  cases h.owned.goesOn token with
  | absent hm => exact hm
  | waits run next ht hruns => exact absurd (live run ht hruns) hn
  | ends run report ht hruns => exact absurd (live run ht hruns) hn

/-- A run that was claimed and is not live stays so; it says nothing more and does not end. -/
theorem over_after (h : Keeps w) {program : Program}
    (hp : .claimed token program ∈ w.happenings) (hn : ¬ LiveIn w.happenings token)
    (move : Move σ) :
    ¬ LiveIn (w.after move).happenings token ∧ (w.after move).saidBy token = w.saidBy token ∧
      (HasEnded (w.after move).happenings token → HasEnded w.happenings token) := by
  have hgone : ∀ story report, (w.runner.move move).answer ≠ .wentOn token story (some report) := by
    intro story report hx
    obtain rfl : move = .goOn token := by
      apply Runner.eq_goOn_of_isOf (r := w.runner)
      rw [hx]
      exact decide_eq_true rfl
    rw [h.goOn_of_not_live hn] at hx
    cases hx
  refine ⟨?_, ?_, ?_⟩
  · rw [World.happenings_after, liveIn_snoc]
    rintro (⟨other, hx⟩ | ⟨hl, -⟩)
    · -- the token of a claim is new
      obtain rfl := Runner.token_eq_of_claimed hx
      exact h.owned.numbered.not_claimed (Nat.lt_succ_self _) program hp
    · exact hn hl
  · rw [World.saidBy_after]
    split
    · rename_i hof
      obtain rfl := Runner.eq_goOn_of_isOf hof
      rw [h.goOn_of_not_live hn, List.append_nil]
    · exact List.append_nil _
  · rw [World.happenings_after, hasEnded_snoc]
    rintro (he | ⟨story, report, hx⟩)
    · exact he
    · exact absurd hx (hgone story report)

omit [Surface σ] in
theorem fate_of_live (h : Keeps w) (hl : LiveIn w.happenings token)
    (hgiven : ¬ GivenUp w.happenings token) : w.Fate token :=
  .live hl (h.not_hasEnded hl) hgiven (h.closedTimes_of_live hl)

/-- What a move makes of the run that is live. -/
theorem fate_after_of_live (h : Keeps w) (hl : LiveIn w.happenings token)
    (hgiven : ¬ GivenUp w.happenings token) (move : Move σ) : (w.after move).Fate token := by
  have hlater : Keeps (w.after move) := h.after move
  have hx := World.happenings_after w move
  by_cases hr : (w.runner.move move).answer.Releases token
  · have hnot : ¬ LiveIn (w.after move).happenings token := by
      rw [hx]
      exact not_liveIn_snoc hr
    rcases releases_iff.1 hr with ⟨story, report, ha⟩ | ha
    · obtain ⟨program, hp⟩ := hl.claimed
      rw [ha] at hx
      have hended : HasEnded (w.after move).happenings token := by
        rw [hx]
        exact hasEnded_snoc.2 (.inr ⟨story, report, rfl⟩)
      have hclaimed : .claimed token program ∈ (w.after move).happenings := by
        rw [hx]
        exact List.mem_append_left _ hp
      refine .ended hnot hended ?_ (hlater.closedTimes_of_ended hclaimed hended)
      rw [hx, givenUp_snoc]
      rintro (hg | ⟨habandoned, -⟩)
      · exact hgiven hg
      · cases habandoned
    · have hsaid : (w.after move).saidBy token = w.saidBy token := by
        rw [World.saidBy_after, ha]
        exact List.append_nil _
      rw [ha] at hx
      refine .givenUp hnot ?_ ?_ (hsaid ▸ h.closedTimes_of_live hl)
      · rw [hx, hasEnded_snoc]
        rintro (he | ⟨story, report, hend⟩)
        · exact h.not_hasEnded hl he
        · cases hend
      · rw [hx]
        exact givenUp_snoc.2 (.inr ⟨rfl, hl⟩)
  · refine hlater.fate_of_live ?_ ?_
    · rw [hx]
      exact liveIn_snoc.2 (.inr ⟨hl, hr⟩)
    · rw [hx, givenUp_snoc]
      rintro (hg | ⟨habandoned, -⟩)
      · exact hgiven hg
      · exact hr (habandoned ▸ rfl)

/-- **Fates.** Every move leaves each run that was claimed with one of the fates. -/
theorem fate_after (h : Keeps w)
    (hfate : ∀ token program, .claimed token program ∈ w.happenings → w.Fate token)
    (move : Move σ) {program : Program}
    (hp : .claimed token program ∈ (w.after move).happenings) : (w.after move).Fate token := by
  have hlater : Keeps (w.after move) := h.after move
  have hx := World.happenings_after w move
  rw [hx] at hp
  rcases List.mem_append.1 hp with hold | hnew
  · cases hfate token program hold with
    | live hlive hended hgiven hsaid => exact h.fate_after_of_live hlive hgiven move
    | ended hlive hended hgiven hsaid =>
      obtain ⟨hn, hsame, -⟩ := h.over_after hold hlive move
      refine .ended hn ?_ ?_ (hsame ▸ hsaid)
      · rw [hx]
        exact hasEnded_snoc.2 (.inl hended)
      · rw [hx, givenUp_snoc]
        rintro (hg | ⟨-, hl⟩)
        · exact hgiven hg
        · exact hlive hl
    | givenUp hlive hended hgiven hsaid =>
      obtain ⟨hn, hsame, hback⟩ := h.over_after hold hlive move
      refine .givenUp hn (mt hback hended) ?_ (hsame ▸ hsaid)
      rw [hx]
      exact givenUp_snoc.2 (.inl hgiven)
  · -- a run that was just claimed is live, and nothing happened to it yet
    have hclaim := List.mem_singleton.1 hnew
    refine hlater.fate_of_live ?_ ?_
    · rw [hx]
      exact liveIn_snoc.2 (.inl ⟨program, hclaim.symm⟩)
    · rw [hx, givenUp_snoc]
      rintro (⟨before, since, heq, hl⟩ | ⟨habandoned, -⟩)
      · obtain ⟨other, hother⟩ := hl.claimed
        obtain rfl := Runner.token_eq_of_claimed hclaim.symm
        refine h.owned.numbered.not_claimed (Nat.lt_succ_self _) other ?_
        rw [heq]
        exact List.mem_append_left _ hother
      · rw [← hclaim] at habandoned
        cases habandoned

/-- What holds of every run that was claimed when it is over: nothing more comes of it, whatever is
done. -/
theorem over_afterAll (h : Keeps w) {program : Program}
    (hp : .claimed token program ∈ w.happenings) (hn : ¬ LiveIn w.happenings token)
    (moves : List (Move σ)) :
    (w.afterAll moves).saidBy token = w.saidBy token ∧
      (w.afterAll moves).runner.move (.goOn token) =
        ⟨.wentOn token [] none, [], (w.afterAll moves).runner⟩ := by
  obtain ⟨hk, -, hnot, hsaid⟩ := World.afterAll_induction
    (P := fun later => Keeps later ∧ .claimed token program ∈ later.happenings ∧
      ¬ LiveIn later.happenings token ∧ later.saidBy token = w.saidBy token)
    (fun later move ⟨hk, hclaimed, hnot, hsaid⟩ => by
      obtain ⟨hstill, hsame, -⟩ := hk.over_after hclaimed hnot move
      refine ⟨hk.after move, ?_, hstill, hsame.trans hsaid⟩
      rw [World.happenings_after]
      exact List.mem_append_left _ hclaimed)
    ⟨h, hp, hn, rfl⟩ moves
  exact ⟨hsaid, hk.goOn_of_not_live hnot⟩

end Keeps

/-! ## Abandoning a run -/

/-- A runner without runs clears the badge as often as there is reason to, and lets time pass. -/
theorem Runner.elapse_of_idle {r : Runner σ} (h : r.runs = []) (t : Nat) :
    r.elapse t =
      ⟨[], StatusEvent.toldAt r.now (List.replicate r.clearings .idleBadge),
        { r with clearings := 0, now := max r.now t }⟩ := by
  have hs : r.settle = ⟨[], List.replicate r.clearings .idleBadge, { r with clearings := 0 }⟩ := by
    simp [settle, h, advanceAll]
  have hrests : r.settle.runner.Rests := by
    rw [hs]
    exact ⟨rfl, .inl h⟩
  rw [elapse_settle hrests, elapse_of_nil hrests (by rw [hs]; exact h), hs]
  simp [Passage.after]

/-- What comes of abandoning the run of a token while there is something left to attend to it. -/
structure World.CleansUp (w later : World σ) (token : Token) : Prop where
  /-- the runner is idle, also if the run was asked to stop -/
  idle : later.runner.running = false ∧ later.runner.cancelRequested = false
  /-- the surface is as the run left it -/
  surface : later.runner.surface = w.runner.surface
  /-- no wait of the run ends any more, and it says nothing more -/
  still : ∀ moves, (later.afterAll moves).saidBy token = w.saidBy token ∧
    (later.afterAll moves).runner.move (.goOn token) =
      ⟨.wentOn token [] none, [], (later.afterAll moves).runner⟩
  /-- it has neither said its last line nor cleared the badge -/
  said : ClosedTimes 0 (w.saidBy token)
  /-- while time passes, the badge is cleared once more than it would have been, and nothing else
  happens -/
  clears : ∀ t, later.runner.elapse t =
    ⟨[], StatusEvent.toldAt w.runner.now (List.replicate (w.runner.clearings + 1) .idleBadge),
      { later.runner with clearings := 0, now := max w.runner.now t }⟩
  /-- a run can be claimed again -/
  accepts : ∀ program, ∃ next, (later.runner.start program).answer = .ok next
  /-- the runner does what a fresh one does with the same surface at the same instant, however often
  the badge is still to be cleared -/
  fresh : ∀ n, Runner.BehavesLike later.runner.lastSerial { later.runner with clearings := n }
    { surface := w.runner.surface, policy := w.runner.policy, now := w.runner.now, clearings := n }

/-- **Abandoning.** Abandoning a run cleans up, wherever the run waits. -/
theorem Keeps.cleansUp_of_find? {w : World σ} (h : Keeps w) {token : Token} {run : Run}
    (hf : w.runner.find? token = some run) : w.CleansUp (w.after (.abandon token true)) token := by
  obtain ⟨hr, hruns, htoken, rfl⟩ := h.owned.eq_of_find? hf
  have hlive : LiveIn w.happenings w.runner.token := (h.owned.live _).2 ⟨hr, rfl⟩
  obtain ⟨program, hp⟩ := hlive.claimed
  have hrunner := h.owned.abandon_of_find? hf true
  have hx := World.happenings_after w (.abandon w.runner.token true)
  have hlater : Keeps (w.after (.abandon w.runner.token true)) := h.after _
  constructor
  case idle =>
    rw [World.runner_after, Runner.move, hrunner]
    exact ⟨rfl, rfl⟩
  case surface => rw [World.runner_after, Runner.move, hrunner]
  case still =>
    intro moves
    have hsaid : (w.after (.abandon w.runner.token true)).saidBy w.runner.token =
        w.saidBy w.runner.token := by
      rw [World.saidBy_after]
      exact List.append_nil _
    rw [← hsaid]
    have hclaimed : .claimed w.runner.token program ∈
        (w.after (.abandon w.runner.token true)).happenings := by
      rw [hx]
      exact List.mem_append_left _ hp
    refine hlater.over_afterAll hclaimed ?_ moves
    rw [hx]
    exact not_liveIn_snoc rfl
  case said => exact h.closedTimes_of_live hlive
  case clears =>
    intro t
    rw [World.runner_after, Runner.move, hrunner]
    exact Runner.elapse_of_idle rfl t
  case accepts =>
    intro program
    rw [World.runner_after, Runner.move, hrunner, Runner.start_of_idle rfl]
    exact ⟨_, rfl⟩
  case fresh =>
    intro n
    rw [World.runner_after, Runner.move, hrunner]
    refine Runner.Recoded.behavesLike ⟨w.runner.cancelled, rfl, fun token => ?_⟩
    -- no token that is made from now on is cancelled
    apply h.owned.not_cancelled_of_lt
    simp only [Recoding.token, Recoding.shift_raising, Token.raise]
    omega

/-! ## How often the badge is cleared -/

/-- How many runs were claimed. -/
def World.claims {σ : Type} (w : World σ) : Nat := w.happenings.countP Happening.isClaim

/-- How often the badge was cleared, is still to be cleared, or will be by the run that is live. -/
def World.clearedOrDue {σ : Type} (w : World σ) : Nat :=
  w.badges.count idleBadge + w.runner.clearings + w.runner.runs.length

/-- The badge is cleared once at most for each claim, and once if some condition holds. -/
def World.Balanced {σ : Type} (w : World σ) (attended : Prop) : Prop :=
  w.clearedOrDue ≤ w.claims ∧ (attended → w.clearedOrDue = w.claims)

/-- The badge of a run that begins is not cleared by that. -/
theorem count_idleBadge_begin (begun : Bool) :
    (if begun then [] else [runningBadge] : List StatusEvent).count idleBadge = 0 := by
  cases begun <;> decide

omit [Surface σ] in
/-- A claim adds a run, and whatever takes a run away clears the badge or leaves that to be done,
unless nothing attends to the run. -/
theorem BadgeMove.balanced {r : Runner σ} {move : Move σ} {a : Reaction σ (Happening σ)}
    (h : BadgeMove r move a) :
    ∃ lost, (badges a.events).count idleBadge + a.runner.clearings + a.runner.runs.length + lost =
        r.clearings + r.runs.length + (if a.answer.isClaim then 1 else 0) ∧
      ((∀ token, move ≠ .abandon token false) → lost = 0) := by
  cases h with
  | aside hclaim hbadges hruns hclearings =>
    rw [hclaim, hbadges, hruns, hclearings]
    exact ⟨0, by simp, fun _ => rfl⟩
  | claims run hbegun hnew hclaim hbadges hnone hruns hclearings =>
    rw [hclaim, hbadges, hnone, hruns, hclearings]
    exact ⟨0, by simp, fun _ => rfl⟩
  | goesOn run next hbegun hsame hclaim hbadges hrun hruns hclearings =>
    rw [hclaim, hbadges, hrun, hruns, hclearings, count_idleBadge_begin]
    exact ⟨0, by simp, fun _ => rfl⟩
  | ends run hclaim hbadges hrun hruns hclearings =>
    rw [hclaim, hbadges, hrun, hruns, hclearings, List.count_append, count_idleBadge_begin,
      List.count_singleton_self]
    exact ⟨0, by simp [Nat.add_comm], fun _ => rfl⟩
  | abandons run attended hmove hclaim hbadges hrun hruns hclearings =>
    rw [hclaim, hbadges, hrun, hruns, hclearings]
    cases attended with
    | true => exact ⟨0, by simp, fun _ => rfl⟩
    | false => exact ⟨1, by simp, fun hne => absurd hmove (hne run.token)⟩
  | clears hmove hclaim hbadges hruns hclearings =>
    rw [hclaim, hbadges, hruns, ← hclearings, List.count_singleton_self]
    exact ⟨0, by simp [Nat.add_comm], fun _ => rfl⟩

/-- A move keeps the balance, unless it abandons a run with nothing left to attend to it. -/
theorem Keeps.balanced_after {w : World σ} (h : Keeps w) {attended : Prop}
    (hb : w.Balanced attended) {move : Move σ}
    (hmove : attended → ∀ token, move ≠ .abandon token false) :
    (w.after move).Balanced attended := by
  obtain ⟨lost, hstep, hlost⟩ := (h.badgeMove move).balanced
  obtain ⟨hle, heq⟩ := hb
  have hsum : (w.after move).clearedOrDue + lost + w.claims =
      w.clearedOrDue + (w.after move).claims := by
    rw [World.clearedOrDue, World.clearedOrDue, World.claims, World.claims, World.badges_after,
      World.happenings_after, World.runner_after, List.count_append, List.countP_append,
      List.countP_singleton]
    omega
  constructor
  · omega
  · intro hattended
    have hnone := hlost (hmove hattended)
    have hsame := heq hattended
    omega

/-- Moves keep the balance, unless a run is abandoned with nothing left to attend to it. -/
theorem Keeps.balanced_afterAll {w : World σ} (h : Keeps w) {attended : Prop}
    (hb : w.Balanced attended) {moves : List (Move σ)}
    (hmoves : attended → ∀ token, .abandon token false ∉ moves) :
    (w.afterAll moves).Balanced attended := by
  induction moves generalizing w with
  | nil => exact hb
  | cons move moves ih =>
    have hmove : attended → ∀ token, move ≠ .abandon token false := by
      rintro hattended token rfl
      exact hmoves hattended token List.mem_cons_self
    exact ih (h.after move) (h.balanced_after hb hmove) fun hattended token hm =>
      hmoves hattended token (List.mem_cons_of_mem _ hm)

/-! ## Histories -/

/-- Every run that was claimed has one of the fates. -/
theorem fate_afterAll (s : σ) (policy : RunPolicy) (moves : List (Move σ)) {token : Token}
    {program : Program}
    (hp : .claimed token program ∈ ((World.fresh s policy).afterAll moves).happenings) :
    ((World.fresh s policy).afterAll moves).Fate token := by
  obtain ⟨-, hfate⟩ := World.afterAll_induction
    (P := fun w => Keeps w ∧
      ∀ token program, .claimed token program ∈ w.happenings → w.Fate token)
    (fun w move ⟨hk, hfate⟩ => ⟨hk.after move, fun _ _ hp => hk.fate_after hfate move hp⟩)
    ⟨keeps_fresh s policy, fun _ _ hp => absurd hp List.not_mem_nil⟩ moves
  exact hfate token program hp

/-- **Abandonment.** Whatever is done to a runner and in whatever order: abandoning the run that is
there cleans up; every run that was claimed is live, has ended with its last line and the badge
cleared, or was given up without; the run that is live ends if enough time passes; and for each
claim the badge is cleared once at most, and once if something was always left to attend to the runs
that were abandoned, as soon as no run is live and nothing is left to be cleared. -/
theorem abandonment_afterAll (s : σ) (policy : RunPolicy) (moves : List (Move σ)) :
    let w := (World.fresh s policy).afterAll moves
    (∀ token run, w.runner.find? token = some run →
      w.CleansUp (w.after (.abandon token true)) token) ∧
    (∀ token program, .claimed token program ∈ w.happenings → w.Fate token) ∧
    (∀ token, LiveIn w.happenings token →
      ∃ t report, (w.runner.elapse t).endings = [(token, report)]) ∧
    w.clearedOrDue ≤ w.claims ∧
    ((∀ token, .abandon token false ∉ moves) → w.clearedOrDue = w.claims) := by
  intro w
  have h : Keeps w := keeps_afterAll s policy moves
  refine ⟨fun token run hf => h.cleansUp_of_find? hf,
    fun token program hp => fate_afterAll s policy moves hp, ?_, ?_⟩
  · intro token hl
    obtain ⟨hr, rfl⟩ := (h.owned.live token).1 hl
    obtain ⟨run, hruns, htoken⟩ := h.owned.runs_of_running hr
    rw [← htoken]
    exact Runner.exists_endings hruns
  · exact (keeps_fresh s policy).balanced_afterAll ⟨Nat.le_refl _, fun _ => rfl⟩ id

/-- A run that waits is asked to stop, and abandoned before it sees that; another one is abandoned
before it began, and a third one is claimed then. -/
theorem abandonment_wait :
    let program : Program := [[("action", .string "wait"), ("ms", .string "400")]]
    let start := World.fresh (PageFixture.page {}) {}
    let begun := [.start program, .goOn ⟨1⟩, .stop]
    let moves := begun ++
      [.abandon ⟨1⟩ true, .clear, .start program, .abandon ⟨3⟩ true, .start program]
    let waiting := start.afterAll begun
    let later := start.afterAll moves
    waiting.runner.cancelRequested = true ∧
      waiting.CleansUp (waiting.after (.abandon ⟨1⟩ true)) ⟨1⟩ ∧
      later.Fate ⟨3⟩ ∧ later.Fate ⟨5⟩ ∧
      (∃ t report, (later.runner.elapse t).endings = [(⟨5⟩, report)]) ∧
      later.clearedOrDue = later.claims := by
  intro program start begun moves waiting later
  have hwaiting := abandonment_afterAll (PageFixture.page {}) {} begun
  obtain ⟨-, hfate, hends, -, hbalanced⟩ := abandonment_afterAll (PageFixture.page {}) {} moves
  refine ⟨rfl, hwaiting.1 ⟨1⟩ _ rfl, ?_, ?_, hends ⟨5⟩ ?_, hbalanced ?_⟩
  · exact hfate ⟨3⟩ program (List.mem_of_getElem? (i := 5) rfl)
  · exact hfate ⟨5⟩ program (List.mem_of_getElem? (i := 7) rfl)
  · exact ((owned_afterAll (PageFixture.page {}) {} moves).live ⟨5⟩).2 ⟨rfl, rfl⟩
  · intro token hm
    simp [moves, begun] at hm

end FormRehearsal
