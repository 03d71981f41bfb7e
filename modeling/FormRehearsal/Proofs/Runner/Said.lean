/-
# What the runs of a runner say

Starts that are refused, stop requests and other runs say things too; what the run of a token says
itself is left when they are taken away. It keeps to the program of the run, whatever is done to the
runner and in whatever order.

* `Keeps.after` : every move leaves the runs with their programs;
* `keeps_afterAll` : so they are in every world that is reached.
-/
import FormRehearsal.Proofs.Run.Protocol
import FormRehearsal.Proofs.Runner.Ownership

namespace FormRehearsal

variable {σ : Type} [Surface σ]

/-- **Programs.** The run that is live keeps to its program, and those that have ended kept to
theirs. -/
structure Keeps (w : World σ) : Prop where
  owned : Owned w.runner w.happenings
  /-- a run that was not claimed yet has said nothing -/
  silent : ∀ token, w.runner.lastSerial < token.serial → w.saidBy token = []
  live : ∀ token program, .claimed token program ∈ w.happenings → ∀ run ∈ w.runner.runs,
    run.token = token → run.Underway program ∧ w.saidBy token = run.said program
  ended : ∀ token program story report, .claimed token program ∈ w.happenings →
    .wentOn token story (some report) ∈ w.happenings →
      Run.EndsAs program (w.saidBy token) story report ∧ ∃ m, Run.EndingsArise m story

omit [Surface σ] in
theorem keeps_fresh (s : σ) (policy : RunPolicy) : Keeps (World.fresh s policy) where
  owned := owned_fresh s policy
  silent := fun _ _ => rfl
  live := fun _ _ h => absurd h List.not_mem_nil
  ended := fun _ _ _ _ h => absurd h List.not_mem_nil

namespace Keeps

variable {w w' : World σ} {x : Happening σ}

omit [Surface σ] in
/-- A happening at which no run is claimed, says something or ends. -/
theorem quiet (h : Keeps w) (howned : Owned w'.runner w'.happenings)
    (hx : w'.happenings = w.happenings ++ [x]) (hsaid : ∀ token, w'.saidBy token = w.saidBy token)
    (hclaim : ∀ token program, x ≠ .claimed token program)
    (hrep : ∀ token story report, x ≠ .wentOn token story (some report))
    (hruns : ∀ run ∈ w'.runner.runs, run ∈ w.runner.runs)
    (hserial : w.runner.lastSerial ≤ w'.runner.lastSerial) : Keeps w' where
  owned := howned
  silent := by
    intro token hlt
    rw [hsaid]
    exact h.silent token (Nat.lt_of_le_of_lt hserial hlt)
  live := by
    intro token program hm run hr htoken
    rw [hx] at hm
    rw [hsaid]
    rcases List.mem_append.1 hm with hm | hm
    · exact h.live token program hm run (hruns run hr) htoken
    · exact absurd (List.mem_singleton.1 hm).symm (hclaim _ _)
  ended := by
    intro token program story report hm he
    rw [hx] at hm he
    rw [hsaid]
    rcases List.mem_append.1 hm with hm | hm
    · rcases List.mem_append.1 he with he | he
      · exact h.ended token program story report hm he
      · exact absurd (List.mem_singleton.1 he).symm (hrep _ _ _)
    · exact absurd (List.mem_singleton.1 hm).symm (hclaim _ _)

omit [Surface σ] in
/-- A claim on an idle runner. -/
theorem claim (h : Keeps w) (howned : Owned w'.runner w'.happenings)
    (hr : w.runner.running = false) {program : Program}
    (hx : w'.happenings = w.happenings ++ [.claimed ⟨w.runner.lastSerial + 1⟩ program])
    (hsaid : ∀ token, w'.saidBy token = w.saidBy token)
    (hrunner : w'.runner = (w.runner.start program).runner) : Keeps w' := by
  rw [Runner.start_eq_of_idle hr] at hrunner
  have hnew : ∀ p, .claimed ⟨w.runner.lastSerial + 1⟩ p ∉ w.happenings :=
    h.owned.numbered.not_claimed (Nat.lt_succ_self w.runner.lastSerial)
  constructor
  case owned => exact howned
  case silent =>
    intro token hlt
    rw [hrunner] at hlt
    rw [hsaid]
    exact h.silent token (Nat.lt_of_succ_lt hlt)
  case live =>
    intro token p hm run hrun htoken
    rw [hrunner, h.owned.runs_of_idle hr] at hrun
    rw [hx] at hm
    rw [hsaid]
    -- the run that was claimed is the only one, and its token is new
    obtain rfl : run = Run.claim ⟨w.runner.lastSerial + 1⟩ program w.runner.now :=
      List.mem_singleton.1 hrun
    obtain rfl : Token.mk (w.runner.lastSerial + 1) = token := htoken
    rcases List.mem_append.1 hm with hm | hm
    · exact absurd hm (hnew _)
    · cases List.mem_singleton.1 hm
      refine ⟨⟨rfl, carriedOut_nil program, rfl, rfl⟩, ?_⟩
      exact h.silent _ (Nat.lt_succ_self _)
  case ended =>
    intro token p story report hm he
    rw [hx] at hm he
    rw [hsaid]
    rcases List.mem_append.1 he with he | he
    · rcases List.mem_append.1 hm with hm | hm
      · exact h.ended token p story report hm he
      · cases List.mem_singleton.1 hm
        exact absurd (h.owned.numbered.ended _ _ _ he) (Nat.not_lt.2 (Nat.le_succ _))
    · cases List.mem_singleton.1 he

/-- A run that goes on keeps to its program. -/
theorem follows (h : Keeps w) {run : Run} (hruns : w.runner.runs = [run])
    (htoken : run.token = w.runner.token) {program : Program}
    (hm : .claimed w.runner.token program ∈ w.happenings) (m : Moment) :
    Run.Follows program (w.saidBy w.runner.token) (run.account m w.runner.surface)
      (run.advance m w.runner.surface) := by
  obtain ⟨hunder, hsaid⟩ := h.live _ program hm run (hruns ▸ List.mem_singleton.2 rfl) htoken
  rw [hsaid]
  exact Run.follows_advance hunder m _

omit [Surface σ] in
/-- The current run goes on and says more; it waits again or ends. -/
theorem goOnWith (h : Keeps w) (howned : Owned w'.runner w'.happenings) {story : Story σ}
    {report? : Option Report} {events : List StatusEvent}
    (hx : w'.happenings = w.happenings ++ [.wentOn w.runner.token story report?])
    (hsaid : ∀ token,
      w'.saidBy token = w.saidBy token ++ if token = w.runner.token then events else [])
    (hserial : w.runner.lastSerial ≤ w'.runner.lastSerial)
    (htoken : ∀ run ∈ w'.runner.runs, run.token = w.runner.token)
    (hlive : ∀ program, .claimed w.runner.token program ∈ w.happenings → ∀ run ∈ w'.runner.runs,
      run.Underway program ∧ w.saidBy w.runner.token ++ events = run.said program)
    (hended : ∀ program, .claimed w.runner.token program ∈ w.happenings →
      ∀ report, report? = some report →
        Run.EndsAs program (w.saidBy w.runner.token ++ events) story report ∧
          ∃ m, Run.EndingsArise m story) : Keeps w' := by
  have other : ∀ token, token ≠ w.runner.token → w'.saidBy token = w.saidBy token := by
    intro token hne
    rw [hsaid, if_neg hne, List.append_nil]
  have own : w'.saidBy w.runner.token = w.saidBy w.runner.token ++ events := by
    rw [hsaid, if_pos rfl]
  constructor
  case owned => exact howned
  case silent =>
    intro token hlt
    have hlt' := Nat.lt_of_le_of_lt hserial hlt
    rw [other]
    · exact h.silent token hlt'
    · rintro rfl
      exact absurd hlt' (Nat.not_lt.2 (Nat.le_of_eq h.owned.serial))
  case live =>
    intro token p hm run hrun ht
    obtain rfl : token = w.runner.token := ht.symm.trans (htoken run hrun)
    rw [hx] at hm
    rw [own]
    rcases List.mem_append.1 hm with hm | hm
    · exact hlive p hm run hrun
    · cases List.mem_singleton.1 hm
  case ended =>
    intro token p s report hm he
    rw [hx] at hm he
    rcases List.mem_append.1 hm with hp | hp
    · rcases List.mem_append.1 he with he | he
      · -- a run that had ended says nothing more
        rw [other token (h.owned.ne_of_ended he)]
        exact h.ended token p s report hp he
      · cases List.mem_singleton.1 he
        rw [own]
        exact hended p hp report rfl
    · cases List.mem_singleton.1 hp

end Keeps

/-! ## Every move leaves the runs with their programs -/

namespace Keeps

variable {w : World σ}

/-- A move at which the runs say nothing. -/
theorem saidBy_after_of_nil {move : Move σ} {token : Token}
    (hev : (w.runner.move move).answer.isOf token = true → (w.runner.move move).events = []) :
    (w.after move).saidBy token = w.saidBy token := by
  rw [World.saidBy_after]
  split
  · rename_i hof
    rw [hev hof, List.append_nil]
  · exact List.append_nil _

/-- What the runs said when the current one has gone on. -/
theorem saidBy_goOn {story : Story σ} {report? : Option Report} {events : List StatusEvent}
    {r : Runner σ} (hm : w.runner.move (.goOn w.runner.token) =
      ⟨.wentOn w.runner.token story report?, events, r⟩) (token : Token) :
    (w.after (.goOn w.runner.token)).saidBy token =
      w.saidBy token ++ if token = w.runner.token then events else [] := by
  rw [World.saidBy_after, hm]
  congr 1
  by_cases ht : token = w.runner.token
  · rw [if_pos ht]
    exact if_pos (decide_eq_true ht.symm)
  · rw [if_neg ht]
    exact if_neg fun hof => ht (of_decide_eq_true hof).symm

theorem start (h : Keeps w) (program : Program) : Keeps (w.after (.start program)) := by
  have howned := h.owned.after (.start program)
  have hx := World.happenings_after w (.start program)
  cases hr : w.runner.running with
  | true =>
    have hm : w.runner.move (.start program) =
        ⟨.refused, [.status RunError.alreadyRunning.message], w.runner⟩ := by
      rw [Runner.move, Runner.start_of_running hr]
      rfl
    rw [hm] at hx
    refine h.quiet howned hx (fun token => saidBy_after_of_nil ?_) (by simp) (by simp) ?_ ?_
    · rw [hm]
      exact fun hof => by cases hof
    · rw [World.runner_after, hm]
      exact fun _ => id
    · exact Nat.le_of_eq (by rw [World.runner_after, hm])
  | false =>
    have hm : w.runner.move (.start program) =
        ⟨.claimed ⟨w.runner.lastSerial + 1⟩ program, [], (w.runner.start program).runner⟩ := by
      rw [Runner.move, Runner.start_eq_of_idle hr]
      rfl
    rw [hm] at hx
    refine h.claim howned hr hx (fun token => saidBy_after_of_nil ?_) ?_
    · rw [hm]
      exact fun _ => rfl
    · rw [World.runner_after, hm]

theorem goOn (h : Keeps w) (token : Token) : Keeps (w.after (.goOn token)) := by
  have howned := h.owned.after (.goOn token)
  have hx := World.happenings_after w (.goOn token)
  have hrunner := World.runner_after w (.goOn token)
  cases h.owned.goesOn token with
  | absent hm =>
    rw [hm] at hx hrunner
    refine h.quiet howned hx (fun token => saidBy_after_of_nil ?_) (by simp) (by simp) ?_ ?_
    · rw [hm]
      exact fun _ => rfl
    · rw [hrunner]
      exact fun _ => id
    · exact Nat.le_of_eq (by rw [hrunner])
  | waits run next ht hruns htoken hs hm =>
    subst ht
    rw [hm] at hx hrunner
    refine h.goOnWith howned hx (saidBy_goOn hm) ?_ ?_ ?_ ?_
    · exact Nat.le_of_eq (by rw [hrunner])
    · rw [hrunner]
      rintro other hother
      obtain rfl := List.mem_singleton.1 hother
      rw [(Run.running_advance hs).1, htoken]
    · rw [hrunner]
      intro program hp other hother
      obtain rfl := List.mem_singleton.1 hother
      have hfollows := h.follows hruns htoken hp (w.runner.moment w.runner.token)
      rw [Run.Follows, hs] at hfollows
      exact hfollows
    · intro program hp report hreport
      cases hreport
  | ends run report ht hruns htoken hs hm =>
    subst ht
    rw [hm] at hx hrunner
    refine h.goOnWith howned hx (saidBy_goOn hm) ?_ ?_ ?_ ?_
    · rw [hrunner]
      exact Nat.le_succ _
    · rw [hrunner]
      exact fun _ hother => absurd hother List.not_mem_nil
    · rw [hrunner]
      exact fun _ _ _ hother => absurd hother List.not_mem_nil
    · intro program hp report' hreport
      cases hreport
      have hfollows := h.follows hruns htoken hp (w.runner.moment w.runner.token)
      rw [Run.Follows, hs] at hfollows
      exact ⟨hfollows, _, Run.arises_account _ run w.runner.surface⟩

/-- A move that neither starts a run nor goes on with one. -/
theorem idleMove (h : Keeps w) {move : Move σ}
    (hof : ∀ token, (w.runner.move move).answer.isOf token = false)
    (hclaim : ∀ token program, (w.runner.move move).answer ≠ .claimed token program)
    (hruns : ∀ run ∈ (w.runner.move move).runner.runs, run ∈ w.runner.runs)
    (hserial : w.runner.lastSerial ≤ (w.runner.move move).runner.lastSerial) :
    Keeps (w.after move) := by
  refine h.quiet (h.owned.after move) (World.happenings_after w move) ?_ hclaim ?_ hruns hserial
  · intro token
    apply saidBy_after_of_nil
    rw [hof]
    exact fun hf => absurd hf Bool.false_ne_true
  · intro token story report hwent
    have hown := hof token
    rw [hwent] at hown
    exact absurd (of_decide_eq_false hown) (not_not_intro rfl)

/-- **Moves.** Whatever is done to a runner, its runs keep to their programs. -/
theorem after (h : Keeps w) (move : Move σ) : Keeps (w.after move) := by
  have stop : Keeps (w.after .stop) := by
    refine h.idleMove (fun _ => rfl) (fun _ _ hx => by cases hx) ?_ ?_
    · simp only [Runner.move, Runner.stop]
      split <;> exact fun _ => id
    · simp only [Runner.move, Runner.stop]
      split <;> exact Nat.le_refl _
  cases move with
  | start program => exact h.start program
  | stop => exact stop
  | command command =>
    cases command with
    | start program =>
      rw [World.after, (Runner.move_command w.runner).1]
      exact h.start program
    | stop => exact stop
  | goOn token => exact h.goOn token
  | abandon token attended =>
    refine h.idleMove (fun _ => rfl) (fun _ _ hx => by cases hx) ?_ ?_
    · simp only [Runner.move, Runner.abandon]
      split
      · exact fun _ => id
      · exact fun _ hrun => (List.mem_filter.1 hrun).1
    · simp only [Runner.move, Runner.abandon]
      split
      · exact Nat.le_refl _
      · exact Nat.le_succ _
  | clear =>
    exact h.idleMove (fun _ => rfl) (fun _ _ hx => by cases hx) (fun _ => id) (Nat.le_refl _)
  | pass instant =>
    exact h.idleMove (fun _ => rfl) (fun _ _ hx => by cases hx) (fun _ => id) (Nat.le_refl _)
  | change f =>
    exact h.idleMove (fun _ => rfl) (fun _ _ hx => by cases hx) (fun _ => id) (Nat.le_refl _)

end Keeps

/-- **Reached worlds.** Runs keep to their programs in every world that some moves lead to. -/
theorem keeps_afterAll (s : σ) (policy : RunPolicy) (moves : List (Move σ)) :
    Keeps ((World.fresh s policy).afterAll moves) :=
  World.afterAll_induction (fun _ move h => h.after move) (keeps_fresh s policy) moves

end FormRehearsal
