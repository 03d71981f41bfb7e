/-
# One run at a time

Whatever is done to a runner and in whatever order, at most one run is live, the runner says so, and
a stop request reaches that run and no other one, neither an earlier nor a later one.

* `exclusive_afterAll` : this holds of every world that is reached.
-/
import FormRehearsal.Page.Fixture
import FormRehearsal.Proofs.Runner.Ownership

namespace FormRehearsal

variable {σ : Type}

namespace Owned

variable {r : Runner σ} {hs : List (Happening σ)}

/-- The runner is running exactly while it has a run. -/
theorem running_iff (h : Owned r hs) : r.running = true ↔ r.runs ≠ [] := by
  constructor
  · intro hr hnil
    obtain ⟨run, hruns, -⟩ := h.runs_of_running hr
    rw [hnil] at hruns
    cases hruns
  · intro hne
    obtain ⟨run, hm⟩ := List.exists_mem_of_ne_nil _ hne
    exact (h.eq_of_mem hm).1

/-- The runs that the runner has are those that are live. -/
theorem mem_runs_iff (h : Owned r hs) (token : Token) :
    (∃ run ∈ r.runs, run.token = token) ↔ LiveIn hs token := by
  rw [h.live]
  constructor
  · rintro ⟨run, hm, rfl⟩
    obtain ⟨hr, -, htoken⟩ := h.eq_of_mem hm
    exact ⟨hr, htoken⟩
  · rintro ⟨hr, rfl⟩
    obtain ⟨run, hruns, htoken⟩ := h.runs_of_running hr
    exact ⟨run, hruns ▸ List.mem_singleton.2 rfl, htoken⟩

/-- A token that was not made yet is not cancelled. -/
theorem not_cancelled_of_lt (h : Owned r hs) {token : Token} (hlt : r.lastSerial < token.serial) :
    r.isCancelled token = false := by
  cases hc : r.isCancelled token with
  | false => rfl
  | true =>
    obtain ⟨program, hm⟩ := ((h.cancelled token).1 hc).claimed
    exact absurd (h.numbered.claimed token program hm) (Nat.not_le.2 hlt)

end Owned

/-! ## Exclusion -/

/-- The runs of a runner exclude each other, and stop requests are theirs. -/
structure Exclusive (w : World σ) : Prop where
  /-- at most one run is live -/
  atMostOne : w.runner.runs.length ≤ 1
  /-- the runner has the runs that are live -/
  live : ∀ token, (∃ run ∈ w.runner.runs, run.token = token) ↔ LiveIn w.happenings token
  running : w.runner.running = true ↔ w.runner.runs ≠ []
  /-- the current token is that of the run -/
  current : ∀ run ∈ w.runner.runs, w.runner.token = run.token
  /-- a claim succeeds exactly when no run is live -/
  claims : ∀ program,
    (∃ token, (w.runner.start program).answer = .ok token) ↔ w.runner.runs = []
  /-- a claim that fails leaves everything as it is -/
  refusals : ∀ program e, (w.runner.start program).answer = .error e →
    e = .alreadyRunning ∧ (w.runner.start program).runner = w.runner
  /-- a claimed run has the current token, which no run had before and which is not cancelled -/
  tokens : ∀ program token, (w.runner.start program).answer = .ok token →
    (w.runner.start program).runner.token = token ∧
      (∀ earlier, .claimed token earlier ∉ w.happenings) ∧
      (w.runner.start program).runner.isCancelled token = false
  /-- commands are accepted as starts are -/
  commands : ∀ program, (w.runner.handle (.start program)).answer.ok = true ↔ w.runner.runs = []
  /-- a stop request is told whether a run is live -/
  stops : w.runner.stop.answer = true ↔ w.runner.runs ≠ []
  /-- the token of a run is cancelled exactly when a stop request found the run live -/
  cancelled : ∀ token, w.runner.isCancelled token = true ↔ AskedToStop w.happenings token
  requested : w.runner.cancelRequested = true ↔
    ∃ run ∈ w.runner.runs, w.runner.isCancelled run.token = true
  /-- a run is reported as cancelled only if a stop request found it live -/
  reported : ∀ token story report, .wentOn token story (some report) ∈ w.happenings →
    report.outcome = .cancelled → AskedToStop w.happenings token

/-- The invariant gives exclusion. -/
theorem Owned.exclusive {w : World σ} (h : Owned w.runner w.happenings) : Exclusive w where
  atMostOne := by
    cases hr : w.runner.running with
    | false =>
      rw [h.runs_of_idle hr]
      exact Nat.zero_le 1
    | true =>
      obtain ⟨run, hruns, -⟩ := h.runs_of_running hr
      rw [hruns]
      exact Nat.le_refl 1
  live := h.mem_runs_iff
  running := h.running_iff
  current := fun run hm => (h.eq_of_mem hm).2.2.symm
  claims := by
    intro program
    cases hr : w.runner.running with
    | false =>
      rw [Runner.start_of_idle hr, h.runs_of_idle hr]
      exact ⟨fun _ => rfl, fun _ => ⟨_, rfl⟩⟩
    | true =>
      rw [Runner.start_of_running hr]
      constructor
      · rintro ⟨token, ht⟩
        cases ht
      · exact fun hnil => absurd hnil (h.running_iff.1 hr)
  refusals := by
    intro program e he
    cases hr : w.runner.running with
    | false =>
      rw [Runner.start_of_idle hr] at he
      cases he
    | true =>
      rw [Runner.start_of_running hr] at he ⊢
      cases he
      exact ⟨rfl, rfl⟩
  tokens := by
    intro program token ht
    cases hr : w.runner.running with
    | false =>
      rw [Runner.start_eq_of_idle hr] at ht ⊢
      cases ht
      -- no run had the next token, so no stop request went to it
      refine ⟨rfl, h.numbered.not_claimed (Nat.lt_succ_self _), ?_⟩
      exact h.not_cancelled_of_lt (Nat.lt_succ_self _)
    | true =>
      rw [Runner.start_of_running hr] at ht
      cases ht
  commands := by
    intro program
    cases hr : w.runner.running with
    | false =>
      rw [Runner.handle, Runner.start_of_idle hr, h.runs_of_idle hr]
      exact ⟨fun _ => rfl, fun _ => rfl⟩
    | true =>
      rw [Runner.handle, Runner.start_of_running hr]
      constructor
      · intro hok
        cases hok
      · exact fun hnil => absurd hnil (h.running_iff.1 hr)
  stops := h.running_iff
  cancelled := h.cancelled
  requested := by
    rw [Runner.cancelRequested, Bool.and_eq_true]
    constructor
    · rintro ⟨hr, hc⟩
      obtain ⟨run, hruns, htoken⟩ := h.runs_of_running hr
      exact ⟨run, hruns ▸ List.mem_singleton.2 rfl, htoken ▸ hc⟩
    · rintro ⟨run, hm, hc⟩
      obtain ⟨hr, -, htoken⟩ := h.eq_of_mem hm
      exact ⟨hr, htoken ▸ hc⟩
  reported := h.reported

/-- **One run at a time.** Starts, stop requests, commands, runs that go on, end or are abandoned,
in any order: the runs of a runner exclude each other, and a stop request reaches the run that is
live when it comes. -/
theorem exclusive_afterAll [Surface σ] (s : σ) (policy : RunPolicy) (moves : List (Move σ)) :
    Exclusive ((World.fresh s policy).afterAll moves) :=
  (owned_afterAll s policy moves).exclusive

/-- A run that is asked to stop before it began is reported as cancelled; a stop request that comes
while nothing runs does not reach the next run. -/
theorem exclusive_two_runs :
    let program : Program := [[("action", .string "wait"), ("ms", .string "200")]]
    let w := (World.fresh (PageFixture.page {}) {}).afterAll
      [.start program, .stop, .goOn ⟨1⟩, .stop, .command (.start program)]
    AskedToStop w.happenings ⟨1⟩ ∧ LiveIn w.happenings ⟨3⟩ ∧ ¬ AskedToStop w.happenings ⟨3⟩ ∧
      w.runner.runs.length ≤ 1 := by
  intro program w
  have h := exclusive_afterAll (PageFixture.page {}) {}
    [.start program, .stop, .goOn ⟨1⟩, .stop, .command (.start program)]
  refine ⟨(h.cancelled ⟨1⟩).1 rfl, (h.live ⟨3⟩).1 ?_, fun ha => ?_, h.atMostOne⟩
  · exact ⟨_, List.mem_singleton.2 rfl, rfl⟩
  · cases (h.cancelled ⟨3⟩).2 ha

end FormRehearsal
