/-
# The owner of a runner

At most one run is live, the runner is running exactly while one is, and the current token is that
run's. A stop request cancels the current token, every claim and every release makes a fresh one
current: so the token of a run is cancelled exactly when a stop request found that run live.

* `Owned.comes` : what can come of a move;
* `Owned.after` : every move keeps the invariant that ties the runs, the flag, the tokens and the
  history together;
* `owned_afterAll` : the invariant holds of every world that is reached.
-/
import FormRehearsal.Proofs.Run.Ending
import FormRehearsal.Proofs.Run.Story
import FormRehearsal.Proofs.Runner.History

namespace FormRehearsal

/-! ## Runs that are cancelled -/

namespace Run

variable {σ : Type} [Surface σ]

/-- A run that is reported as cancelled has been asked to stop. -/
theorem stopping_of_cancelled {m : Moment} {run : Run} {report : Report} {s : σ}
    (h : (run.advance m s).state = .ended report) (hc : report.outcome = .cancelled) :
    m.stopping = true := by
  -- the account of the segment gives the report, and says how it came about
  have hreports := (tells_account m run s).reports
  rw [h] at hreports
  have hmem : report ∈ Story.reports (run.account m s) := by
    rw [← hreports]
    exact List.mem_singleton.2 rfl
  obtain ⟨e, he, hr⟩ := List.mem_flatMap.1 hmem
  cases ht : e.turn with
  | ended ending report' =>
    rw [ht] at hr
    obtain rfl : report = report' := by simpa [Turn.report?] using hr
    obtain ⟨harises, houtcome⟩ := arises_account m run s e he ending report ht
    exact Ending.stopping_of_cancelled harises (houtcome ▸ hc)
  | _ =>
    rw [ht] at hr
    simp [Turn.report?] at hr

end Run

/-! ## The invariant -/

variable {σ : Type}

/-- A stop request to a run that is live cancels its token. -/
theorem Runner.stop_of_running {r : Runner σ} (hr : r.running = true) :
    r.stop.runner = { r with cancelled := r.token :: r.cancelled } := by
  rw [stop, hr]
  rfl

/-- A start of an idle runner claims a run under the next token. -/
theorem Runner.start_eq_of_idle {r : Runner σ} (hr : r.running = false) (program : Program) :
    r.start program =
      ⟨.ok ⟨r.lastSerial + 1⟩, [],
        { r with
          running := true, token := ⟨r.lastSerial + 1⟩, lastSerial := r.lastSerial + 1,
          runs := r.runs ++ [Run.claim ⟨r.lastSerial + 1⟩ program r.now] }⟩ := by
  rw [start, hr]
  rfl

/-- The claims in a history are numbered; the number is that of the last token that was made. -/
structure Numbered (n : Nat) (hs : List (Happening σ)) : Prop where
  claimed : ∀ token program, .claimed token program ∈ hs → token.serial ≤ n
  unique : ∀ token program other, .claimed token program ∈ hs → .claimed token other ∈ hs →
    program = other
  /-- the token of a run that has ended is not made again -/
  ended : ∀ token story report, .wentOn token story (some report) ∈ hs → token.serial < n

namespace Numbered

variable {n m : Nat} {hs : List (Happening σ)} {x : Happening σ}

theorem nil : Numbered n ([] : List (Happening σ)) where
  claimed := fun _ _ h => absurd h List.not_mem_nil
  unique := fun _ _ _ h => absurd h List.not_mem_nil
  ended := fun _ _ _ h => absurd h List.not_mem_nil

/-- The run of a token that is not made yet was not claimed. -/
theorem not_claimed (h : Numbered n hs) {token : Token} (hlt : n < token.serial)
    (program : Program) : .claimed token program ∉ hs :=
  fun hm => absurd (h.claimed token program hm) (Nat.not_le.2 hlt)

/-- A happening that claims nothing. -/
theorem snoc (h : Numbered n hs) (hnm : n ≤ m)
    (hclaim : ∀ token program, x ≠ .claimed token program)
    (hend : ∀ token story report, x = .wentOn token story (some report) → token.serial < m) :
    Numbered m (hs ++ [x]) where
  claimed := by
    intro token program hm
    rcases List.mem_append.1 hm with hm | hm
    · exact Nat.le_trans (h.claimed token program hm) hnm
    · exact absurd (List.mem_singleton.1 hm).symm (hclaim token program)
  unique := by
    intro token program other hp ho
    rcases List.mem_append.1 hp with hp | hp
    · rcases List.mem_append.1 ho with ho | ho
      · exact h.unique token program other hp ho
      · exact absurd (List.mem_singleton.1 ho).symm (hclaim token other)
    · exact absurd (List.mem_singleton.1 hp).symm (hclaim token program)
  ended := by
    intro token story report hm
    rcases List.mem_append.1 hm with hm | hm
    · exact Nat.lt_of_lt_of_le (h.ended token story report hm) hnm
    · exact hend token story report (List.mem_singleton.1 hm).symm

/-- A claim under the next token. -/
theorem claim (h : Numbered n hs) (program : Program) :
    Numbered (n + 1) (hs ++ [.claimed ⟨n + 1⟩ program]) where
  claimed := by
    intro token other hm
    rcases List.mem_append.1 hm with hm | hm
    · exact Nat.le_succ_of_le (h.claimed token other hm)
    · cases List.mem_singleton.1 hm
      exact Nat.le_refl _
  unique := by
    have hnew : ∀ p, .claimed ⟨n + 1⟩ p ∉ hs := h.not_claimed (Nat.lt_succ_self n)
    intro token p q hp hq
    rcases List.mem_append.1 hp with hp | hp
    · rcases List.mem_append.1 hq with hq | hq
      · exact h.unique token p q hp hq
      · cases List.mem_singleton.1 hq
        exact absurd hp (hnew p)
    · cases List.mem_singleton.1 hp
      rcases List.mem_append.1 hq with hq | hq
      · exact absurd hq (hnew q)
      · cases List.mem_singleton.1 hq
        rfl
  ended := by
    intro token story report hm
    rcases List.mem_append.1 hm with hm | hm
    · exact Nat.lt_succ_of_lt (h.ended token story report hm)
    · cases List.mem_singleton.1 hm

end Numbered

/-- The runs that are reported as cancelled were asked to stop. -/
def CancelledAsked (hs : List (Happening σ)) : Prop :=
  ∀ token story report, .wentOn token story (some report) ∈ hs →
    report.outcome = .cancelled → AskedToStop hs token

theorem CancelledAsked.snoc {hs : List (Happening σ)} {x : Happening σ} (h : CancelledAsked hs)
    (hx : ∀ token story report, x = .wentOn token story (some report) →
      report.outcome = .cancelled → AskedToStop hs token) : CancelledAsked (hs ++ [x]) := by
  intro token story report hm hc
  apply askedToStop_snoc.2
  rcases List.mem_append.1 hm with hm | hm
  · exact Or.inl (h token story report hm hc)
  · exact Or.inl (hx token story report (List.mem_singleton.1 hm).symm hc)

/-- **Ownership.** What a runner holds agrees with what happened to it: the runs, the flag and the
current token with the run that is live, the cancelled tokens with the stop requests. -/
structure Owned (r : Runner σ) (hs : List (Happening σ)) : Prop where
  tokens : r.runs.map (·.token) = if r.running then [r.token] else []
  serial : r.token.serial = r.lastSerial
  numbered : Numbered r.lastSerial hs
  live : ∀ token, LiveIn hs token ↔ r.running = true ∧ token = r.token
  cancelled : ∀ token, r.isCancelled token = true ↔ AskedToStop hs token
  reported : CancelledAsked hs

theorem owned_fresh (s : σ) (policy : RunPolicy) : Owned (World.fresh s policy).runner [] where
  tokens := rfl
  serial := rfl
  numbered := .nil
  live := by
    intro token
    constructor
    · exact fun h => absurd h not_liveIn_nil
    · exact fun h => absurd h.1 Bool.false_ne_true
  cancelled := by
    intro token
    constructor
    · exact fun h => absurd h Bool.false_ne_true
    · exact fun h => absurd h not_askedToStop_nil
  reported := fun _ _ _ h => absurd h List.not_mem_nil

namespace Owned

variable {r r' : Runner σ} {hs : List (Happening σ)} {x : Happening σ}

/-- The runs of an idle runner. -/
theorem runs_of_idle (h : Owned r hs) (hr : r.running = false) : r.runs = [] := by
  have ht := h.tokens
  rw [hr] at ht
  exact List.map_eq_nil_iff.1 ht

/-- The run of a runner that is running. -/
theorem runs_of_running (h : Owned r hs) (hr : r.running = true) :
    ∃ run, r.runs = [run] ∧ run.token = r.token := by
  have ht := h.tokens
  rw [hr, if_pos rfl] at ht
  obtain ⟨run, hruns, htoken⟩ := List.map_eq_singleton_iff.1 ht
  exact ⟨run, hruns, htoken⟩

/-- A run that is there is the only one, and the current token is its own. -/
theorem eq_of_mem (h : Owned r hs) {run : Run} (hm : run ∈ r.runs) :
    r.running = true ∧ r.runs = [run] ∧ run.token = r.token := by
  cases hr : r.running with
  | false =>
    rw [h.runs_of_idle hr] at hm
    cases hm
  | true =>
    obtain ⟨only, hruns, htoken⟩ := h.runs_of_running hr
    rw [hruns] at hm
    obtain rfl := List.mem_singleton.1 hm
    exact ⟨rfl, hruns, htoken⟩

/-- The run that is found for a token is the only one. -/
theorem eq_of_find? (h : Owned r hs) {token : Token} {run : Run} (hf : r.find? token = some run) :
    r.running = true ∧ r.runs = [run] ∧ run.token = r.token ∧ token = r.token := by
  obtain ⟨hr, hruns, htoken⟩ := h.eq_of_mem (List.mem_of_find?_eq_some hf)
  have hsame : run.token = token := by
    simpa using List.find?_some hf
  exact ⟨hr, hruns, htoken, hsame.symm.trans htoken⟩

/-- The token of no run is not that of a live one. -/
theorem not_live_of_find? (h : Owned r hs) {token : Token} (hf : r.find? token = none) :
    ¬ LiveIn hs token := by
  rw [h.live]
  rintro ⟨hr, rfl⟩
  obtain ⟨run, hruns, htoken⟩ := h.runs_of_running hr
  rw [Runner.find?, hruns] at hf
  simp [htoken] at hf

/-- The current token is not that of a run that has ended. -/
theorem ne_of_ended (h : Owned r hs) {token : Token} {story : Story σ} {report : Report}
    (he : .wentOn token story (some report) ∈ hs) : token ≠ r.token := by
  rintro rfl
  have := h.numbered.ended _ _ _ he
  rw [h.serial] at this
  exact Nat.lt_irrefl _ this

/-! ### What keeps the invariant -/

/-- A happening that neither claims, releases nor stops a run, after which the runner has the same
tokens. -/
theorem quiet (h : Owned r hs) (hclaim : ∀ token program, x ≠ .claimed token program)
    (hstop : x ≠ .stopAsked true) (hrel : ∀ token, LiveIn hs token → ¬ x.Releases token)
    (hrep : ∀ token story report, x ≠ .wentOn token story (some report))
    (hruns : r'.runs.map (·.token) = r.runs.map (·.token)) (hrunning : r'.running = r.running)
    (htoken : r'.token = r.token) (hserial : r'.lastSerial = r.lastSerial)
    (hcancelled : r'.cancelled = r.cancelled) : Owned r' (hs ++ [x]) where
  tokens := by rw [hruns, hrunning, htoken, h.tokens]
  serial := by rw [htoken, hserial, h.serial]
  numbered := by
    rw [hserial]
    exact h.numbered.snoc (Nat.le_refl _) hclaim fun _ _ _ hx => absurd hx (hrep _ _ _)
  live := by
    intro token
    rw [liveIn_snoc, hrunning, htoken, ← h.live]
    constructor
    · rintro (⟨program, rfl⟩ | ⟨hl, -⟩)
      · exact absurd rfl (hclaim token program)
      · exact hl
    · exact fun hl => Or.inr ⟨hl, hrel token hl⟩
  cancelled := by
    intro token
    rw [askedToStop_snoc, Runner.isCancelled, hcancelled]
    show r.isCancelled token = true ↔ _
    rw [h.cancelled]
    constructor
    · exact Or.inl
    · rintro (ha | ⟨rfl, -⟩)
      · exact ha
      · exact absurd rfl hstop
  reported := h.reported.snoc fun _ _ _ hx => absurd hx (hrep _ _ _)

/-- Nothing that concerns the runs. -/
theorem elsewhere (h : Owned r hs) (hruns : r'.runs = r.runs) (hrunning : r'.running = r.running)
    (htoken : r'.token = r.token) (hserial : r'.lastSerial = r.lastSerial)
    (hcancelled : r'.cancelled = r.cancelled) : Owned r' (hs ++ [.elsewhere]) :=
  h.quiet (by simp) (by simp) (fun _ _ => id) (by simp) (by rw [hruns]) hrunning htoken hserial
    hcancelled

/-- A claim on an idle runner. -/
theorem claim (h : Owned r hs) (hr : r.running = false) (program : Program) :
    Owned (r.start program).runner (hs ++ [.claimed ⟨r.lastSerial + 1⟩ program]) := by
  rw [Runner.start_eq_of_idle hr]
  constructor
  case tokens =>
    rw [h.runs_of_idle hr]
    rfl
  case serial => rfl
  case numbered => exact h.numbered.claim program
  case live =>
    intro token
    rw [liveIn_snoc, h.live, hr]
    constructor
    · rintro (⟨program', hx⟩ | ⟨⟨hf, -⟩, -⟩)
      · cases hx
        exact ⟨rfl, rfl⟩
      · cases hf
    · rintro ⟨-, rfl⟩
      exact Or.inl ⟨program, rfl⟩
  case cancelled =>
    -- the token is new, so no stop request went to it
    intro token
    rw [askedToStop_snoc]
    constructor
    · exact fun hc => Or.inl ((h.cancelled token).1 hc)
    · rintro (ha | ⟨hx, -⟩)
      · exact (h.cancelled token).2 ha
      · cases hx
  case reported => exact h.reported.snoc fun _ _ _ hx => by cases hx

/-- A stop request. -/
theorem stop (h : Owned r hs) : Owned r.stop.runner (hs ++ [.stopAsked r.running]) := by
  cases hr : r.running with
  | false =>
    rw [Runner.stop_of_idle hr]
    refine h.quiet ?_ ?_ ?_ ?_ rfl rfl rfl rfl rfl
    · exact fun _ _ hx => by cases hx
    · exact fun hx => by cases hx
    · exact fun _ _ => id
    · exact fun _ _ _ hx => by cases hx
  | true =>
    rw [Runner.stop_of_running hr]
    constructor
    case tokens => exact h.tokens
    case serial => exact h.serial
    case numbered =>
      refine h.numbered.snoc (Nat.le_refl _) ?_ ?_
      · exact fun _ _ hx => by cases hx
      · exact fun _ _ _ hx => by cases hx
    case live =>
      intro token
      rw [liveIn_snoc, h.live]
      constructor
      · rintro (⟨program, hx⟩ | ⟨hl, -⟩)
        · cases hx
        · exact hl
      · exact fun hl => Or.inr ⟨hl, id⟩
    case cancelled =>
      -- the request reaches the token of the run that is live
      intro token
      have hcons : Runner.isCancelled { r with cancelled := r.token :: r.cancelled } token =
          (token == r.token || r.isCancelled token) := rfl
      rw [hcons, Bool.or_eq_true, beq_iff_eq, h.cancelled, askedToStop_snoc, h.live]
      constructor
      · rintro (rfl | ha)
        · exact Or.inr ⟨rfl, hr, rfl⟩
        · exact Or.inl ha
      · rintro (ha | ⟨-, -, htoken⟩)
        · exact Or.inr ha
        · exact Or.inl htoken
    case reported => exact h.reported.snoc fun _ _ _ hx => by cases hx

/-- A release of the run that is live, after which nothing of it is left. -/
theorem released (h : Owned r hs) (hx : x.Releases r.token)
    (hreported : ∀ token story report, x = .wentOn token story (some report) →
      report.outcome = .cancelled → AskedToStop hs token)
    (hruns : r'.runs = []) (hrunning : r'.running = false)
    (htoken : r'.token = ⟨r.lastSerial + 1⟩) (hserial : r'.lastSerial = r.lastSerial + 1)
    (hcancelled : r'.cancelled = r.cancelled) : Owned r' (hs ++ [x]) where
  tokens := by
    rw [hruns, hrunning]
    rfl
  serial := by rw [htoken, hserial]
  numbered := by
    rw [hserial]
    refine h.numbered.snoc (Nat.le_succ _) ?_ ?_
    · rintro token program rfl
      cases hx
    · rintro token story report rfl
      obtain rfl : token = r.token := hx
      exact Nat.lt_succ_of_le (Nat.le_of_eq h.serial)
  live := by
    intro token
    rw [liveIn_snoc, h.live, hrunning]
    constructor
    · rintro (⟨program, rfl⟩ | ⟨⟨-, rfl⟩, hn⟩)
      · cases hx
      · exact absurd hx hn
    · rintro ⟨hf, -⟩
      cases hf
  cancelled := by
    intro token
    rw [askedToStop_snoc, Runner.isCancelled, hcancelled]
    show r.isCancelled token = true ↔ _
    rw [h.cancelled]
    constructor
    · exact Or.inl
    · rintro (ha | ⟨rfl, -⟩)
      · exact ha
      · cases hx
  reported := h.reported.snoc hreported

end Owned

/-! ## What a runner does when it goes on -/

namespace Runner

variable [Surface σ] {r : Runner σ} {token : Token} {run : Run}

/-- A command to start a run is a start, one to stop it a stop request. -/
theorem move_command (r : Runner σ) :
    (∀ program, r.move (.command (.start program)) = r.move (.start program)) ∧
      r.move (.command .stop) = r.move .stop := by
  refine ⟨fun program => ?_, rfl⟩
  cases hr : r.running with
  | true => simp only [move, handle, start_of_running hr, Ack.alreadyRunning]; rfl
  | false =>
    simp only [move, handle, start_eq_of_idle hr]
    rfl

theorem advance_of_none (h : r.find? token = none) : r.advance token = ⟨[], [], r⟩ := by
  simp only [advance, h]

omit [Surface σ] in
/-- The only run of a runner is found. -/
theorem find?_of_one (h : r.runs = [run]) (ht : run.token = token) : r.find? token = some run := by
  rw [find?, h]
  exact List.find?_cons_of_pos (decide_eq_true ht)

/-- The only run of a runner goes on and waits again. -/
theorem advance_of_running {next : Run} (h : r.runs = [run]) (ht : run.token = token)
    (hs : (run.advance (r.moment token) r.surface).state = .running next) :
    r.advance token =
      ⟨[], (run.advance (r.moment token) r.surface).events,
        { r with
          surface := (run.advance (r.moment token) r.surface).surface, runs := [next] }⟩ := by
  have hmap : (r.runs.map fun other => if other.token = token then next else other) =
      [next] := by
    rw [h, List.map_singleton, if_pos ht]
  simp only [advance, find?_of_one h ht, hs, hmap]

/-- The only run of a runner goes on and ends. -/
theorem advance_of_ended {report : Report} (h : r.runs = [run]) (ht : run.token = token)
    (hs : (run.advance (r.moment token) r.surface).state = .ended report) :
    r.advance token =
      ⟨[(token, report)], (run.advance (r.moment token) r.surface).events,
        { r with
          surface := (run.advance (r.moment token) r.surface).surface, runs := [] }.release⟩ := by
  have hfilter : r.runs.filter (·.token ≠ token) = [] := by
    simp [h, ht]
  simp only [advance, find?_of_one h ht, hs, hfilter]

end Runner

/-- What comes of going on with the run of a token, if the runner has at most one run and its token
is the current one. -/
inductive GoesOn [Surface σ] (r : Runner σ) (token : Token) : Prop where
  | absent (hm : r.move (.goOn token) = ⟨.wentOn token [] none, [], r⟩)
  | waits (run next : Run) (ht : token = r.token) (hruns : r.runs = [run])
      (htoken : run.token = r.token)
      (hs : (run.advance (r.moment r.token) r.surface).state = .running next)
      (hm : r.move (.goOn token) =
        ⟨.wentOn r.token (run.account (r.moment r.token) r.surface) none,
          (run.advance (r.moment r.token) r.surface).events,
          { r with
            surface := (run.advance (r.moment r.token) r.surface).surface, runs := [next] }⟩)
  | ends (run : Run) (report : Report) (ht : token = r.token) (hruns : r.runs = [run])
      (htoken : run.token = r.token)
      (hs : (run.advance (r.moment r.token) r.surface).state = .ended report)
      (hm : r.move (.goOn token) =
        ⟨.wentOn r.token (run.account (r.moment r.token) r.surface) (some report),
          (run.advance (r.moment r.token) r.surface).events,
          { r with
            surface := (run.advance (r.moment r.token) r.surface).surface, runs := [] }.release⟩)

/-- What comes of a move, if the runner has at most one run and its token is the current one: no run
is claimed or goes on, a run is claimed, the only run goes on, or the surface changes from outside.
-/
inductive Comes [Surface σ] (r : Runner σ) (move : Move σ) : Prop where
  | idle (hclaim : ∀ token program, (r.move move).answer ≠ .claimed token program)
      (hstory : ∀ token, (r.move move).answer.storyOf token = [])
      (hruns : ∀ run ∈ (r.move move).runner.runs, run ∈ r.runs)
      (hsurface : (r.move move).runner.surface = r.surface)
      (hnow : r.now ≤ (r.move move).runner.now)
  | claimed (program : Program) (hr : r.running = false)
      (hm : r.move move =
        ⟨.claimed ⟨r.lastSerial + 1⟩ program, [], (r.start program).runner⟩)
  | wentOn (run : Run) (report? : Option Report) (events : List StatusEvent) (r' : Runner σ)
      (hruns : r.runs = [run]) (htoken : run.token = r.token)
      (hm : r.move move =
        ⟨.wentOn r.token (run.account (r.moment r.token) r.surface) report?, events, r'⟩)
      (hsurface : r'.surface = (run.advance (r.moment r.token) r.surface).surface)
      (hnext : ∀ next ∈ r'.runs, next.token = r.token ∧ r'.moment r.token = r.moment r.token ∧
        (run.advance (r.moment r.token) r.surface).state = .running next)
  | changed (f : σ → σ) (hmove : move = .change f)

/-! ## Every move keeps the invariant -/

namespace Owned

variable [Surface σ] {r : Runner σ} {hs : List (Happening σ)}

/-- One of these comes of going on with the run of a token. -/
theorem goesOn (h : Owned r hs) (token : Token) : GoesOn r token := by
  cases hf : r.find? token with
  | none =>
    refine .absent ?_
    simp only [Runner.move, Runner.account, hf, Runner.advance_of_none hf]
    rfl
  | some run =>
    obtain ⟨hr, hruns, htoken, rfl⟩ := h.eq_of_find? hf
    cases hs' : (run.advance (r.moment r.token) r.surface).state with
    | running next =>
      refine .waits run next rfl hruns htoken hs' ?_
      simp only [Runner.move, Runner.account, hf, Runner.advance_of_running hruns htoken hs']
      rfl
    | ended report =>
      refine .ends run report rfl hruns htoken hs' ?_
      simp only [Runner.move, Runner.account, hf, Runner.advance_of_ended hruns htoken hs']
      rfl

/-- One of these comes of every move. -/
theorem comes (h : Owned r hs) (move : Move σ) : Comes r move := by
  -- a command comes to the same as what it asks for
  have start : ∀ (move : Move σ) program, r.move move = r.move (.start program) →
      Comes r move := by
    intro move program hsame
    cases hr : r.running with
    | true =>
      have hm : r.move move = ⟨.refused, [.status RunError.alreadyRunning.message], r⟩ := by
        rw [hsame, Runner.move, Runner.start_of_running hr]
        rfl
      refine .idle ?_ ?_ ?_ (by rw [hm]) (Nat.le_of_eq (by rw [hm])) <;> rw [hm]
      · exact fun _ _ hx => by cases hx
      · exact fun _ => rfl
      · exact fun _ => id
    | false =>
      refine .claimed program hr ?_
      rw [hsame, Runner.move, Runner.start_eq_of_idle hr]
      rfl
  have stop : ∀ move : Move σ, r.move move = r.move .stop → Comes r move := by
    intro move hsame
    refine .idle ?_ ?_ ?_ ?_ ?_ <;> rw [hsame] <;> simp only [Runner.move, Runner.stop]
    · exact fun _ _ hx => by cases hx
    · exact fun _ => rfl
    · split <;> exact fun _ => id
    · split <;> rfl
    · split <;> exact Nat.le_refl _
  cases move with
  | start program => exact start _ program rfl
  | stop => exact stop _ rfl
  | command command =>
    cases command with
    | start program => exact start _ program ((Runner.move_command r).1 program)
    | stop => exact stop _ rfl
  | goOn token =>
    cases h.goesOn token with
    | absent hm =>
      refine .idle ?_ ?_ ?_ (by rw [hm]) (Nat.le_of_eq (by rw [hm])) <;> rw [hm]
      · exact fun _ _ hx => by cases hx
      · intro other
        rw [Happening.storyOf]
        split <;> rfl
      · exact fun _ => id
    | waits run next ht hruns htoken hs' hm =>
      refine .wentOn run _ _ _ hruns htoken hm rfl fun other hother => ?_
      obtain rfl := List.mem_singleton.1 hother
      exact ⟨(Run.running_advance hs').1.trans htoken, rfl, hs'⟩
    | ends run report ht hruns htoken hs' hm =>
      exact .wentOn run _ _ _ hruns htoken hm rfl fun _ hother => absurd hother List.not_mem_nil
  | abandon token attended =>
    refine .idle (fun _ _ hx => by cases hx) (fun _ => rfl) ?_ ?_ ?_ <;>
      simp only [Runner.move, Runner.abandon]
    · split
      · exact fun _ => id
      · exact fun _ hrun => (List.mem_filter.1 hrun).1
    · split <;> rfl
    · split <;> exact Nat.le_refl _
  | clear =>
    exact .idle (fun _ _ hx => by cases hx) (fun _ => rfl) (fun _ => id) rfl (Nat.le_refl _)
  | pass instant =>
    exact .idle (fun _ _ hx => by cases hx) (fun _ => rfl) (fun _ => id) rfl (Nat.le_max_left _ _)
  | change f => exact .changed f rfl

/-- A run goes on. -/
theorem goOn (h : Owned r hs) (token : Token) :
    Owned (r.move (.goOn token)).runner (hs ++ [(r.move (.goOn token)).answer]) := by
  cases h.goesOn token with
  | absent hm =>
    rw [hm]
    exact h.quiet (by simp) (by simp) (fun _ _ => id) (by simp) rfl rfl rfl rfl rfl
  | waits run next ht hruns htoken hs' hm =>
    rw [hm]
    refine h.quiet (by simp) (by simp) (fun _ _ => id) (by simp) ?_ rfl rfl rfl rfl
    -- the run keeps its token
    rw [hruns, List.map_singleton, List.map_singleton, (Run.running_advance hs').1]
  | ends run report ht hruns htoken hs' hm =>
    rw [hm]
    refine h.released rfl ?_ rfl rfl rfl rfl rfl
    intro token story report' hx hc
    cases hx
    exact (h.cancelled r.token).1 (Run.stopping_of_cancelled hs' hc)

omit [Surface σ] in
/-- A run is abandoned. -/
theorem abandon (h : Owned r hs) (token : Token) (attended : Bool) :
    Owned (r.abandon token attended) (hs ++ [.abandoned token]) := by
  cases hf : r.find? token with
  | none =>
    have ha : r.abandon token attended = r := by simp only [Runner.abandon, hf]
    rw [ha]
    refine h.quiet (by simp) (by simp) ?_ (by simp) rfl rfl rfl rfl rfl
    -- there is no run of the token, so nothing is released
    rintro other hl rfl
    exact h.not_live_of_find? hf hl
  | some run =>
    obtain ⟨hr, hruns, htoken, rfl⟩ := h.eq_of_find? hf
    have ha : r.abandon r.token attended =
        { r with
          runs := r.runs.filter (·.token ≠ r.token),
          clearings := if attended then r.clearings + 1 else r.clearings }.release := by
      simp only [Runner.abandon, hf]
    rw [ha]
    refine h.released rfl (by simp) ?_ rfl rfl rfl rfl
    simp [Runner.release, Runner.renew, hruns, htoken]

/-- Whatever is done to a runner keeps the invariant. -/
theorem move (h : Owned r hs) (move : Move σ) :
    Owned (r.move move).runner (hs ++ [(r.move move).answer]) := by
  -- a command comes to the same as what it asks for
  have start : ∀ program,
      Owned (r.move (.start program)).runner (hs ++ [(r.move (.start program)).answer]) := by
    intro program
    cases hr : r.running with
    | true =>
      simp only [Runner.move, Runner.start_of_running hr, Happening.ofStart]
      exact h.quiet (by simp) (by simp) (fun _ _ => id) (by simp) rfl rfl rfl rfl rfl
    | false =>
      simp only [Runner.move, Runner.start_of_idle hr, Happening.ofStart]
      exact h.claim hr program
  cases move with
  | start program => exact start program
  | stop => exact h.stop
  | command command =>
    cases command with
    | start program =>
      rw [(Runner.move_command r).1]
      exact start program
    | stop => exact h.stop
  | goOn token => exact h.goOn token
  | abandon token attended => exact h.abandon token attended
  | clear => exact h.elsewhere rfl rfl rfl rfl rfl
  | pass instant => exact h.elsewhere rfl rfl rfl rfl rfl
  | change f => exact h.elsewhere rfl rfl rfl rfl rfl

/-- **Moves.** A runner and its history keep the invariant at every move. -/
theorem after {w : World σ} (h : Owned w.runner w.happenings) (move : Move σ) :
    Owned (w.after move).runner (w.after move).happenings := by
  rw [World.runner_after, World.happenings_after]
  exact h.move move

end Owned

/-- **Reached worlds.** The invariant holds of every world that some moves lead to. -/
theorem owned_afterAll [Surface σ] (s : σ) (policy : RunPolicy) (moves : List (Move σ)) :
    Owned ((World.fresh s policy).afterAll moves).runner
      ((World.fresh s policy).afterAll moves).happenings := by
  refine World.afterAll_induction (P := fun w => Owned w.runner w.happenings) ?_
    (owned_fresh s policy) moves
  intro w move h
  exact h.after move

end FormRehearsal
