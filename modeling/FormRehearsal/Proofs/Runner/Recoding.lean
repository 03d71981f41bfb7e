/-
# Recoded runs

A run carries more than what decides on what it does: the serial of its token, and in its steps
whatever is not read. A `Recoding` changes such things; the runs that it gives do the same as those
that it is given. So runners that agree up to a recoding do the same, whatever is done to both: the
same is answered, said and reported at the same instants, and the same is done to the surface.

* `Recoded.move`, `Recoded.afterAll` : what is done to both comes to the same;
* `Recoded.elapse` : so does letting time pass;
* `Recoded.course` : and whatever else is done with both.
-/
import FormRehearsal.Proofs.Runner.Course

namespace FormRehearsal

variable {σ : Type}

/-! ## Recodings -/

/-- The token whose serial is higher by a number. -/
def Token.raise (k : Nat) (token : Token) : Token := ⟨k + token.serial⟩

theorem Token.raise_inj {k : Nat} {a b : Token} : a.raise k = b.raise k ↔ a = b := by
  obtain ⟨a⟩ := a
  obtain ⟨b⟩ := b
  simp [raise]

theorem Token.beq_raise (k : Nat) (a b : Token) : (a.raise k == b.raise k) = (a == b) := by
  rw [Bool.eq_iff_iff, beq_iff_eq, beq_iff_eq, raise_inj]

/-- What a run has come to, with the run changed. -/
def RunState.map (f : Run → Run) : RunState → RunState
  | running run => running (f run)
  | ended report => ended report

/-- A segment of a run, with the run changed. -/
def Segment.mapRun (f : Run → Run) (g : Segment σ) : Segment σ := { g with state := g.state.map f }

/-- A change to tokens, programs and runs that makes no difference to what runs do. -/
structure Recoding where
  /-- how much higher the serials of tokens are -/
  shift : Nat
  program : Program → Program
  run : Run → Run
  token_run : ∀ x, (run x).token = x.token.raise shift
  run_claim : ∀ token steps now,
    run (.claim token steps now) = .claim (token.raise shift) (program steps) now
  wakesAt_run : ∀ now x, (run x).wakesAt now = x.wakesAt now
  advance_run : ∀ {σ : Type} [Surface σ] (m : Moment) (x : Run) (s : σ),
    (run x).advance m s = (x.advance m s).mapRun run
  account_run : ∀ {σ : Type} [Surface σ] (m : Moment) (x : Run) (s : σ),
    (run x).account m s = x.account m s

namespace Recoding

variable (c : Recoding)

/-- A recoded token. -/
def token (token : Token) : Token := token.raise c.shift

/-- A recoded move. -/
def move : Move σ → Move σ
  | .start program => .start (c.program program)
  | .command (.start program) => .command (.start (c.program program))
  | .goOn token => .goOn (c.token token)
  | .abandon token attended => .abandon (c.token token) attended
  | move => move

/-- A recoded happening. -/
def happening : Happening σ → Happening σ
  | .claimed token program => .claimed (c.token token) (c.program program)
  | .wentOn token story report? => .wentOn (c.token token) story report?
  | .abandoned token => .abandoned (c.token token)
  | .refused => .refused
  | .stopAsked running => .stopAsked running
  | .elsewhere => .elsewhere

/-- A recoded occasion: only what happened is recoded. -/
def occasion (o : Occasion σ) : Occasion σ := { o with happening := c.happening o.happening }

/-- A recoded doing. -/
def doing : Doing σ → Doing σ
  | .move move => .move (c.move move)
  | .run program => .run (c.program program)
  | .elapse instant => .elapse instant

/-- A recoded reply. -/
def reply : Reply → Reply
  | .claim answer => .claim (answer.map c.token)
  | reply => reply

/-- A recoded scene: what was done, what was answered and what happened are recoded. -/
def scene (scene : Scene σ) : Scene σ :=
  { scene with
    doing := c.doing scene.doing
    reply? := scene.reply?.map c.reply
    occasions := scene.occasions.map c.occasion }

end Recoding

/-! ## Recoded runners -/

/-- A runner that agrees with another one, except that its tokens and runs are recoded. Cancelled
tokens that are not recoded ones are of no account, since no run will ever have them. -/
def Runner.Recoded (c : Recoding) (r r' : Runner σ) : Prop :=
  ∃ cancelled, r' = { r with
      token := c.token r.token
      lastSerial := c.shift + r.lastSerial
      runs := r.runs.map c.run
      cancelled } ∧
    ∀ token : Token, cancelled.contains (c.token token) = r.cancelled.contains token

/-- The reactions of a runner and of one that is recoded. -/
structure Reaction.Recoded {α : Type} (c : Recoding) (f : α → α) (a b : Reaction σ α) : Prop where
  answer : b.answer = f a.answer
  events : b.events = a.events
  runner : a.runner.Recoded c b.runner

namespace Runner.Recoded

variable {c : Recoding} {r r' : Runner σ}

theorem now (h : r.Recoded c r') : r'.now = r.now := by
  obtain ⟨cancelled, rfl, -⟩ := h
  rfl

theorem surface (h : r.Recoded c r') : r'.surface = r.surface := by
  obtain ⟨cancelled, rfl, -⟩ := h
  rfl

theorem running (h : r.Recoded c r') : r'.running = r.running := by
  obtain ⟨cancelled, rfl, -⟩ := h
  rfl

theorem clearings (h : r.Recoded c r') : r'.clearings = r.clearings := by
  obtain ⟨cancelled, rfl, -⟩ := h
  rfl

theorem cancelRequested (h : r.Recoded c r') : r'.cancelRequested = r.cancelRequested := by
  obtain ⟨cancelled, rfl, hc⟩ := h
  simp only [Runner.cancelRequested, isCancelled, hc]

theorem moment (h : r.Recoded c r') (token : Token) :
    r'.moment (c.token token) = r.moment token := by
  obtain ⟨cancelled, rfl, hc⟩ := h
  simp only [Runner.moment, isCancelled, hc]

theorem find? (h : r.Recoded c r') (token : Token) :
    r'.find? (c.token token) = (r.find? token).map c.run := by
  obtain ⟨cancelled, rfl, -⟩ := h
  simp only [Runner.find?, List.find?_map, Function.comp_def, c.token_run, Recoding.token,
    Token.raise_inj]

/-! ### What they do -/

theorem start (h : r.Recoded c r') (program : Program) :
    (r.start program).Recoded c (·.map c.token) (r'.start (c.program program)) := by
  obtain ⟨cancelled, rfl, hc⟩ := h
  simp only [Runner.start]
  split
  · exact ⟨rfl, rfl, cancelled, rfl, hc⟩
  · refine ⟨rfl, rfl, cancelled, ?_, hc⟩
    simp only [renew, List.map_append, List.map_singleton, c.run_claim]
    rfl

theorem stop (h : r.Recoded c r') : r.stop.Recoded c id r'.stop := by
  obtain ⟨cancelled, rfl, hc⟩ := h
  refine ⟨rfl, rfl, ?_⟩
  simp only [Runner.stop]
  split
  · refine ⟨c.token r.token :: cancelled, rfl, fun token => ?_⟩
    rw [List.contains_cons, List.contains_cons, hc, Recoding.token, Recoding.token,
      Token.beq_raise]
  · exact ⟨cancelled, rfl, hc⟩

/-- The runs of other tokens. -/
theorem filter_ne (runs : List Run) (token : Token) :
    (runs.map c.run).filter (·.token ≠ c.token token) =
      (runs.filter (·.token ≠ token)).map c.run := by
  rw [List.filter_map]
  simp only [Function.comp_def, c.token_run, Recoding.token, ne_eq, Token.raise_inj]

/-- The runs after that of a token went on. -/
theorem map_update (runs : List Run) (token : Token) (next : Run) :
    (runs.map c.run).map (fun run => if run.token = c.token token then c.run next else run) =
      (runs.map fun run => if run.token = token then next else run).map c.run := by
  rw [List.map_map, List.map_map]
  apply List.map_congr_left
  intro run _
  by_cases ht : run.token = token
  · simp [c.token_run, Recoding.token, ht]
  · simp [c.token_run, Recoding.token, ht, Token.raise_inj]

theorem abandon (h : r.Recoded c r') (token : Token) (attended : Bool) :
    (r.abandon token attended).Recoded c (r'.abandon (c.token token) attended) := by
  have hf := h.find? token
  obtain ⟨cancelled, rfl, hc⟩ := h
  simp only [Runner.abandon, hf]
  cases r.find? token with
  | none => exact ⟨cancelled, rfl, hc⟩
  | some run =>
    refine ⟨cancelled, ?_, hc⟩
    simp only [Option.map_some, filter_ne]
    rfl

/-- What they answer. -/
theorem reply? (h : r.Recoded c r') (doing : Doing σ) :
    r'.reply? (c.doing doing) = (r.reply? doing).map c.reply := by
  have start : ∀ program, (r'.start (c.program program)).answer =
      (r.start program).answer.map c.token := fun program => (h.start program).answer
  have ack : ∀ program, (r'.handle (.start (c.program program))).answer =
      (r.handle (.start program)).answer := by
    intro program
    simp only [handle, start]
    cases (r.start program).answer <;> rfl
  cases doing with
  | run program => exact congrArg (fun answer => some (Reply.claim answer)) (start program)
  | elapse instant => rfl
  | move move =>
    cases move with
    | start program => exact congrArg (fun answer => some (Reply.claim answer)) (start program)
    | stop => exact congrArg (fun answer => some (Reply.stop answer)) h.stop.answer
    | command command =>
      cases command with
      | start program => exact congrArg (fun answer => some (Reply.ack answer)) (ack program)
      | stop => rfl
    | _ => rfl

variable [Surface σ]

theorem advance (h : r.Recoded c r') (token : Token) :
    (r.advance token).Recoded c (·.map fun (token, report) => (c.token token, report))
      (r'.advance (c.token token)) := by
  have hf := h.find? token
  have hm := h.moment token
  obtain ⟨cancelled, rfl, hc⟩ := h
  simp only [Runner.advance, hf, hm]
  cases r.find? token with
  | none => exact ⟨rfl, rfl, cancelled, rfl, hc⟩
  | some run =>
    simp only [Option.map_some, c.advance_run, Segment.mapRun]
    cases (run.advance (r.moment token) r.surface).state with
    | running next =>
      refine ⟨rfl, rfl, cancelled, ?_, hc⟩
      simp only [RunState.map, map_update]
    | ended report =>
      refine ⟨rfl, rfl, cancelled, ?_, hc⟩
      simp only [RunState.map, filter_ne]
      rfl

theorem account (h : r.Recoded c r') (token : Token) :
    r'.account (c.token token) = r.account token := by
  simp only [Runner.account, h.find?, h.moment, h.surface]
  cases r.find? token with
  | none => rfl
  | some run => exact c.account_run _ run _

/-- Whatever is done to both comes to the same. -/
theorem move (h : r.Recoded c r') (move : Move σ) :
    (r.move move).Recoded c c.happening (r'.move (c.move move)) := by
  have start : ∀ program, (r.move (.start program)).Recoded c c.happening
      (r'.move (.start (c.program program))) := by
    intro program
    obtain ⟨hanswer, hevents, hrunner⟩ := h.start program
    refine ⟨?_, hevents, hrunner⟩
    simp only [Runner.move, hanswer]
    cases (r.start program).answer <;> rfl
  have stop : (r.move .stop).Recoded c c.happening (r'.move .stop) := by
    obtain ⟨hanswer, hevents, hrunner⟩ := h.stop
    exact ⟨congrArg Happening.stopAsked hanswer, hevents, hrunner⟩
  cases move with
  | start program => exact start program
  | stop => exact stop
  | command command =>
    cases command with
    | start program =>
      have hcommand := start program
      rw [← (move_command r).1, ← (move_command r').1] at hcommand
      exact hcommand
    | stop => exact stop
  | goOn token =>
    obtain ⟨hanswer, hevents, hrunner⟩ := h.advance token
    refine ⟨?_, hevents, hrunner⟩
    simp only [Recoding.move, Runner.move, h.account, hanswer, Recoding.happening,
      List.head?_map, Option.map_map]
    rfl
  | abandon token attended => exact ⟨rfl, rfl, h.abandon token attended⟩
  | clear =>
    obtain ⟨cancelled, rfl, hc⟩ := h
    exact ⟨rfl, rfl, cancelled, rfl, hc⟩
  | pass instant =>
    obtain ⟨cancelled, rfl, hc⟩ := h
    exact ⟨rfl, rfl, cancelled, rfl, hc⟩
  | change f =>
    obtain ⟨cancelled, rfl, hc⟩ := h
    exact ⟨rfl, rfl, cancelled, rfl, hc⟩

/-- The same happens to both, up to the recoding, and they stay recoded. -/
theorem afterAll (h : r.Recoded c r') (moves : List (Move σ)) :
    (r.afterAll moves).Recoded c (r'.afterAll (moves.map c.move)) ∧
      r'.occasions (moves.map c.move) = (r.occasions moves).map c.occasion := by
  induction moves generalizing r r' with
  | nil => exact ⟨h, rfl⟩
  | cons move moves ih =>
    obtain ⟨hanswer, hevents, hrunner⟩ := h.move move
    obtain ⟨hlast, hoccasions⟩ := ih hrunner
    refine ⟨hlast, ?_⟩
    simp only [List.map_cons, occasions, hanswer, hevents, hoccasions, h.now]
    rfl

/-! ### While time passes -/

theorem advanceAll (h : r.Recoded c r') (tokens : List Token) :
    (r.advanceAll tokens).runner.Recoded c (r'.advanceAll (tokens.map c.token)).runner := by
  induction tokens generalizing r r' with
  | nil => exact h
  | cons token tokens ih => exact ih (h.advance token).runner

omit [Surface σ] in
theorem tokens (h : r.Recoded c r') :
    r'.runs.map (·.token) = (r.runs.map (·.token)).map c.token := by
  obtain ⟨cancelled, rfl, -⟩ := h
  simp only [List.map_map, Function.comp_def, c.token_run, Recoding.token]

omit [Surface σ] in
theorem nextWake? (h : r.Recoded c r') : r'.nextWake? = r.nextWake? := by
  obtain ⟨cancelled, rfl, -⟩ := h
  simp only [Runner.nextWake?, List.map_map, Function.comp_def, c.wakesAt_run]

theorem settle (h : r.Recoded c r') : r.settle.runner.Recoded c r'.settle.runner := by
  simp only [Runner.settle, h.tokens]
  obtain ⟨cancelled, heq, hc⟩ := h.advanceAll (r.runs.map (·.token))
  exact ⟨cancelled, by rw [heq], hc⟩

theorem settling (h : r.Recoded c r') : r'.settling = r.settling.map c.move := by
  rw [Runner.settling, Runner.settling, h.tokens, (h.advanceAll _).clearings, List.map_append,
    List.map_replicate]
  simp only [List.map_map]
  rfl

theorem elapsing (h : r.Recoded c r') (instant : Nat) :
    r'.elapsing instant = (r.elapsing instant).map c.move := by
  fun_induction Runner.elapsing r instant generalizing r' with
  | case1 r hn =>
    rw [Runner.elapsing, h.settle.nextWake?, hn, h.settling, List.map_append]
    rfl
  | case2 r wake hn hw ih =>
    have hlater : { r.settle.runner with now := wake }.Recoded c
        { r'.settle.runner with now := wake } := by
      obtain ⟨cancelled, heq, hc⟩ := h.settle
      exact ⟨cancelled, by rw [heq], hc⟩
    rw [Runner.elapsing, h.settle.nextWake?, hn, h.settling, h.now]
    dsimp only
    rw [if_pos hw, ih hlater, List.map_append]
    rfl
  | case3 r wake hn hw =>
    rw [Runner.elapsing, h.settle.nextWake?, hn, h.settling, h.now]
    dsimp only
    rw [if_neg hw, List.map_append]
    rfl

/-- While time passes, the same is said and reported, up to the recoding. -/
theorem elapse (h : r.Recoded c r') (instant : Nat) :
    (r'.elapse instant).endings =
        (r.elapse instant).endings.map (fun (token, report) => (c.token token, report)) ∧
      (r'.elapse instant).events = (r.elapse instant).events ∧
      (r.elapse instant).runner.Recoded c (r'.elapse instant).runner := by
  obtain ⟨hrunner, hoccasions⟩ := h.afterAll (r.elapsing instant)
  have hending : ∀ o : Occasion σ, (c.occasion o).happening.ending?.toList =
      o.happening.ending?.toList.map fun (token, report) => (c.token token, report) := by
    rintro ⟨now, happening, events⟩
    cases happening with
    | wentOn token story report? => cases report? <;> rfl
    | _ => rfl
  rw [← passage_elapsing, ← passage_elapsing, h.elapsing]
  refine ⟨?_, ?_, hrunner⟩
  · simp only [passage, endings, hoccasions, List.flatMap_map, hending, List.map_flatMap]
  · simp only [passage, told, hoccasions, List.flatMap_map]
    rfl

/-! ### Whatever is done with both -/

theorem movesOf (h : r.Recoded c r') (doing : Doing σ) :
    r'.movesOf (c.doing doing) = (r.movesOf doing).map c.move := by
  cases doing with
  | move move => rfl
  | run program =>
    simp only [Recoding.doing, Runner.movesOf, (h.start program).answer]
    cases (r.start program).answer <;> rfl
  | elapse instant => exact h.elapsing instant

theorem does (h : r.Recoded c r') (doing : Doing σ) :
    (r.does doing).Recoded c (r'.does (c.doing doing)) := by
  rw [Runner.does, Runner.does, h.movesOf]
  exact (h.afterAll _).1

omit [Surface σ] in
theorem ignores (h : r.Recoded c r') (doing : Doing σ) :
    r'.ignores (c.doing doing) = r.ignores doing := by
  have hask : (c.doing doing).asksForRun = doing.asksForRun ∧
      (c.doing doing).asksToStop = doing.asksToStop := by
    cases doing with
    | move move =>
      cases move with
      | command command => cases command <;> exact ⟨rfl, rfl⟩
      | _ => exact ⟨rfl, rfl⟩
    | _ => exact ⟨rfl, rfl⟩
  rw [Runner.ignores, Runner.ignores, hask.1, hask.2, h.running, h.cancelRequested]

/-- The same comes of a doing, up to the recoding. -/
theorem scene (h : r.Recoded c r') (doing : Doing σ) :
    r'.scene (c.doing doing) = c.scene (r.scene doing) := by
  have hdoes := h.does doing
  simp only [Runner.scene, Recoding.scene, h.ignores, h.reply?, h.movesOf, (h.afterAll _).2,
    hdoes.surface, hdoes.now, hdoes.running, hdoes.cancelRequested]

/-- **Recoding.** Whatever is done with both comes to the same, up to the recoding. -/
theorem course (h : r.Recoded c r') (doings : List (Doing σ)) :
    r'.course (doings.map c.doing) = (r.course doings).map c.scene := by
  induction doings generalizing r r' with
  | nil => rfl
  | cons doing doings ih =>
    rw [List.map_cons, Runner.course, Runner.course, h.scene, ih (h.does doing), List.map_cons]

end Runner.Recoded

end FormRehearsal
