/-
# Runners before audiences

A runner that publishes what it says as it goes, before whoever listens, and passes over refusals. It
airs what the runner says that only lists its events, and comes to the same; so an audience has no
influence on what is answered and reported, on the surface and the instants, and on what the
runner attempts to publish.

* `Run.airs_advance`, `Runner.airs_elapse` : what a runner airs, and what it comes to;
* `unobserved_course` : it is the same before any two audiences.
-/
import FormRehearsal.Proofs.Channel.Audience
import FormRehearsal.Proofs.Runner.Course

namespace FormRehearsal

open Aloud

variable {σ : Type}

/-! ## Runs that are aloud -/

namespace Run

/-- Ends a run, aloud. -/
def concludeAloud (run : Run) (now : Nat) (outcome : Outcome) (s : σ) : Aloud (RunState × σ) := do
  report now (.status outcome.statusText)
  report now .idleBadge
  return (.ended ⟨outcome, run.total, run.done, run.startedAt, now⟩, s)

variable [Surface σ]

/-- Carries out the steps of a program, aloud. -/
def carryOnAloud (m : Moment) (run : Run) : Program → σ → Aloud (RunState × σ)
  | [], s => run.concludeAloud m.now .completed s
  | raw :: rest, s =>
    if m.stopping then run.concludeAloud m.now (.ofError .cancelled) s
    else
      match raw.kind with
      | .error e => run.concludeAloud m.now (.ofError e) s
      | .ok kind => do
        report m.now (stepLine (run.done.length + 1) run.total raw.actionName)
        match Step.decode kind raw with
        | .error e => run.concludeAloud m.now (.ofError (.action e)) s
        | .ok step =>
          match (step.start m).run s with
          | (.error e, s) => run.concludeAloud m.now (.ofError (.action e)) s
          | (.ok .finished, s) => carryOnAloud m (run.complete step m.now m.now) rest s
          | (.ok (.waiting wake hold), s) =>
            return (.running { run with stage := .waiting step m.now wake hold rest }, s)

/-- Goes on with a run, aloud. -/
def advanceAloud (m : Moment) (run : Run) (s : σ) : Aloud (RunState × σ) :=
  match run.stage with
  | .claimed program => do
    report m.now .runningBadge
    report m.now (.status "Automation running...")
    carryOnAloud m { run with startedAt := m.now } program s
  | .waiting step since wake hold rest =>
    if m.resumes wake then
      match (hold.resume m).run s with
      | (.error e, s) => run.concludeAloud m.now (.ofError (.action e)) s
      | (.ok .finished, s) => carryOnAloud m (run.complete step since m.now) rest s
      | (.ok (.waiting wake hold), s) =>
        return (.running { run with stage := .waiting step since wake hold rest }, s)
    else if m.interrupts then
      run.concludeAloud m.now (.ofError (.action (.interrupted stoppedByUser))) s
    else return (.running run, s)

end Run

/-- A computation comes to what a segment comes to, and tells its events. -/
abbrev Segment.Aired (g : Segment σ) (now : Nat) (x : Aloud (RunState × σ)) : Prop :=
  x.Airs (g.state, g.surface) (StatusEvent.toldAt now g.events)

/-- One more event before a segment. -/
theorem Segment.Aired.after {g : Segment σ} {now : Nat} {x : Aloud (RunState × σ)}
    (event : StatusEvent) (h : g.Aired now x) :
    (g.after [event]).Aired now (do report now event; x) := (Airs.report now event).bind h

namespace Run

theorem airs_conclude (run : Run) (now : Nat) (outcome : Outcome) (s : σ) :
    (run.conclude now outcome s).Aired now (run.concludeAloud now outcome s) :=
  (Airs.report now _).bind ((Airs.report now _).bind (.pure _))

variable [Surface σ] (m : Moment)

theorem airs_carryOn (run : Run) (program : Program) (s : σ) :
    (carryOn m run program s).Aired m.now (carryOnAloud m run program s) := by
  induction program generalizing run s with
  | nil => exact airs_conclude run m.now .completed s
  | cons raw rest ih =>
    simp only [carryOn, carryOnAloud]
    split
    · exact airs_conclude run m.now _ s
    · cases raw.kind with
      | error e => exact airs_conclude run m.now _ s
      | ok kind =>
        refine Segment.Aired.after (stepLine (run.done.length + 1) run.total raw.actionName) ?_
        cases Step.decode kind raw with
        | error e => exact airs_conclude run m.now _ s
        | ok step =>
          dsimp only
          rcases (step.start m).run s with ⟨e | _ | ⟨wake, hold⟩, left⟩
          · exact airs_conclude run m.now _ left
          · exact ih _ left
          · exact .pure _

/-- A run that goes on tells the events of its segment. -/
theorem airs_advance (run : Run) (s : σ) :
    (run.advance m s).Aired m.now (run.advanceAloud m s) := by
  obtain ⟨token, total, done, startedAt, stage⟩ := run
  cases stage with
  | claimed program =>
    exact (Airs.report m.now _).bind ((Airs.report m.now _).bind (airs_carryOn m _ program s))
  | waiting step since wake hold rest =>
    simp only [advance, advanceAloud]
    split
    · rcases (hold.resume m).run s with ⟨e | _ | ⟨later, more⟩, left⟩
      · exact airs_conclude _ m.now _ left
      · exact airs_carryOn m _ rest left
      · exact .pure _
    · split
      · exact airs_conclude _ m.now _ s
      · exact .pure _

end Run

/-! ## Runners that are aloud -/

/-- What comes of a doing, besides what is said: what is answered, the runs that end, and the runner
after it. -/
structure Aftermath (σ : Type) where
  reply? : Option Reply
  endings : Endings
  runner : Runner σ

namespace Runner

/-- Claims a run, aloud. -/
def startAloud (r : Runner σ) (program : Program) : Aloud (Except RunError Token × Runner σ) :=
  if r.running then do
    report r.now (.status RunError.alreadyRunning.message)
    return (.error .alreadyRunning, r)
  else
    let r := { r with running := true }.renew
    return (.ok r.token, { r with runs := r.runs ++ [Run.claim r.token program r.now] })

/-- Asks the run in progress to stop, aloud. -/
def stopAloud (r : Runner σ) : Aloud (Bool × Runner σ) := do
  let stopped := if r.running then { r with cancelled := r.token :: r.cancelled } else r
  report r.now (.status "Stopping automation...")
  return (r.running, stopped)

/-- Does what a command asks for, aloud. -/
def handleAloud (r : Runner σ) : Command → Aloud (Ack × Runner σ)
  | .start steps => do
    let (answer, r) ← r.startAloud steps
    return (match answer with
      | .ok _ => .accepted
      | .error _ => .alreadyRunning, r)
  | .stop => do
    let (_, r) ← r.stopAloud
    return (.accepted, r)

variable [Surface σ]

/-- Goes on with the run of a token, aloud. -/
def advanceAloud (r : Runner σ) (token : Token) : Aloud (Endings × Runner σ) :=
  match r.find? token with
  | none => return ([], r)
  | some run => do
    match ← run.advanceAloud (r.moment token) r.surface with
    | (.running next, surface) =>
      return ([], { r with
        surface
        runs := r.runs.map fun other => if other.token = token then next else other })
    | (.ended report, surface) =>
      return ([(token, report)],
        { r with surface, runs := r.runs.filter (·.token ≠ token) }.release)

/-- Goes on with the runs of some tokens, aloud. -/
def advanceAllAloud (r : Runner σ) : List Token → Aloud (Endings × Runner σ)
  | [] => return ([], r)
  | token :: tokens => do
    let (ended, r) ← r.advanceAloud token
    let (others, r) ← r.advanceAllAloud tokens
    return (ended ++ others, r)

/-- Goes on with whatever is due, aloud. -/
def settleAloud (r : Runner σ) : Aloud (Endings × Runner σ) := do
  let (ended, r) ← r.advanceAllAloud (r.runs.map (·.token))
  (List.replicate r.clearings StatusEvent.idleBadge).forM (report r.now)
  return (ended, { r with clearings := 0 })

/-- Lets time pass up to an instant, aloud. -/
def elapseAloud (r : Runner σ) (instant : Nat) : Aloud (Endings × Runner σ) := do
  let (ended, settled) ← r.settleAloud
  match settled.nextWake? with
  | none => return (ended, { settled with now := max r.now instant })
  | some wake =>
    if r.now < wake ∧ wake ≤ instant then
      let (later, r) ← { settled with now := wake }.elapseAloud instant
      return (ended ++ later, r)
    else return (ended, { settled with now := max r.now instant })
termination_by instant - r.now

end Runner

/-- A computation comes to what a reaction comes to, and tells its events. -/
abbrev Reaction.Aired {α : Type} (a : Reaction σ α) (now : Nat) (x : Aloud (α × Runner σ)) : Prop :=
  x.Airs (a.answer, a.runner) (StatusEvent.toldAt now a.events)

namespace Runner

theorem airs_start (r : Runner σ) (program : Program) :
    (r.start program).Aired r.now (r.startAloud program) := by
  unfold start startAloud
  split
  · exact (Airs.report r.now _).bind (.pure _)
  · exact .pure _

theorem airs_stop (r : Runner σ) : r.stop.Aired r.now r.stopAloud :=
  (Airs.report r.now _).bind (.pure _)

theorem airs_handle (r : Runner σ) (command : Command) :
    (r.handle command).Aired r.now (r.handleAloud command) := by
  cases command with
  | start steps =>
    exact (r.airs_start steps).andThen (.pure _)
  | stop => exact r.airs_stop.andThen (.pure _)

variable [Surface σ]

/-- What a run comes to for its runner. -/
theorem airs_advance (r : Runner σ) (token : Token) :
    (r.advance token).Aired r.now (r.advanceAloud token) := by
  unfold advance advanceAloud
  cases r.find? token with
  | none => exact .pure _
  | some run =>
    have hrun := Run.airs_advance (r.moment token) run r.surface
    dsimp only
    generalize run.advance (r.moment token) r.surface = g at hrun ⊢
    obtain ⟨events, next | report, surface⟩ := g
    · exact hrun.andThen (.pure _)
    · exact hrun.andThen (.pure _)

theorem airs_advanceAll (r : Runner σ) (tokens : List Token) :
    (r.advanceAll tokens).Aired r.now (r.advanceAllAloud tokens) := by
  induction tokens generalizing r with
  | nil => exact .pure _
  | cons token tokens ih =>
    have hrest := ih (r.advance token).runner
    rw [now_advance] at hrest
    rw [Reaction.Aired, advanceAll, StatusEvent.toldAt, List.map_append]
    exact (r.airs_advance token).bind (hrest.andThen (.pure _))

theorem airs_settle (r : Runner σ) : r.settle.Aired r.now r.settleAloud := by
  have hall := r.airs_advanceAll (r.runs.map (·.token))
  have hcleared := Airs.reports r.now
    (List.replicate (r.advanceAll (r.runs.map (·.token))).runner.clearings .idleBadge)
  rw [Reaction.Aired, settle, StatusEvent.toldAt, List.map_append]
  refine hall.bind ?_
  dsimp only
  rw [now_advanceAll]
  exact hcleared.andThen (.pure _)

/-- A runner airs what it says while time passes. -/
theorem airs_elapse (r : Runner σ) (instant : Nat) :
    (r.elapseAloud instant).Airs ((r.elapse instant).endings, (r.elapse instant).runner)
      (r.elapse instant).events := by
  fun_induction elapse r instant with
  | case1 r a events last hn =>
    rw [elapseAloud]
    refine r.airs_settle.andThen ?_
    dsimp only
    rw [show r.settle.runner.nextWake? = none from hn]
    exact .pure _
  | case2 r a events wake hn hw b ih =>
    rw [elapseAloud]
    refine r.airs_settle.bind ?_
    dsimp only
    rw [show r.settle.runner.nextWake? = some wake from hn]
    dsimp only
    rw [if_pos hw]
    exact ih.andThen (.pure _)
  | case3 r a events last wake hn hw =>
    rw [elapseAloud]
    refine r.airs_settle.andThen ?_
    dsimp only
    rw [show r.settle.runner.nextWake? = some wake from hn]
    dsimp only
    rw [if_neg hw]
    exact .pure _

/-! ## What is done with a runner, aloud -/

/-- Makes a move, aloud. -/
def moveAloud (r : Runner σ) : Move σ → Aloud (Aftermath σ)
  | .start program => do
    let (answer, r) ← r.startAloud program
    return ⟨some (.claim answer), [], r⟩
  | .stop => do
    let (running, r) ← r.stopAloud
    return ⟨some (.stop running), [], r⟩
  | .command command => do
    let (ack, r) ← r.handleAloud command
    return ⟨some (.ack ack), [], r⟩
  | .goOn token => do
    let (ended, r) ← r.advanceAloud token
    return ⟨none, ended, r⟩
  | .abandon token attended => return ⟨none, [], r.abandon token attended⟩
  | .clear => do
    if r.clearings = 0 then pure () else report r.now .idleBadge
    return ⟨none, [], { r with clearings := r.clearings - 1 }⟩
  | .pass instant => return ⟨none, [], { r with now := max r.now instant }⟩
  | .change f => return ⟨none, [], { r with surface := f r.surface }⟩

/-- Does something with a runner, aloud. -/
def doAloud (r : Runner σ) : Doing σ → Aloud (Aftermath σ)
  | .move move => r.moveAloud move
  | .run program => do
    let (answer, r) ← r.startAloud program
    match answer with
    | .ok token =>
      let (ended, r) ← r.advanceAloud token
      return ⟨some (.claim answer), ended, r⟩
    | .error _ => return ⟨some (.claim answer), [], r⟩
  | .elapse instant => do
    let (ended, r) ← r.elapseAloud instant
    return ⟨none, ended, r⟩

/-- Does some things with a runner, one after another, aloud. -/
def courseAloud (r : Runner σ) : List (Doing σ) → Aloud (List (Aftermath σ))
  | [] => return []
  | doing :: doings => do
    let aftermath ← r.doAloud doing
    let aftermaths ← aftermath.runner.courseAloud doings
    return aftermath :: aftermaths

/-- What comes of a doing of a runner that lists what it says. -/
def aftermath (r : Runner σ) (doing : Doing σ) : Aftermath σ :=
  ⟨r.reply? doing, endings (r.occasions (r.movesOf doing)), r.does doing⟩

/-- What comes of some doings, one after another. -/
def aftermaths (r : Runner σ) : List (Doing σ) → List (Aftermath σ)
  | [] => []
  | doing :: doings => r.aftermath doing :: (r.does doing).aftermaths doings

theorem airs_move (r : Runner σ) (move : Move σ) :
    (r.moveAloud move).Airs
      ⟨r.reply? (.move move), (r.move move).answer.ending?.toList, (r.move move).runner⟩
      (StatusEvent.toldAt r.now (r.move move).events) := by
  cases move with
  | start program =>
    have hnone : (Happening.ofStart (σ := σ) program (r.start program).answer).ending? = none := by
      cases (r.start program).answer <;> rfl
    rw [Runner.move, hnone]
    exact (r.airs_start program).andThen (.pure _)
  | stop => exact r.airs_stop.andThen (.pure _)
  | command command =>
    have hnone : (r.move (.command command)).answer.ending? = none := by
      cases command with
      | start program =>
        rw [Runner.move]
        dsimp only
        split <;> rfl
      | stop => rfl
    rw [hnone]
    cases command <;> exact (r.airs_handle _).andThen (.pure _)
  | goOn token =>
    rw [ending?_goOn]
    exact (r.airs_advance token).andThen (.pure _)
  | clear =>
    rw [moveAloud, Runner.move]
    by_cases hc : r.clearings = 0
    · rw [if_pos hc, if_pos hc]
      exact .pure _
    · rw [if_neg hc, if_neg hc]
      exact (Airs.report r.now _).andThen (.pure _)
  | abandon token attended => exact .pure _
  | pass instant => exact .pure _
  | change f => exact .pure _

/-- A runner airs what it says while something is done with it. -/
theorem airs_do (r : Runner σ) (doing : Doing σ) :
    (r.doAloud doing).Airs (r.aftermath doing) (told (r.scene doing).occasions) := by
  cases doing with
  | move move =>
    simpa [doAloud, aftermath, scene, does, movesOf, occasions, afterAll, told, endings]
      using r.airs_move move
  | run program =>
    have hstart := r.airs_start program
    cases hanswer : (r.start program).answer with
    | error e =>
      have hmoves : r.movesOf (.run program) = [.start program] := by rw [movesOf, hanswer]
      have haftermath : r.aftermath (.run program) =
          ⟨some (.claim (.error e)), [], (r.start program).runner⟩ := by
        rw [aftermath, does, hmoves, reply?, hanswer]
        simp [endings, occasions, Runner.move, hanswer, Happening.ofStart, Happening.ending?,
          afterAll]
      have hsaid : told (r.scene (.run program)).occasions =
          StatusEvent.toldAt r.now (r.start program).events := by
        rw [scene, hmoves]
        simp [told, occasions, Runner.move]
      rw [Reaction.Aired, hanswer] at hstart
      rw [haftermath, hsaid]
      exact hstart.andThen (.pure _)
    | ok token =>
      have hmoves : r.movesOf (.run program) = [.start program, .goOn token] := by
        rw [movesOf, hanswer]
      have hadvance := (r.start program).runner.airs_advance token
      have haftermath : r.aftermath (.run program) =
          ⟨some (.claim (.ok token)), ((r.start program).runner.advance token).answer,
            ((r.start program).runner.advance token).runner⟩ := by
        rw [aftermath, does, hmoves, reply?, hanswer, ← ending?_goOn]
        simp [endings, occasions, Runner.move, hanswer, Happening.ofStart, Happening.ending?,
          afterAll]
      have hsaid : told (r.scene (.run program)).occasions =
          StatusEvent.toldAt r.now (r.start program).events ++
            StatusEvent.toldAt (r.start program).runner.now
              ((r.start program).runner.advance token).events := by
        rw [scene, hmoves]
        simp [told, occasions, Runner.move]
      rw [Reaction.Aired, hanswer] at hstart
      rw [haftermath, hsaid]
      exact hstart.bind (hadvance.andThen (.pure _))
  | elapse instant =>
    have hpassage := r.passage_elapsing instant
    have helapse := r.airs_elapse instant
    rw [← hpassage] at helapse
    exact helapse.andThen (.pure _)

/-- A runner airs what it says in a course. -/
theorem airs_course (r : Runner σ) (doings : List (Doing σ)) :
    (r.courseAloud doings).Airs (r.aftermaths doings)
      ((r.course doings).flatMap fun scene => told scene.occasions) := by
  induction doings generalizing r with
  | nil => exact .pure _
  | cons doing doings ih => exact (r.airs_do doing).bind ((ih (r.does doing)).andThen (.pure _))

end Runner

/-! ## Before any two audiences -/

section

variable [Surface σ] (r : Runner σ)

/-- **Observers.** Whatever is done with a runner that publishes as it goes, and whoever listens: with
channels of any capacity, with subscribers and bridges that come, read, fall behind and leave at any
time, or with nobody at all, the answers, the reports, the runner with its surface and its clock and
what it attempts to publish, at which instants, are the same. They are what comes of a runner that
only lists what it says. The runtime is that of the runner, whoever listens: it makes the same of a
stop request that comes when a wait is over. -/
theorem unobserved_course (doings : List (Doing σ)) (a b : Audience) :
    let before (audience : Audience) := (r.courseAloud doings).run ⟨audience, []⟩
    (before a).1 = (before b).1 ∧ (before a).2.attempted = (before b).2.attempted ∧
      (before a).1 = r.aftermaths doings ∧
      (before a).2.attempted = (r.course doings).flatMap fun scene => told scene.occasions := by
  intro before
  have independent : ∀ audience, (before audience).1 = r.aftermaths doings ∧
      (before audience).2.attempted =
        (r.course doings).flatMap fun scene => told scene.occasions :=
    fun audience => (r.airs_course doings).independent audience
  obtain ⟨haftermaths, hattempted⟩ := independent a
  obtain ⟨haftermaths', hattempted'⟩ := independent b
  exact ⟨haftermaths.trans haftermaths'.symm, hattempted.trans hattempted'.symm, haftermaths,
    hattempted⟩

end

end FormRehearsal
