/-
# Runners whose tokens are renumbered

The serial of a token only tells claims apart. A runner whose tokens all have a higher serial than
those of another one, and which agrees with it otherwise, does the same: whatever is done to both,
the same is said, reported and done to the surface.

* `Run.advance_raise`, `Run.account_raise` : what a run does does not depend on its token;
* `Recoded.behavesLike` : so runners that are renumbered behave alike;
* `move_raising_zero`, `scene_raising_zero` : raised by nothing, tokens are the same.
-/
import FormRehearsal.Proofs.Runner.Recoding

namespace FormRehearsal

variable {σ : Type}

/-! ## Raised tokens -/

/-- The run under the raised token. -/
def Run.raise (k : Nat) (run : Run) : Run := { run with token := run.token.raise k }

/-- A happening, under raised tokens. -/
def Happening.raise (k : Nat) : Happening σ → Happening σ
  | claimed token program => claimed (token.raise k) program
  | wentOn token story report? => wentOn (token.raise k) story report?
  | abandoned token => abandoned (token.raise k)
  | refused => refused
  | stopAsked running => stopAsked running
  | elsewhere => elsewhere

/-- An occasion, under raised tokens. -/
def Occasion.raise (k : Nat) (o : Occasion σ) : Occasion σ :=
  { o with happening := o.happening.raise k }

/-- A move, under raised tokens. -/
def Move.raise (k : Nat) : Move σ → Move σ
  | goOn token => goOn (token.raise k)
  | abandon token attended => abandon (token.raise k) attended
  | move => move

/-! ## Runs under raised tokens -/

namespace Run

variable [Surface σ] (k : Nat) (m : Moment)

theorem carryOn_raise (run : Run) (program : Program) (s : σ) :
    carryOn m (run.raise k) program s = (carryOn m run program s).mapRun (raise k) := by
  induction program generalizing run s with
  | nil => rfl
  | cons raw rest ih =>
    cases beginning m raw s with
    | stopped hs => simp only [carryOn, hs]; rfl
    | unknown e hs hk => simp only [carryOn, hs, hk]; rfl
    | undecodable kind e hs hk hd => simp only [carryOn, hs, hk, hd]; rfl
    | failed kind step e left hs hk hd hr => simp only [carryOn, hs, hk, hd, hr]; rfl
    | waiting kind step wake hold left hs hk hd hr => simp only [carryOn, hs, hk, hd, hr]; rfl
    | finished kind step left hs hk hd hr =>
      have hrest := ih (run.complete step m.now m.now) left
      simp only [carryOn, hs, hk, hd, hr]
      exact congrArg (Segment.after _) hrest

/-- What a run comes to when it goes on does not depend on its token. -/
theorem advance_raise (run : Run) (s : σ) :
    (run.raise k).advance m s = (run.advance m s).mapRun (raise k) := by
  obtain ⟨token, total, done, startedAt, stage⟩ := run
  cases stage with
  | claimed program =>
    exact congrArg (Segment.after opening) (carryOn_raise k m ⟨token, total, done, m.now, _⟩ _ s)
  | waiting step since wake hold rest =>
    simp only [advance, raise]
    by_cases hw : m.resumes wake = true
    · rw [if_pos hw, if_pos hw]
      rcases (hold.resume m).run s with ⟨e | _ | ⟨later, more⟩, left⟩
      · rfl
      · exact carryOn_raise k m (complete ⟨token, total, done, startedAt, _⟩ step since m.now) rest
          left
      · rfl
    · rw [if_neg hw, if_neg hw]
      split <;> rfl

theorem carryOnAccount_raise (run : Run) (program : Program) (s : σ) :
    carryOnAccount m (run.raise k) program s = carryOnAccount m run program s := by
  induction program generalizing run s with
  | nil => rfl
  | cons raw rest ih =>
    have hrest : ∀ step now s, carryOnAccount m ((run.raise k).complete step now now) rest s =
        carryOnAccount m (run.complete step now now) rest s :=
      fun step now s => ih (run.complete step now now) s
    simp only [carryOnAccount, hrest]
    rfl

/-- What is told of a run does not depend on its token. -/
theorem account_raise (run : Run) (s : σ) : (run.raise k).account m s = run.account m s := by
  obtain ⟨token, total, done, startedAt, stage⟩ := run
  cases stage with
  | claimed program =>
    exact congrArg (_ :: ·) (carryOnAccount_raise k m ⟨token, total, done, m.now, _⟩ program s)
  | waiting step since wake hold rest =>
    simp only [account, raise]
    by_cases hw : m.resumes wake = true
    · rw [if_pos hw, if_pos hw]
      rcases (hold.resume m).run s with ⟨e | _ | ⟨later, more⟩, left⟩
      · rfl
      · exact congrArg (_ :: ·) (carryOnAccount_raise k m
          (complete ⟨token, total, done, startedAt, _⟩ step since m.now) rest left)
      · rfl
    · rw [if_neg hw, if_neg hw]
      rfl

end Run

/-! ## Raising tokens as a recoding -/

namespace Recoding

/-- Tokens are raised, and programs stay as they are. -/
def raising (k : Nat) : Recoding where
  shift := k
  program := id
  run := Run.raise k
  token_run _ := rfl
  run_claim _ _ _ := rfl
  wakesAt_run _ _ := rfl
  advance_run m x s := Run.advance_raise k m x s
  account_run m x s := Run.account_raise k m x s

theorem happening_raising (k : Nat) :
    (raising k).happening = (Happening.raise k : Happening σ → Happening σ) := by
  funext happening
  cases happening <;> rfl

theorem occasion_raising (k : Nat) :
    (raising k).occasion = (Occasion.raise k : Occasion σ → Occasion σ) := by
  funext o
  rw [Recoding.occasion, happening_raising]
  rfl

theorem move_raising (k : Nat) : (raising k).move = (Move.raise k : Move σ → Move σ) := by
  funext move
  cases move with
  | command command => cases command <;> rfl
  | _ => rfl

/-! ### Tokens that are not raised -/

theorem shift_raising (k : Nat) : (raising k).shift = k := rfl

@[simp] theorem token_raising_zero : (raising 0).token = id := by
  funext token
  simp [Recoding.token, shift_raising, Token.raise]

@[simp] theorem run_raising_zero : (raising 0).run = id := by
  funext run
  simp [raising, Run.raise, Token.raise]

@[simp] theorem program_raising (k : Nat) : (raising k).program = id := rfl

@[simp] theorem move_raising_zero : (raising 0).move = (id : Move σ → Move σ) := by
  rw [move_raising]
  funext move
  cases move <;> simp [Move.raise, Token.raise]

@[simp] theorem happening_raising_zero :
    (raising 0).happening = (id : Happening σ → Happening σ) := by
  rw [happening_raising]
  funext happening
  cases happening <;> simp [Happening.raise, Token.raise]

@[simp] theorem occasion_raising_zero :
    (raising 0).occasion = (id : Occasion σ → Occasion σ) := by
  funext o
  simp [Recoding.occasion]

@[simp] theorem doing_raising_zero : (raising 0).doing = (id : Doing σ → Doing σ) := by
  funext doing
  cases doing <;> simp [Recoding.doing]

@[simp] theorem scene_raising_zero : (raising 0).scene = (id : Scene σ → Scene σ) := by
  have reply : (raising 0).reply = id := by
    funext reply
    cases reply with
    | claim answer => cases answer <;> simp [Recoding.reply, Except.map]
    | _ => rfl
  funext scene
  simp [Recoding.scene, reply]

end Recoding

/-! ## Runners that behave alike -/

/-- Whatever is done to a runner comes to the same as with another one, up to the tokens: the same
happens at the same instants, the same is said and the same is done to the surface, also when the
runner is left alone for a while. -/
structure Runner.BehavesLike [Surface σ] (k : Nat) (r' r : Runner σ) : Prop where
  occasions : ∀ moves, r'.occasions (moves.map (Move.raise k)) =
    (r.occasions moves).map (Occasion.raise k)
  state : ∀ moves, let after' := r'.afterAll (moves.map (Move.raise k))
    let after := r.afterAll moves
    after'.surface = after.surface ∧ after'.now = after.now ∧ after'.running = after.running ∧
      after'.cancelRequested = after.cancelRequested
  elapse : ∀ moves t, let passage' := (r'.afterAll (moves.map (Move.raise k))).elapse t
    let passage := (r.afterAll moves).elapse t
    passage'.endings = passage.endings.map (fun (token, report) => (token.raise k, report)) ∧
      passage'.events = passage.events ∧ passage'.runner.surface = passage.runner.surface

/-- Runners that are renumbered behave alike. -/
theorem Runner.Recoded.behavesLike [Surface σ] {k : Nat} {r r' : Runner σ}
    (h : r.Recoded (.raising k) r') : r'.BehavesLike k r := by
  have hafter : ∀ moves, (r.afterAll moves).Recoded (.raising k)
      (r'.afterAll (moves.map (Move.raise k))) := by
    intro moves
    rw [← Recoding.move_raising]
    exact (h.afterAll moves).1
  constructor
  case occasions =>
    intro moves
    rw [← Recoding.move_raising, ← Recoding.occasion_raising]
    exact (h.afterAll moves).2
  case state =>
    intro moves
    exact ⟨(hafter moves).surface, (hafter moves).now, (hafter moves).running,
      (hafter moves).cancelRequested⟩
  case elapse =>
    intro moves t
    obtain ⟨hendings, hevents, hrunner⟩ := (hafter moves).elapse t
    exact ⟨hendings, hevents, hrunner.surface⟩

end FormRehearsal
