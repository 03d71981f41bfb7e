/-
# What steps do not declare

What a step holds besides its action and the fields that its kind declares makes no difference to a
run: a run of some steps does what a run of their declared forms does. So with steps that agree, the
same is answered, said, reported and done to the surface, whatever is done with the runner.

* `Run.advance_declared`, `Run.account_declared` : a run does what its declared form does;
* `Recoding.declared` : dropping what is not declared is a recoding;
* `undeclared_course` : what is done with a runner comes to the same with programs that agree.
-/
import FormRehearsal.Page.Fixture
import FormRehearsal.Proofs.Run.Declared
import FormRehearsal.Proofs.Runner.Recoding
import Mathlib.Data.List.Forall2

namespace FormRehearsal

/-! ## Programs and runs -/

/-- The declared forms of the steps of a program. -/
def Program.declared (program : Program) : Program := program.map Instruction.declared

/-- Programs of the same length whose steps agree, one by one. -/
def Program.Agrees (a b : Program) : Prop := List.Forall₂ Instruction.Agrees a b

theorem Program.Agrees.declared_eq {a b : Program} (h : a.Agrees b) : a.declared = b.declared := by
  induction h with
  | nil => rfl
  | cons hstep _ ih =>
    rw [declared, declared, List.map_cons, List.map_cons, hstep.declared_eq]
    exact congrArg _ ih

/-- Where a run has come to, with the declared forms of its steps. -/
def Stage.declared : Stage → Stage
  | claimed program => claimed program.declared
  | waiting step since wake hold rest => waiting step since wake hold rest.declared

namespace Run

/-- A run of the declared forms of its steps. -/
def declared (run : Run) : Run := { run with stage := run.stage.declared }

theorem declared_claim (token : Token) (program : Program) (now : Nat) :
    (claim token program now).declared = claim token program.declared now := by
  simp [declared, claim, Stage.declared, Program.declared]

variable {σ : Type} [Surface σ] (m : Moment)

theorem carryOn_declared (run : Run) (program : Program) (s : σ) :
    carryOn m run.declared program.declared s = (carryOn m run program s).mapRun declared := by
  induction program generalizing run s with
  | nil => rfl
  | cons raw rest ih =>
    show carryOn m run.declared (raw.declared :: Program.declared rest) s = _
    cases beginning m raw s with
    | stopped hs => simp only [carryOn, hs]; rfl
    | unknown e hs hk => simp only [carryOn, hs, Instruction.kind_declared, hk]; rfl
    | undecodable kind e hs hk hd =>
      simp only [carryOn, hs, Instruction.kind_declared, Instruction.actionName_declared, hk,
        Instruction.decode_declared hk, hd]
      rfl
    | failed kind step e left hs hk hd hr =>
      simp only [carryOn, hs, Instruction.kind_declared, Instruction.actionName_declared, hk,
        Instruction.decode_declared hk, hd, hr]
      rfl
    | waiting kind step wake hold left hs hk hd hr =>
      simp only [carryOn, hs, Instruction.kind_declared, Instruction.actionName_declared, hk,
        Instruction.decode_declared hk, hd, hr]
      rfl
    | finished kind step left hs hk hd hr =>
      have hrest := ih (run.complete step m.now m.now) left
      simp only [carryOn, hs, Instruction.kind_declared, Instruction.actionName_declared, hk,
        Instruction.decode_declared hk, hd, hr]
      exact congrArg (Segment.after _) hrest

/-- What a run comes to when it goes on depends on the declared forms of its steps only. -/
theorem advance_declared (run : Run) (s : σ) :
    run.declared.advance m s = (run.advance m s).mapRun declared := by
  obtain ⟨token, total, done, startedAt, stage⟩ := run
  cases stage with
  | claimed program =>
    exact congrArg (Segment.after opening)
      (carryOn_declared m ⟨token, total, done, m.now, .claimed program⟩ program s)
  | waiting step since wake hold rest =>
    simp only [advance, declared, Stage.declared]
    by_cases hw : m.resumes wake = true
    · rw [if_pos hw, if_pos hw]
      rcases (hold.resume m).run s with ⟨e | _ | ⟨later, more⟩, left⟩
      · rfl
      · exact carryOn_declared m (complete
          ⟨token, total, done, startedAt, .waiting step since wake hold rest⟩ step since m.now)
          rest left
      · rfl
    · rw [if_neg hw, if_neg hw]
      split <;> rfl

theorem carryOnAccount_declared (run : Run) (program : Program) (s : σ) :
    carryOnAccount m run.declared program.declared s = carryOnAccount m run program s := by
  induction program generalizing run s with
  | nil => rfl
  | cons raw rest ih =>
    show carryOnAccount m run.declared (raw.declared :: Program.declared rest) s = _
    have hrest : ∀ step now s,
        carryOnAccount m (run.declared.complete step now now) (Program.declared rest) s =
          carryOnAccount m (run.complete step now now) rest s :=
      fun step now s => ih (run.complete step now now) s
    simp only [carryOnAccount, Instruction.kind_declared, Instruction.actionName_declared]
    cases hk : raw.kind with
    | error e => rfl
    | ok kind =>
      simp only [Instruction.decode_declared hk, hrest]
      rfl

/-- What is told of a run depends on the declared forms of its steps only. -/
theorem account_declared (run : Run) (s : σ) : run.declared.account m s = run.account m s := by
  obtain ⟨token, total, done, startedAt, stage⟩ := run
  cases stage with
  | claimed program =>
    exact congrArg (_ :: ·) (carryOnAccount_declared m
      ⟨token, total, done, m.now, .claimed program⟩ program s)
  | waiting step since wake hold rest =>
    simp only [account, declared, Stage.declared]
    by_cases hw : m.resumes wake = true
    · rw [if_pos hw, if_pos hw]
      rcases (hold.resume m).run s with ⟨e | _ | ⟨later, more⟩, left⟩
      · rfl
      · exact congrArg (_ :: ·) (carryOnAccount_declared m (complete
          ⟨token, total, done, startedAt, .waiting step since wake hold rest⟩ step since m.now)
          rest left)
      · rfl
    · rw [if_neg hw, if_neg hw]
      rfl

end Run

/-! ## Dropping what is not declared -/

namespace Recoding

/-- Whatever is not declared is dropped, and tokens stay as they are. -/
def declared : Recoding where
  shift := 0
  program := Program.declared
  run := Run.declared
  token_run x := by simp [Run.declared, Token.raise]
  run_claim token program now := by rw [Run.declared_claim]; simp [Token.raise]
  wakesAt_run now x := by
    obtain ⟨token, total, done, startedAt, stage⟩ := x
    cases stage <;> rfl
  advance_run m x s := Run.advance_declared m x s
  account_run m x s := Run.account_declared m x s

theorem shift_declared : declared.shift = 0 := rfl

@[simp] theorem token_declared : declared.token = id := by
  funext token
  simp [Recoding.token, declared, Token.raise]

@[simp] theorem reply_declared : declared.reply = id := by
  funext reply
  cases reply with
  | claim answer => cases answer <;> simp [Recoding.reply, Except.map]
  | _ => rfl

end Recoding

/-! ## What is done with runners -/

variable {σ : Type}

/-- Doings that are the same, except that the programs of the runs that they ask for only agree. -/
inductive Doing.Agrees : Doing σ → Doing σ → Prop
  | run {a b : Program} (h : a.Agrees b) : Agrees (.run a) (.run b)
  | start {a b : Program} (h : a.Agrees b) : Agrees (.move (.start a)) (.move (.start b))
  | command {a b : Program} (h : a.Agrees b) :
    Agrees (.move (.command (.start a))) (.move (.command (.start b)))
  | same (doing : Doing σ) : Agrees doing doing

/-- Happenings that are the same, except for the programs of runs that are claimed. -/
inductive Happening.Same : Happening σ → Happening σ → Prop
  | claimed (token : Token) (a b : Program) : Same (.claimed token a) (.claimed token b)
  | same (happening : Happening σ) : Same happening happening

/-- Occasions at the same instant with the same happening and the same events. -/
structure Occasion.Same (a b : Occasion σ) : Prop where
  instant : a.instant = b.instant
  happening : a.happening.Same b.happening
  events : a.events = b.events

/-- Scenes in which the same is answered, the same happens at the same instants and the same is left.
-/
structure Scene.Same (a b : Scene σ) : Prop where
  vain : a.vain = b.vain
  reply? : a.reply? = b.reply?
  occasions : List.Forall₂ Occasion.Same a.occasions b.occasions
  surface : a.surface = b.surface
  now : a.now = b.now
  running : a.running = b.running
  cancelRequested : a.cancelRequested = b.cancelRequested

theorem Doing.Agrees.declared_eq {a b : Doing σ} (h : a.Agrees b) :
    Recoding.declared.doing a = Recoding.declared.doing b := by
  cases h with
  | run h => exact congrArg Doing.run h.declared_eq
  | start h => exact congrArg (fun program => Doing.move (.start program)) h.declared_eq
  | command h =>
    exact congrArg (fun program => Doing.move (.command (.start program))) h.declared_eq
  | same => rfl

/-- Lists are equal after a map if they agree one by one after it. -/
theorem forall₂_of_map_eq {α β : Type} {f : α → β} {R : α → α → Prop}
    (hR : ∀ a b, f a = f b → R a b) {as bs : List α} (h : as.map f = bs.map f) :
    List.Forall₂ R as bs := by
  rw [← List.forall₂_eq_eq_eq, List.forall₂_map_left_iff, List.forall₂_map_right_iff] at h
  exact h.imp hR

/-- Nothing but the programs of claimed runs is dropped from what happened. -/
theorem Recoding.happening_declared (happening : Happening σ) :
    declared.happening happening = happening ∨
      ∃ token program, happening = .claimed token program := by
  cases happening with
  | claimed token program => exact Or.inr ⟨token, program, rfl⟩
  | _ => left; simp [Recoding.happening]

/-- Happenings that are the same when what is not declared is dropped. -/
theorem Happening.Same.of_declared {a b : Happening σ}
    (h : Recoding.declared.happening a = Recoding.declared.happening b) : a.Same b := by
  rcases Recoding.happening_declared a with ha | ⟨token, program, rfl⟩ <;>
    rcases Recoding.happening_declared b with hb | ⟨token', program', rfl⟩
  · rw [ha, hb] at h
    rw [h]
    exact .same b
  · rw [ha] at h
    rw [h]
    simp only [Recoding.happening, Recoding.token_declared, id_eq]
    exact .claimed token' _ program'
  · rw [hb] at h
    rw [← h]
    simp only [Recoding.happening, Recoding.token_declared, id_eq]
    exact .claimed token program _
  · simp only [Recoding.happening, Recoding.token_declared, id_eq, Happening.claimed.injEq] at h
    rw [h.1]
    exact .claimed token' program program'

theorem Occasion.Same.of_declared {a b : Occasion σ}
    (h : Recoding.declared.occasion a = Recoding.declared.occasion b) : a.Same b := by
  obtain ⟨now, happening, events⟩ := a
  obtain ⟨now', happening', events'⟩ := b
  simp only [Recoding.occasion, Occasion.mk.injEq] at h
  exact ⟨h.1, .of_declared h.2.1, h.2.2⟩

theorem Scene.Same.of_declared {a b : Scene σ}
    (h : Recoding.declared.scene a = Recoding.declared.scene b) : a.Same b := by
  obtain ⟨doing, vain, reply?, occasions, surface, now, running, cancelRequested⟩ := a
  obtain ⟨doing', vain', reply?', occasions', surface', now', running', cancelRequested'⟩ := b
  simp only [Recoding.scene, Recoding.reply_declared, Option.map_id, id_eq, Scene.mk.injEq] at h
  obtain ⟨-, hvain, hreply, hoccasions, hsurface, hnow, hrunning, hcancel⟩ := h
  exact ⟨hvain, hreply, forall₂_of_map_eq (fun _ _ => .of_declared) hoccasions, hsurface, hnow,
    hrunning, hcancel⟩

/-- **Undeclared fields.** With the same done to two runners, except that the steps of the programs
only agree, the same is answered, the same happens at the same instants with the same lines and the
same reports, and the surfaces are the same. Both are on one runtime, which makes the same of a stop
request that comes when a wait is over. -/
theorem undeclared_course [Surface σ] (s : σ) (policy : RunPolicy) {doings doings' : List (Doing σ)}
    (h : List.Forall₂ Doing.Agrees doings doings') :
    List.Forall₂ Scene.Same ((World.fresh s policy).runner.course doings)
      ((World.fresh s policy).runner.course doings') := by
  have hfresh : (World.fresh s policy).runner.Recoded .declared (World.fresh s policy).runner := by
    refine ⟨[], ?_, fun _ => rfl⟩
    rw [Recoding.token_declared]
    simp [World.fresh, Recoding.shift_declared]
  have hdoings : doings.map Recoding.declared.doing = doings'.map Recoding.declared.doing := by
    induction h with
    | nil => rfl
    | cons hdoing _ ih => rw [List.map_cons, List.map_cons, hdoing.declared_eq, ih]
  apply forall₂_of_map_eq fun _ _ => Scene.Same.of_declared
  rw [← hfresh.course, ← hfresh.course, hdoings]

/-- Two steps with other fields besides, in another order, and a stop request while the first one is
waited for. -/
theorem undeclared_course_wait :
    let a : Program := [
      [("action", .string "wait"), ("ms", .string "200"), ("delayMs", .string "5")],
      [("action", .string "click"), ("selector", .string "#go")]]
    let b : Program := [
      [("selector", .string "#go"), ("ms", .string "200"), ("action", .string "wait")],
      [("selector", .string "#go"), ("text", .null), ("action", .string "click")]]
    let doings (program : Program) : List (Doing Page) :=
      [.run program, .elapse 100, .move .stop, .elapse 500]
    let r := (World.fresh (PageFixture.page {}) {}).runner
    a.Agrees b ∧ List.Forall₂ Scene.Same (r.course (doings a)) (r.course (doings b)) := by
  intro a b doings r
  have hwait : Instruction.Agrees
      [("action", .string "wait"), ("ms", .string "200"), ("delayMs", .string "5")]
      [("selector", .string "#go"), ("ms", .string "200"), ("action", .string "wait")] :=
    .of_kind .wait rfl rfl (List.forall_mem_singleton.2 rfl)
  have hclick : Instruction.Agrees [("action", .string "click"), ("selector", .string "#go")]
      [("selector", .string "#go"), ("text", .null), ("action", .string "click")] :=
    .of_kind .click rfl rfl (List.forall_mem_singleton.2 rfl)
  have hagrees : a.Agrees b := .cons hwait (.cons hclick .nil)
  have hdoings : List.Forall₂ Doing.Agrees (doings a) (doings b) :=
    .cons (.run hagrees) (List.forall₂_same.2 fun doing _ => .same doing)
  exact ⟨hagrees, undeclared_course (PageFixture.page {}) {} hdoings⟩

end FormRehearsal
