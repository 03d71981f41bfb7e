/-
# The protocol of a run

What a run says follows its program: the opening, one line for each step in order, and one closing.
How many lines there are depends on why the run ends. A step that names no action is not announced,
and neither is one before which a stop request is seen; a step whose values make no sense, that
fails or that is interrupted was announced before.

* `stepLines_succ` : the lines of one more step;
* `follows_carryOn` : carrying out the rest of a program keeps to the program;
* `follows_advance` : a run that goes on keeps to its program.
-/
import FormRehearsal.Proofs.Run.Ending

namespace FormRehearsal

/-! ## Lines and actions of a program -/

/-- The lines that announce the first steps of a program. -/
def stepLines (program : Program) (count : Nat) : List StatusEvent :=
  (program.take count).mapIdx fun i raw => Run.stepLine (i + 1) program.length raw.actionName

/-- One more step has one more line. -/
theorem stepLines_succ {program : Program} {count : Nat} {raw : Instruction}
    (h : program[count]? = some raw) :
    stepLines program (count + 1) =
      stepLines program count ++ [Run.stepLine (count + 1) program.length raw.actionName] := by
  have hlt : count < program.length := (List.getElem?_eq_some_iff.1 h).1
  unfold stepLines
  rw [List.take_add_one, h, Option.toList_some, List.mapIdx_concat,
    List.length_take_of_le (Nat.le_of_lt hlt)]

/-- The actions are those of the first steps of a program. -/
def CarriedOut (program : Program) (actions : List ActionReport) : Prop :=
  ∀ (i : Nat) (action : ActionReport), actions[i]? = some action →
    ∃ (raw : Instruction) (step : Step), program[i]? = some raw ∧ raw.DecodesTo step ∧
      action.kind = step.kind ∧ action.selector = step.selector

theorem carriedOut_nil (program : Program) : CarriedOut program [] := by
  intro i action h
  cases h

/-- No more actions are carried out than there are steps. -/
theorem CarriedOut.length_le {program : Program} {actions : List ActionReport}
    (h : CarriedOut program actions) : actions.length ≤ program.length := by
  rcases Nat.eq_zero_or_pos actions.length with h0 | hpos
  · rw [h0]
    exact Nat.zero_le _
  · obtain ⟨raw, step, hraw, -⟩ :=
      h (actions.length - 1) actions[actions.length - 1] (List.getElem?_eq_getElem (by omega))
    have := (List.getElem?_eq_some_iff.1 hraw).1
    omega

/-- The action of the next step comes last. -/
theorem CarriedOut.snoc {program : Program} {actions : List ActionReport} {raw : Instruction}
    {step : Step} (h : CarriedOut program actions) (hraw : program[actions.length]? = some raw)
    (hd : raw.DecodesTo step) (since now : Nat) :
    CarriedOut program (actions ++ [.ofStep step since now]) := by
  intro i action hi
  rcases Nat.lt_or_ge i actions.length with hlt | hge
  · rw [List.getElem?_append_left hlt] at hi
    exact h i action hi
  · rw [List.getElem?_append_right hge] at hi
    obtain ⟨hi0, rfl⟩ := List.getElem?_eq_some_iff.1 hi
    have hlast : i = actions.length := by
      simp only [List.length_singleton] at hi0
      omega
    subst hlast
    exact ⟨raw, step, hraw, hd, by simp [ActionReport.ofStep], by simp [ActionReport.ofStep]⟩

/-! ## Runs that keep to their programs -/

/-- How an ending fits a program of which some steps were carried out and some announced. -/
def Ending.Fits (program : Program) (done announced : Nat) : Ending → Prop
  | exhausted => announced = done ∧ done = program.length
  | stopped => announced = done ∧ done < program.length
  | unknown e => announced = done ∧ ∃ raw, program[done]? = some raw ∧ raw.kind = .error e
  | undecodable e => announced = done + 1 ∧ ∃ raw kind, program[done]? = some raw ∧
      raw.kind = .ok kind ∧ Step.decode kind raw = .error e
  | failed _ => announced = done + 1 ∧ ∃ raw step, program[done]? = some raw ∧ raw.DecodesTo step

namespace Run

/-- A run that has not ended is at the right step of its program. -/
structure Underway (program : Program) (run : Run) : Prop where
  total : run.total = program.length
  carriedOut : CarriedOut program run.done
  stage : match run.stage with
    | .claimed p => p = program ∧ run.done = []
    | .waiting step _ _ _ rest =>
      ∃ raw, program.drop run.done.length = raw :: rest ∧ raw.DecodesTo step

/-- What a run that has not ended has said. -/
def said (program : Program) (run : Run) : List StatusEvent :=
  match run.stage with
  | .claimed _ => []
  | .waiting .. => opening ++ stepLines program (run.done.length + 1)

/-- A run of a program has ended with a report, after it said some events and announced some steps.
-/
structure Concluded (program : Program) (said : List StatusEvent) (ending : Ending)
    (announced : Nat) (report : Report) : Prop where
  outcome : report.outcome = ending.outcome
  total : report.total = program.length
  carriedOut : CarriedOut program report.actions
  fits : ending.Fits program report.completed announced
  said : said = opening ++ stepLines program announced ++ closing ending.outcome

/-- A run of a program that said some events has ended with a report, as a story tells. -/
def EndsAs {σ : Type} (program : Program) (said : List StatusEvent) (story : Story σ)
    (report : Report) : Prop :=
  ∃ ending announced, (∃ e ∈ story, e.turn = .ended ending report) ∧
    Concluded program said ending announced report

/-- A segment that keeps to a program, after some events were said. -/
def Follows {σ : Type} (program : Program) (said : List StatusEvent) (story : Story σ)
    (g : Segment σ) : Prop :=
  match g.state with
  | .running next => next.Underway program ∧ said ++ g.events = next.said program
  | .ended report => EndsAs program (said ++ g.events) story report

variable {σ : Type}

/-- Events that are said before a segment were said when it begins. -/
theorem Follows.after {program : Program} {said events : List StatusEvent} {story : Story σ}
    {g : Segment σ} (h : Follows program (said ++ events) story g) (e : Entry σ) :
    Follows program said (e :: story) (Segment.after events g) := by
  unfold Follows at h ⊢
  rw [List.append_assoc] at h
  cases hg : g.state with
  | running next =>
    rw [hg] at h
    simp only [Segment.after, hg]
    exact h
  | ended report =>
    rw [hg] at h
    simp only [Segment.after, hg]
    obtain ⟨ending, announced, ⟨e', he', ht⟩, hc⟩ := h
    exact ⟨ending, announced, ⟨e', List.mem_cons_of_mem _ he', ht⟩, hc⟩

/-- An entry at which nothing is said. -/
theorem Follows.after_silent {program : Program} {said : List StatusEvent} {story : Story σ}
    {g : Segment σ} (h : Follows program said story g) (e : Entry σ) :
    Follows program said (e :: story) g := by
  rw [← List.append_nil said] at h
  exact h.after e

/-- A run that ends keeps to its program, if the ending fits. -/
theorem follows_conclude (ending : Ending) {program : Program} {said : List StatusEvent} {run : Run}
    {now announced : Nat} {s : σ} (htotal : run.total = program.length)
    (hdone : CarriedOut program run.done) (hfits : ending.Fits program run.done.length announced)
    (hsaid : said = opening ++ stepLines program announced) :
    Follows program said [run.lastEntry now ending s] (run.conclude now ending.outcome s) := by
  refine ⟨ending, announced, ⟨_, List.mem_singleton.2 rfl, rfl⟩, ?_⟩
  exact { outcome := rfl, total := htotal, carriedOut := hdone, fits := hfits,
          said := by rw [hsaid]; rfl }

/-- What is left of a program after some steps begins with the next one. -/
theorem getElem?_of_drop {program rest : Program} {n : Nat} {raw : Instruction}
    (h : program.drop n = raw :: rest) : program[n]? = some raw ∧ program.drop (n + 1) = rest := by
  constructor
  · rw [← List.head?_drop, h, List.head?_cons]
  · rw [← List.drop_drop, h, List.drop_one, List.tail_cons]

variable [Surface σ]

/-- **Carrying out a program.** The steps that are left are announced and carried out in order, and
the run ends for a reason that fits. -/
theorem follows_carryOn (run : Run) {program : Program} {m : Moment} {rest : Program} {s : σ}
    (htotal : run.total = program.length) (hdone : CarriedOut program run.done)
    (hrest : program.drop run.done.length = rest) :
    Follows program (opening ++ stepLines program run.done.length) (carryOnAccount m run rest s)
      (carryOn m run rest s) := by
  induction rest generalizing run s with
  | nil =>
    have hle := hdone.length_le
    have hge := List.drop_eq_nil_iff.1 hrest
    exact follows_conclude .exhausted htotal hdone ⟨rfl, Nat.le_antisymm hle hge⟩ rfl
  | cons raw rest ih =>
    obtain ⟨hraw, hnext⟩ := getElem?_of_drop hrest
    have hlt : run.done.length < program.length := (List.getElem?_eq_some_iff.1 hraw).1
    -- the announcement of this step completes the lines
    have hline : opening ++ stepLines program run.done.length ++
        [stepLine (run.done.length + 1) run.total raw.actionName] =
          opening ++ stepLines program (run.done.length + 1) := by
      rw [stepLines_succ hraw, htotal, List.append_assoc]
    cases beginning m raw s with
    | stopped hs =>
      rw [carryOn, carryOnAccount, if_pos hs, if_pos hs]
      exact follows_conclude .stopped htotal hdone ⟨rfl, hlt⟩ rfl
    | unknown e hs hk =>
      simp only [carryOn, carryOnAccount, hs, hk]
      exact follows_conclude (.unknown e) htotal hdone ⟨rfl, raw, hraw, hk⟩ rfl
    | undecodable kind e hs hk hd =>
      simp only [carryOn, carryOnAccount, hs, hk, hd]
      refine Follows.after ?_ _
      rw [hline]
      exact follows_conclude (.undecodable e) htotal hdone
        ⟨rfl, raw, kind, hraw, hk, hd⟩ rfl
    | failed kind step e left hs hk hd hr =>
      simp only [carryOn, carryOnAccount, hs, hk, hd, hr]
      refine Follows.after ?_ _
      rw [hline]
      exact follows_conclude (.failed e) htotal hdone
        ⟨rfl, raw, step, hraw, kind, hk, hd⟩ rfl
    | finished kind step left hs hk hd hr =>
      simp only [carryOn, carryOnAccount, hs, hk, hd, hr]
      refine Follows.after ?_ _
      rw [hline]
      have hlen : (run.complete step m.now m.now).done.length = run.done.length + 1 :=
        List.length_append
      rw [← hlen]
      apply Follows.after_silent
      refine ih (run.complete step m.now m.now) htotal ?_ ?_
      · exact hdone.snoc hraw ⟨kind, hk, hd⟩ m.now m.now
      · rw [hlen, hnext]
    | waiting kind step wake hold left hs hk hd hr =>
      simp only [carryOn, carryOnAccount, hs, hk, hd, hr]
      refine Follows.after ?_ _
      rw [hline]
      refine ⟨⟨htotal, hdone, raw, hrest, kind, hk, hd⟩, ?_⟩
      exact List.append_nil _

/-- **Going on.** A run that is under way keeps to its program whenever it goes on. -/
theorem follows_advance {program : Program} {run : Run} (h : run.Underway program) (m : Moment)
    (s : σ) : Follows program (run.said program) (run.account m s) (run.advance m s) := by
  obtain ⟨token, total, done, startedAt, stage⟩ := run
  obtain ⟨htotal, hdone, hstage⟩ := h
  cases stage with
  | claimed p =>
    obtain ⟨rfl, hnil⟩ := hstage
    have hnil : done = [] := hnil
    subst hnil
    refine Follows.after ?_ _
    exact follows_carryOn ⟨token, total, [], m.now, _⟩ htotal hdone rfl
  | waiting step since wake hold rest =>
    obtain ⟨raw, hrest, hd⟩ := hstage
    obtain ⟨hraw, hnext⟩ := getElem?_of_drop hrest
    simp only [advance, account]
    by_cases hw : m.resumes wake = true
    · rw [if_pos hw, if_pos hw]
      rcases (hold.resume m).run s with ⟨e | _ | ⟨later, more⟩, left⟩
      · exact follows_conclude (.failed e) htotal hdone ⟨rfl, raw, step, hraw, hd⟩ rfl
      · apply Follows.after_silent
        have hlen : (done ++ [ActionReport.ofStep step since m.now]).length = done.length + 1 :=
          List.length_append
        rw [said, ← hlen]
        refine follows_carryOn _ htotal (hdone.snoc hraw hd since m.now) ?_
        show program.drop (done ++ [ActionReport.ofStep step since m.now]).length = rest
        rw [hlen, hnext]
      · exact ⟨⟨htotal, hdone, raw, hrest, hd⟩, List.append_nil _⟩
    · rw [if_neg hw, if_neg hw]
      by_cases hi : m.interrupts = true
      · rw [if_pos hi, if_pos hi]
        exact follows_conclude (.failed (.interrupted stoppedByUser)) htotal hdone
          ⟨rfl, raw, step, hraw, hd⟩ rfl
      · rw [if_neg hi, if_neg hi]
        exact ⟨⟨htotal, hdone, raw, hrest, hd⟩, List.append_nil _⟩

end Run

end FormRehearsal
