/-
# Why runs end

An ending arises at a moment: a run ends before a step only when it was asked to stop, and on a step
for a reason that the step gives. The outcome and the last line of a run follow from its ending.

* `statusText_outcome` : the last line is the text of the error that ended the run;
* `stopping_of_cancelled` : a run is cancelled only when it has been asked to stop;
* `arises_account` : every ending in the account of a run arises at its moment.
-/
import FormRehearsal.Proofs.Run.Account

namespace FormRehearsal

/-! ## Decoding -/

/-- The instruction stands for the step. -/
def Instruction.DecodesTo (raw : Instruction) (step : Step) : Prop :=
  ∃ kind, raw.kind = .ok kind ∧ Step.decode kind raw = .ok step

/-- An instruction without a known action is told by the name that it shows. -/
theorem Instruction.kind_error {raw : Instruction} {e : RunError} (h : raw.kind = .error e) :
    ∃ name, e = .unknownAction name := by
  unfold Instruction.kind at h
  split at h
  · split at h
    · cases h
    · cases h
      exact ⟨_, rfl⟩
  · cases h
    exact ⟨_, rfl⟩

/-- A selector that is not there makes the step invalid. -/
theorem Step.requiredSelector_error {kind : ActionKind} {raw : Instruction} {e : ActionError}
    (h : requiredSelector kind raw = .error e) : ∃ reason, e = .invalid reason := by
  unfold requiredSelector at h
  split at h
  · cases h
  · cases h
    exact ⟨_, rfl⟩

/-- An instruction that cannot be decoded is invalid. -/
theorem Step.decode_error {kind : ActionKind} {raw : Instruction} {e : ActionError}
    (h : decode kind raw = .error e) : ∃ reason, e = .invalid reason := by
  have required : ∀ {f : String → Step}, (requiredSelector kind raw).map f = .error e →
      ∃ reason, e = .invalid reason := by
    intro f hf
    cases hs : requiredSelector kind raw with
    | ok s =>
      rw [hs] at hf
      cases hf
    | error e' =>
      rw [hs] at hf
      cases hf
      exact requiredSelector_error hs
  cases kind with
  | wait => cases h
  | keySequence =>
    simp only [decode] at h
    split at h
    · cases h
      exact ⟨_, rfl⟩
    · cases h
  | scroll =>
    simp only [decode, Instruction.behavior] at h
    split at h
    · split at h
      · cases h
      · cases h
        exact ⟨_, rfl⟩
    · cases h
  | _ => exact required h

/-! ## Why runs end -/

/-- An ending that can come about at a moment. -/
def Ending.Arises (m : Moment) : Ending → Prop
  | exhausted => True
  | stopped => m.stopping = true
  | unknown e => ∃ name, e = .unknownAction name
  | undecodable e => ∃ reason, e = .invalid reason
  | failed e => m.Permits e

/-- The last line of a run that an error ends is the text of the error. -/
theorem Ending.statusText_outcome {m : Moment} {ending : Ending} {e : RunError}
    (h : ending.Arises m) (he : ending.error? = some e) :
    ending.outcome.statusText = "Error: " ++ e.message := by
  have failed : ∀ e' : RunError, e'.isCancellation = false →
      (Outcome.ofError e').statusText = "Error: " ++ e'.message := by
    intro e' hc
    simp only [Outcome.ofError, hc]
    rfl
  cases ending with
  | exhausted => cases he
  | stopped =>
    cases he
    rfl
  | unknown e' =>
    cases he
    obtain ⟨name, rfl⟩ := h
    exact failed _ rfl
  | undecodable e' =>
    cases he
    obtain ⟨reason, rfl⟩ := h
    exact failed _ rfl
  | failed e' =>
    cases he
    cases e' with
    | interrupted reason =>
      -- an interruption says what a cancelled run says
      obtain ⟨-, rfl⟩ := h reason rfl
      rfl
    | _ => exact failed _ rfl

/-- A run is completed only when no step is left. -/
theorem Ending.outcome_eq_completed {ending : Ending} :
    ending.outcome = .completed ↔ ending = .exhausted := by
  have ofError : ∀ e : RunError, Outcome.ofError e ≠ .completed := by
    intro e
    unfold Outcome.ofError
    split <;> exact fun h => by cases h
  cases ending with
  | exhausted => exact ⟨fun _ => rfl, fun _ => rfl⟩
  | stopped => exact ⟨fun h => absurd h (ofError _), fun h => by cases h⟩
  | unknown e => exact ⟨fun h => absurd h (ofError _), fun h => by cases h⟩
  | undecodable e => exact ⟨fun h => absurd h (ofError _), fun h => by cases h⟩
  | failed e => exact ⟨fun h => absurd h (ofError _), fun h => by cases h⟩

/-- A run is cancelled only when it has been asked to stop. -/
theorem Ending.stopping_of_cancelled {m : Moment} {ending : Ending} (h : ending.Arises m)
    (hc : ending.outcome = .cancelled) : m.stopping = true := by
  have ofError : ∀ e : RunError, Outcome.ofError e = .cancelled → e.isCancellation = true := by
    intro e he
    unfold Outcome.ofError at he
    split at he
    · assumption
    · cases he
  cases ending with
  | exhausted => cases hc
  | stopped => exact h
  | unknown e =>
    obtain ⟨name, rfl⟩ := h
    cases ofError _ hc
  | undecodable e =>
    obtain ⟨reason, rfl⟩ := h
    cases ofError _ hc
  | failed e =>
    cases e with
    | interrupted reason =>
      have hi := (h reason rfl).1
      simp only [Moment.interrupts, Bool.and_eq_true] at hi
      exact hi.2
    | _ => cases ofError _ hc

/-! ## Every ending in an account arises at its moment -/

namespace Run

variable {σ : Type} [Surface σ]

/-- The endings of a story arise at a moment and give reports with their outcomes. -/
def EndingsArise (m : Moment) (story : Story σ) : Prop :=
  ∀ e ∈ story, ∀ ending report, e.turn = .ended ending report →
    ending.Arises m ∧ report.outcome = ending.outcome

omit [Surface σ] in
theorem endingsArise_nil {m : Moment} : EndingsArise m ([] : Story σ) :=
  fun _ he => absurd he List.not_mem_nil

omit [Surface σ] in
theorem endingsArise_lastEntry {m : Moment} {run : Run} {ending : Ending} {s : σ}
    (h : ending.Arises m) : EndingsArise m [run.lastEntry m.now ending s] := by
  intro e he ending' report ht
  obtain rfl := List.mem_singleton.1 he
  cases ht
  exact ⟨h, rfl⟩

omit [Surface σ] in
theorem EndingsArise.cons {m : Moment} {e : Entry σ} {story : Story σ} (h : EndingsArise m story)
    (he : e.turn.report? = none) : EndingsArise m (e :: story) := by
  intro e' he' ending report ht
  rcases List.mem_cons.1 he' with rfl | he'
  · rw [ht] at he
    cases he
  · exact h e' he' ending report ht

theorem arises_carryOn (m : Moment) (run : Run) (program : Program) (s : σ) :
    EndingsArise m (carryOnAccount m run program s) := by
  induction program generalizing run s with
  | nil => exact endingsArise_lastEntry trivial
  | cons raw rest ih =>
    cases beginning m raw s with
    | stopped hs =>
      rw [carryOnAccount, if_pos hs]
      exact endingsArise_lastEntry hs
    | unknown e hs hk =>
      simp only [carryOnAccount, hs, hk]
      have ha : Ending.Arises m (.unknown e) := Instruction.kind_error hk
      exact endingsArise_lastEntry ha
    | undecodable kind e hs hk hd =>
      simp only [carryOnAccount, hs, hk, hd]
      have ha : Ending.Arises m (.undecodable e) := Step.decode_error hd
      exact (endingsArise_lastEntry ha).cons rfl
    | failed kind step e left hs hk hd hr =>
      simp only [carryOnAccount, hs, hk, hd, hr]
      refine (endingsArise_lastEntry ?_).cons rfl
      exact (yields_start step).error hr
    | finished kind step left hs hk hd hr =>
      simp only [carryOnAccount, hs, hk, hd, hr]
      exact ((ih _ left).cons rfl).cons rfl
    | waiting kind step wake hold left hs hk hd hr =>
      simp only [carryOnAccount, hs, hk, hd, hr]
      exact (endingsArise_nil.cons rfl).cons rfl

/-- Every ending in the account of a run arises at the moment. -/
theorem arises_account (m : Moment) (run : Run) (s : σ) : EndingsArise m (run.account m s) := by
  obtain ⟨token, total, done, startedAt, stage⟩ := run
  cases stage with
  | claimed program => exact (arises_carryOn m _ program s).cons rfl
  | waiting step since wake hold rest =>
    simp only [account]
    by_cases hw : m.resumes wake = true
    · rw [if_pos hw]
      rcases hr : (hold.resume m).run s with ⟨e | _ | ⟨later, more⟩, left⟩
      · exact endingsArise_lastEntry (yields_resume.error hr)
      · exact (arises_carryOn m _ rest left).cons rfl
      · exact endingsArise_nil.cons rfl
    · rw [if_neg hw]
      by_cases hi : m.interrupts = true
      · rw [if_pos hi]
        refine endingsArise_lastEntry ?_
        rintro reason ⟨⟩
        exact ⟨hi, rfl⟩
      · rw [if_neg hi]
        exact endingsArise_nil

end Run

end FormRehearsal
