/-
# What steps ask of time

A step that begins searches for an element or does not, and it pauses for as long as its values say.
Both can be read off the decoded step. On an exact runtime a pause takes the time that was asked for.

* `Step.start_eq_ask` : a step that searches begins with a lookup;
* `Step.start_of_search` : what it pauses for then;
* `lasts_settle` : a pause takes its time.
-/
import FormRehearsal.Proofs.Run.CarryingOut

namespace FormRehearsal

/-! ## What steps ask for -/

namespace Step

/-- The selector that a step searches for, and the budget of the search. -/
def search? (policy : RunPolicy) : Step → Option (String × Nat)
  | wait .. | scroll .. => none
  | waitFor selector budget => some (selector, budget)
  | keySequence selector .. => selector.map (·, policy.lookupBudget)
  | click s | type s .. | paste s .. | focus s | setValue s .. | highlight s .. =>
    some (s, policy.lookupBudget)

/-- How long a step pauses. -/
def pauses (policy : RunPolicy) : Step → Nat
  | wait ms => ms
  | scroll .. => policy.scrollSettle
  | highlight _ duration => duration
  | keySequence _ keys delay => keys.length * delay
  | _ => 0

/-- A step that needs a selector has that of its instruction. -/
theorem eq_of_requiredSelector {kind : ActionKind} {raw : Instruction} {f : String → Step}
    {step : Step} (h : (requiredSelector kind raw).map f = .ok step) :
    ∃ s, raw.selector? = some s ∧ step = f s := by
  unfold requiredSelector at h
  split at h
  · rename_i s hs
    cases h
    exact ⟨s, hs, rfl⟩
  · cases h

/-- A step has the selector of its instruction, or none. -/
theorem selector_of_decode {kind : ActionKind} {raw : Instruction} {step : Step}
    (h : decode kind raw = .ok step) :
    step.selector = none ∨ step.selector = raw.selector? := by
  cases kind with
  | wait =>
    cases h
    exact .inl rfl
  | scroll =>
    rcases hb : raw.behavior with e | behavior <;> rw [decode, hb] at h <;> cases h
    exact .inl rfl
  | keySequence =>
    simp only [decode] at h
    split at h
    · cases h
    · cases h
      exact .inr rfl
  | _ =>
    obtain ⟨s, hs, rfl⟩ := eq_of_requiredSelector h
    exact .inr hs.symm

end Step

namespace Instruction.DecodesTo

variable {raw : Instruction} {step : Step}

/-- No selector of a step is blank. -/
theorem selector (h : raw.DecodesTo step) {s : String} (hs : step.selector = some s) :
    Text.isBlankText s = false := by
  obtain ⟨kind, -, hd⟩ := h
  rcases Step.selector_of_decode hd with hn | hr
  · rw [hn] at hs
    cases hs
  · rw [hr, Instruction.selector?] at hs
    split at hs
    · split at hs
      · cases hs
      · rename_i hb
        cases hs
        exact Bool.eq_false_iff.2 hb
    · cases hs

/-- A step that presses keys has some. -/
theorem keys {selector : Option String} {keys : List String} {delay : Nat}
    (h : raw.DecodesTo (.keySequence selector keys delay)) : keys.isEmpty = false := by
  obtain ⟨kind, -, hd⟩ := h
  cases kind with
  | wait => cases hd
  | scroll =>
    rcases hb : raw.behavior with e | behavior <;> rw [Step.decode, hb] at hd <;> cases hd
  | keySequence =>
    simp only [Step.decode] at hd
    split at hd
    · cases hd
    · rename_i hk
      cases hd
      cases hr : raw.keys with
      | nil => exact absurd hr hk
      | cons key keys => rfl
  | _ =>
    obtain ⟨s, -, he⟩ := Step.eq_of_requiredSelector hd
    cases he

end Instruction.DecodesTo

/-- How long what is done with an element pauses. -/
def Deed.pauses : Deed → Nat
  | highlight duration => duration
  | press keys delay => keys.length * delay
  | _ => 0

/-- What a step does with the element that it searches for. -/
def Step.deed : Step → Deed
  | wait .. | scroll .. | waitFor .. => .nothing
  | click _ => .click
  | type _ text clear => .type text clear
  | paste _ text => .paste text
  | keySequence _ keys delay => .press keys delay
  | focus _ => .focus
  | setValue _ value => .setValue value
  | highlight _ duration => .highlight duration

/-- A step that searches has the selector that it searches for. -/
theorem Step.selector_of_search {step : Step} {policy : RunPolicy} {selector : String}
    {budget : Nat} (h : step.search? policy = some (selector, budget)) : step.selector = some selector := by
  cases step with
  | wait ms => cases h
  | scroll x y behavior => cases h
  | keySequence given keys delay =>
    obtain ⟨s, rfl, hs⟩ := Option.map_eq_some_iff.1 h
    cases hs
    rfl
  | _ =>
    cases h
    rfl

/-- A step that searches begins with a lookup. -/
theorem Step.start_eq_ask {σ : Type} [Surface σ] {raw : Instruction} {step : Step} {m : Moment}
    {selector : String} {budget : Nat} (hd : raw.DecodesTo step)
    (hs : step.search? m.policy = some (selector, budget)) :
    (step.start m : Act σ Progress) = Lookup.ask m ⟨selector, m.now, budget⟩ step.deed := by
  have hblank := hd.selector (Step.selector_of_search hs)
  have begins : ∀ kind deed, (find m kind selector budget deed : Act σ Progress) =
      Lookup.ask m ⟨selector, m.now, budget⟩ deed := by
    intro kind deed
    rw [find, hblank]
    rfl
  cases step with
  | wait ms => cases hs
  | scroll x y behavior => cases hs
  | keySequence given keys delay =>
    obtain ⟨s, rfl, hbudget⟩ := Option.map_eq_some_iff.1 hs
    cases hbudget
    have hfilter : (some selector).filter (!Text.isBlankText ·) = some selector := by
      simp [hblank]
    simp only [start, hd.keys, hfilter, Bool.false_eq_true, if_false]
    rfl
  | _ =>
    cases hs
    exact begins _ _

/-- A step that searches begins with a lookup, and pauses only for what it does then. Keys are
pressed only by a step that is meant to. -/
theorem Step.start_of_search {σ : Type} [Surface σ] {raw : Instruction} {step : Step} {m : Moment}
    {selector : String} {budget : Nat} (hd : raw.DecodesTo step)
    (hs : step.search? m.policy = some (selector, budget)) :
    ∃ deed, (step.start m : Act σ Progress) = Lookup.ask m ⟨selector, m.now, budget⟩ deed ∧
      step.pauses m.policy = deed.pauses ∧
      ∀ keys delay, deed = .press keys delay → step = .keySequence (some selector) keys delay := by
  refine ⟨step.deed, start_eq_ask hd hs, ?_⟩
  cases step with
  | wait ms => cases hs
  | scroll x y behavior => cases hs
  | keySequence given keys delay =>
    obtain ⟨s, rfl, hbudget⟩ := Option.map_eq_some_iff.1 hs
    cases hbudget
    refine ⟨rfl, ?_⟩
    rintro _ _ ⟨⟩
    rfl
  | _ => exact ⟨rfl, fun _ _ h => by cases h⟩

/-! ## Sleeping -/

/-- On the runtime every sleep ends exactly when it is meant to. -/
def Runtime.Exact (runtime : Runtime) : Prop := ∀ ms, runtime.sleep ms = ms

theorem Runtime.Exact.wakeAfter {m : Moment} (h : m.policy.Exact) (ms : Nat) :
    m.wakeAfter ms = m.now + ms := congrArg (m.now + ·) (h ms)

section Waits

variable {σ : Type} [Surface σ] {policy : RunPolicy} {ms : Nat}

/-- What is left of a step goes on when sleeping is over. -/
theorem lasts_suspend (h : policy.Exact) (hms : 0 < ms) {now later : Nat} {hold : Hold}
    {s : σ} {result : Except ActionError Unit × σ}
    (hl : Lasts policy (now + ms) ((hold.resume ⟨now + ms, policy, false⟩).run s) later result) :
    Lasts policy now ((Moment.suspend ⟨now, policy, false⟩ ms hold).run s) later result := by
  have hi : Moment.interrupts ⟨now, policy, false⟩ = false := by simp [Moment.interrupts]
  rw [Moment.suspend, hi, Runtime.Exact.wakeAfter h]
  exact .waits (Nat.lt_add_of_pos_right hms) hl

/-- A pause takes its time, and nothing is done in it. -/
theorem lasts_settle (h : policy.Exact) (now : Nat) (s : σ) :
    Lasts policy now ((Moment.settle ⟨now, policy, false⟩ ms).run s) (now + ms) (.ok (), s) := by
  rcases Nat.eq_zero_or_pos ms with rfl | hms
  · rw [Moment.settle, if_pos (by simp [Moment.interrupts])]
    exact .finished now s
  · rw [Moment.settle, if_neg fun hz => Nat.ne_of_gt hms hz.1]
    exact lasts_suspend h hms (.finished _ s)

end Waits

end FormRehearsal
