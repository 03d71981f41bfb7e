/-
# How steps wait and fail, and what they see of a stop request

A step waits until later, and only while no stop request ends waits. It fails with an interruption
only while one does, and says then that the user stopped the run. All that a step sees of the moment
at which it acts is the instant, the policy and whether waits end at once.

* `yields_start`, `yields_resume` : how steps wait and fail;
* `resume_congr` : what is left of a step is the same at moments that agree;
* `agrees_of_not_interruptible` : a stop request changes nothing unless the policy lets it end
  waits.
-/
import FormRehearsal.Run.Perform

namespace FormRehearsal

namespace Act

variable {σ α β : Type}

/-! ## What acts give and fail with -/

/-- Whatever an act gives has one property, and whatever it fails with has another one. -/
def Yields (act : Act σ α) (p : α → Prop) (q : ActionError → Prop) : Prop :=
  ∀ s, match (act.run s).1 with
    | .ok a => p a
    | .error e => q e

section Yields

variable {p : α → Prop} {q : ActionError → Prop}

theorem Yields.ok {act : Act σ α} (h : act.Yields p q) {s t : σ} {a : α}
    (hr : act.run s = (.ok a, t)) : p a := by
  have := h s
  rw [hr] at this
  exact this

theorem Yields.error {act : Act σ α} (h : act.Yields p q) {s t : σ} {e : ActionError}
    (hr : act.run s = (.error e, t)) : q e := by
  have := h s
  rw [hr] at this
  exact this

theorem yields_pure {a : α} (h : p a) : (pure a : Act σ α).Yields p q := fun _ => h

theorem yields_fail {e : ActionError} (h : q e) : (fail e : Act σ α).Yields p q := fun _ => h

theorem yields_look {view : σ → α} : (look view).Yields (fun _ => True) q := fun _ => trivial

/-- A capability that is refused gives an error of the surface. -/
theorem yields_call {capability : Capability σ α} (h : ∀ e, q (.surface e)) :
    (call capability).Yields (fun _ => True) q := by
  intro s
  rw [run_call]
  rcases capability s with ⟨e | a, t⟩
  · exact h e
  · trivial

theorem yields_bind {act : Act σ β} {next : β → Act σ α} (ha : act.Yields (fun _ => True) q)
    (hn : ∀ b, (next b).Yields p q) : (act >>= next).Yields p q := by
  intro s
  rw [run_bind]
  rcases hr : act.run s with ⟨e | b, t⟩
  · exact ha.error hr
  · exact hn b t

theorem yields_when {condition : Bool} {act : Act σ Unit} (h : act.Yields (fun _ => True) q) :
    (act.when condition).Yields (fun _ => True) q := by
  unfold Act.when
  split
  · exact h
  · exact yields_pure trivial

end Yields

end Act

/-! ## Waits and interruptions -/

/-- A step that is not finished waits until later, and no stop request ends its wait. -/
def Moment.Allows (m : Moment) : Progress → Prop
  | .finished => True
  | .waiting wake _ => m.now < wake ∧ m.interrupts = false

/-- An error is no interruption, unless waits end at once; then its text is that of a stop request.
-/
def Moment.Permits (m : Moment) (e : ActionError) : Prop :=
  ∀ reason, e = .interrupted reason → m.interrupts = true ∧ reason = stoppedByUser

theorem Moment.permits_surface (m : Moment) (e : SurfaceError) : m.Permits (.surface e) := by
  intro reason h
  cases h

/-- The outcome of a run whose step failed with an error that is no interruption. -/
theorem Moment.Permits.not_isInterruption {m : Moment} {e : ActionError} (h : m.Permits e)
    (hm : m.interrupts = false) : e.isInterruption = false := by
  cases e with
  | interrupted reason =>
    have := (h reason rfl).1
    rw [hm] at this
    cases this
  | _ => rfl

variable {σ : Type} [Surface σ]

section Yields

variable {m : Moment}

omit [Surface σ] in
theorem yields_interrupted (h : m.interrupts = true) :
    (Act.interrupted : Act σ Progress).Yields m.Allows m.Permits := by
  apply Act.yields_fail
  rintro reason ⟨⟩
  exact ⟨h, rfl⟩

omit [Surface σ] in
theorem yields_suspend {ms : Nat} {hold : Hold} (hms : 0 < ms) :
    (m.suspend ms hold : Act σ Progress).Yields m.Allows m.Permits := by
  unfold Moment.suspend
  by_cases h : m.interrupts = true
  · rw [if_pos h]
    exact yields_interrupted h
  · rw [if_neg h]
    exact Act.yields_pure ⟨m.lt_wakeAfter hms, Bool.eq_false_iff.2 h⟩

omit [Surface σ] in
theorem yields_settle {ms : Nat} : (m.settle ms : Act σ Progress).Yields m.Allows m.Permits := by
  unfold Moment.settle
  split
  · exact Act.yields_pure trivial
  · rename_i h
    -- a pause of no length is not skipped only if waits end at once
    rcases Nat.eq_zero_or_pos ms with rfl | hms
    · have hi : m.interrupts = true := by simpa using h
      rw [Moment.suspend, if_pos hi]
      exact yields_interrupted hi
    · exact yields_suspend hms

omit [Surface σ] in
/-- A capability never fails with an interruption. -/
theorem yields_capability {α : Type} {capability : Capability σ α} :
    (Act.call capability).Yields (fun _ => True) m.Permits :=
  Act.yields_call m.permits_surface

theorem yields_press {target : ElementId} {delay : Nat} (keys : List String) :
    (press m target delay keys : Act σ Progress).Yields m.Allows m.Permits := by
  induction keys with
  | nil => exact Act.yields_pure trivial
  | cons key keys ih =>
    refine Act.yields_bind yields_capability fun _ => ?_
    refine Act.yields_bind yields_capability fun _ => ?_
    by_cases hd : delay = 0
    · rw [if_pos hd]
      exact ih
    · rw [if_neg hd]
      exact yields_suspend (Nat.pos_of_ne_zero hd)

theorem yields_perform {target : ElementId} (deed : Deed) :
    (deed.perform m target : Act σ Progress).Yields m.Allows m.Permits := by
  cases deed with
  | nothing => exact Act.yields_pure trivial
  | click => exact Act.yields_bind yields_capability fun _ => Act.yields_pure trivial
  | focus => exact Act.yields_bind yields_capability fun _ => Act.yields_pure trivial
  | type text clear =>
    refine Act.yields_bind yields_capability fun _ => ?_
    refine Act.yields_bind (Act.yields_when yields_capability) fun _ => ?_
    refine Act.yields_bind yields_capability fun current => ?_
    exact Act.yields_bind yields_capability fun _ => Act.yields_pure trivial
  | paste text =>
    refine Act.yields_bind yields_capability fun _ => ?_
    exact Act.yields_bind yields_capability fun _ => Act.yields_pure trivial
  | setValue value => exact Act.yields_bind yields_capability fun _ => Act.yields_pure trivial
  | highlight duration => exact Act.yields_bind yields_capability fun _ => yields_settle
  | press keys delay => exact Act.yields_bind yields_capability fun _ => yields_press keys

theorem yields_retry {l : Lookup} {deed : Deed} (again : Nat) :
    (l.retry m deed again : Act σ Progress).Yields m.Allows m.Permits := by
  -- the lookups that follow one another at once do not wait
  induction again with
  | zero =>
    refine Act.yields_bind yields_capability fun answer => ?_
    split
    · exact yields_perform deed
    · exact yields_suspend m.policy.pollStep_pos
  | succ again ih =>
    refine Act.yields_bind yields_capability fun answer => ?_
    split
    · exact yields_perform deed
    · split
      · rename_i h
        exact yields_interrupted h
      · exact ih

theorem yields_ask {l : Lookup} {deed : Deed} :
    (l.ask m deed : Act σ Progress).Yields m.Allows m.Permits := by
  unfold Lookup.ask
  split
  · exact Act.yields_bind Act.yields_look fun again => yields_retry again
  · apply Act.yields_fail
    intro reason h
    cases h

/-- What is left of a step waits until later, and fails with an interruption only while waits end at
once. -/
theorem yields_resume {hold : Hold} :
    (hold.resume m : Act σ Progress).Yields m.Allows m.Permits := by
  cases hold with
  | looking l deed => exact yields_ask
  | pressing target keys delay => exact yields_press keys
  | settling => exact Act.yields_pure trivial

theorem yields_find {kind : ActionKind} {selector : String} {budget : Nat} {deed : Deed} :
    (find m kind selector budget deed : Act σ Progress).Yields m.Allows m.Permits := by
  unfold find
  split
  · apply Act.yields_fail
    intro reason h
    cases h
  · exact yields_ask

/-- A step that begins waits until later, and fails with an interruption only while waits end at
once. -/
theorem yields_start (step : Step) :
    (step.start m : Act σ Progress).Yields m.Allows m.Permits := by
  cases step with
  | wait ms => exact yields_settle
  | waitFor selector limit => exact yields_find
  | click selector => exact yields_find
  | type selector text clear => exact yields_find
  | paste selector text => exact yields_find
  | focus selector => exact yields_find
  | setValue selector value => exact yields_find
  | highlight selector duration => exact yields_find
  | scroll x y behavior => exact Act.yields_bind yields_capability fun _ => yields_settle
  | keySequence selector keys delay =>
    simp only [Step.start]
    split
    · apply Act.yields_fail
      intro reason h
      cases h
    · split
      · exact yields_ask
      · refine Act.yields_bind yields_capability fun answer => ?_
        split
        · exact yields_perform _
        · apply Act.yields_fail
          intro reason h
          cases h

end Yields

/-! ## Moments that agree -/

/-- Two moments are the same to a step that waits: they may differ in a stop request that ends no
wait. -/
structure Moment.Agrees (m n : Moment) : Prop where
  now : m.now = n.now
  policy : m.policy = n.policy
  interrupts : m.interrupts = n.interrupts

/-- Under a policy that lets nothing end waits, a stop request makes no difference to a step. -/
theorem agrees_of_not_interruptible {policy : RunPolicy} (h : policy.interruptible = false)
    (now : Nat) (a b : Bool) : Moment.Agrees ⟨now, policy, a⟩ ⟨now, policy, b⟩ where
  now := rfl
  policy := rfl
  interrupts := by simp [Moment.interrupts, h]

section Agrees

variable {m n : Moment} (h : m.Agrees n)
include h

omit [Surface σ] in
theorem resumes_congr (wake : Nat) : m.resumes wake = n.resumes wake := by
  rw [Moment.resumes, Moment.resumes, h.interrupts, h.now, h.policy]

omit [Surface σ] in
theorem suspend_congr (ms : Nat) (hold : Hold) :
    (m.suspend ms hold : Act σ Progress) = n.suspend ms hold := by
  rw [Moment.suspend, Moment.suspend, Moment.wakeAfter, Moment.wakeAfter, h.interrupts, h.now,
    h.policy]

omit [Surface σ] in
theorem settle_congr (ms : Nat) : (m.settle ms : Act σ Progress) = n.settle ms := by
  rw [Moment.settle, Moment.settle, h.interrupts, suspend_congr h]

theorem press_congr (target : ElementId) (delay : Nat) (keys : List String) :
    (press m target delay keys : Act σ Progress) = press n target delay keys := by
  induction keys with
  | nil => rfl
  | cons key keys ih => rw [press, press, ih, suspend_congr h]

theorem perform_congr (target : ElementId) (deed : Deed) :
    (deed.perform m target : Act σ Progress) = deed.perform n target := by
  -- only these two deeds wait
  cases deed with
  | highlight duration => rw [Deed.perform, Deed.perform, settle_congr h]
  | press keys delay => rw [Deed.perform, Deed.perform, press_congr h]
  | _ => rfl

theorem retry_congr (l : Lookup) (deed : Deed) (again : Nat) :
    (l.retry m deed again : Act σ Progress) = l.retry n deed again := by
  have hp : ∀ target, (deed.perform m target : Act σ Progress) = deed.perform n target :=
    fun target => perform_congr h target deed
  induction again with
  | zero => simp only [Lookup.retry, hp, suspend_congr h, h.now, h.policy]
  | succ again ih => simp only [Lookup.retry, hp, ih, h.interrupts, h.now]

theorem ask_congr (l : Lookup) (deed : Deed) :
    (l.ask m deed : Act σ Progress) = l.ask n deed := by
  simp only [Lookup.ask, retry_congr h, h.now, h.policy]

/-- What is left of a step goes on alike at moments that agree. -/
theorem resume_congr (hold : Hold) : (hold.resume m : Act σ Progress) = hold.resume n := by
  cases hold with
  | looking l deed => exact ask_congr h l deed
  | pressing target keys delay => exact press_congr h target delay keys
  | settling => rfl

end Agrees

end FormRehearsal
