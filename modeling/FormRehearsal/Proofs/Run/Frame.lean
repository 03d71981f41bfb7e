/-
# What programs leave as it was

What every capability of a surface leaves as it was, every step does, and so does every program. The
same holds of what capabilities only add to. Both are relations between what a surface was and what
it is, which every use of a capability keeps. Steps press keys and release them at once, so it is
enough that a relation is kept by both together.

* `keeps_start`, `keeps_resume` : steps keep what capabilities keep;
* `CarriesOut.keeps` : programs do.
-/
import FormRehearsal.Proofs.Run.CarryingOut

namespace FormRehearsal

variable {σ α β : Type}

/-- A use of a capability leaves the surface in a relation to what it was. -/
def Capability.Keeps (R : σ → σ → Prop) (capability : Capability σ α) : Prop :=
  ∀ s, R s (capability s).2

/-- An act leaves the surface in a relation to what it was, also when it fails. -/
def Act.Keeps (R : σ → σ → Prop) (act : Act σ α) : Prop := ∀ s, R s (act.run s).2

/-- A relation that every capability of a surface keeps. -/
structure Surface.Keeps [Surface σ] (R : σ → σ → Prop) : Prop where
  refl : ∀ s, R s s
  trans : ∀ {s t u}, R s t → R t u → R s u
  query : ∀ now selector, Capability.Keeps R (Surface.query now selector)
  active : Capability.Keeps R Surface.active
  click : ∀ element, Capability.Keeps R (Surface.click element)
  focus : ∀ element, Capability.Keeps R (Surface.focus element)
  read : ∀ element, Capability.Keeps R (Surface.read element)
  write : ∀ element text, Capability.Keeps R (Surface.write element text)
  key : ∀ element name phase, Capability.Keeps R (Surface.key element name phase)
  scroll : ∀ x y behavior, Capability.Keeps R (Surface.scroll x y behavior)
  highlight : ∀ element duration, Capability.Keeps R (Surface.highlight element duration)

/-- A key goes down and comes up. -/
def stroke [Surface σ] (element : ElementId) (name : String) : Act σ Unit := do
  Act.call (Surface.key element name .down)
  Act.call (Surface.key element name .up)

/-- A relation that steps keep: every capability of a surface does but for keys, and keys that go
down and come up do. -/
structure Surface.Frames [Surface σ] (R : σ → σ → Prop) : Prop where
  refl : ∀ s, R s s
  trans : ∀ {s t u}, R s t → R t u → R s u
  query : ∀ now selector, Capability.Keeps R (Surface.query now selector)
  active : Capability.Keeps R Surface.active
  click : ∀ element, Capability.Keeps R (Surface.click element)
  focus : ∀ element, Capability.Keeps R (Surface.focus element)
  read : ∀ element, Capability.Keeps R (Surface.read element)
  write : ∀ element text, Capability.Keeps R (Surface.write element text)
  stroke : ∀ element name, (stroke element name : Act σ Unit).Keeps R
  scroll : ∀ x y behavior, Capability.Keeps R (Surface.scroll x y behavior)
  highlight : ∀ element duration, Capability.Keeps R (Surface.highlight element duration)

variable [Surface σ] {R : σ → σ → Prop}

/-! ## Acts -/

omit [Surface σ] in
theorem keeps_call {capability : Capability σ α} (h : Capability.Keeps R capability) :
    (Act.call capability).Keeps R := by
  intro s
  have hs := h s
  rw [Act.run_call]
  rcases hr : capability s with ⟨e | a, t⟩ <;> rwa [hr] at hs

omit [Surface σ] in
/-- One act after two others comes after both of them together. -/
theorem Act.bind_assoc {γ : Type} (act : Act σ γ) (next : γ → Act σ β) (last : β → Act σ α) :
    (act >>= fun c => next c >>= last) = (act >>= next) >>= last := by
  funext s
  show Act.run _ s = Act.run _ s
  simp only [Act.run_bind]
  rcases act.run s with ⟨e | c, t⟩ <;> rfl

/-- Steps keep what every capability keeps. -/
theorem Surface.Keeps.frames (h : Surface.Keeps R) : Surface.Frames R where
  refl := h.refl
  trans := h.trans
  query := h.query
  active := h.active
  click := h.click
  focus := h.focus
  read := h.read
  write := h.write
  stroke := by
    intro element name s
    have hdown := keeps_call (h.key element name .down) s
    rw [FormRehearsal.stroke, Act.run_bind]
    rcases hr : (Act.call (Surface.key element name .down)).run s with ⟨e | _, t⟩ <;>
      rw [hr] at hdown
    · exact hdown
    · exact h.trans hdown (keeps_call (h.key element name .up) t)
  scroll := h.scroll
  highlight := h.highlight

section Acts

variable (hR : Surface.Frames R)
include hR

theorem keeps_pure (a : α) : (pure a : Act σ α).Keeps R := fun s => hR.refl s

theorem keeps_fail (e : ActionError) : (Act.fail e : Act σ α).Keeps R := fun s => hR.refl s

/-- An act that fails keeps the relation, and so does one with another one after it. -/
theorem keeps_bind {act : Act σ β} {next : β → Act σ α} (ha : act.Keeps R)
    (hn : ∀ b, (next b).Keeps R) : (act >>= next).Keeps R := by
  intro s
  have hs := ha s
  rw [Act.run_bind]
  rcases hr : act.run s with ⟨e | b, t⟩ <;> rw [hr] at hs
  · exact hs
  · exact hR.trans hs (hn b t)

theorem keeps_suspend (m : Moment) (ms : Nat) (hold : Hold) :
    (m.suspend ms hold : Act σ Progress).Keeps R := by
  unfold Moment.suspend
  split
  · exact keeps_fail hR _
  · exact keeps_pure hR _

theorem keeps_settle (m : Moment) (ms : Nat) : (m.settle ms : Act σ Progress).Keeps R := by
  unfold Moment.settle
  split
  · exact keeps_pure hR _
  · exact keeps_suspend hR m ms _

end Acts

/-! ## Steps -/

/-- The first of some keys goes down and comes up before the others. -/
theorem press_cons (m : Moment) (target : ElementId) (delay : Nat) (key : String)
    (keys : List String) :
    (press m target delay (key :: keys) : Act σ Progress) =
      stroke target key >>= fun _ =>
        if delay = 0 then press m target delay keys
        else m.suspend delay (.pressing target keys delay) :=
  Act.bind_assoc _ _ _

section Steps

variable (hR : Surface.Frames R) (m : Moment)
include hR

theorem keeps_press (target : ElementId) (delay : Nat) (keys : List String) :
    (press m target delay keys : Act σ Progress).Keeps R := by
  induction keys with
  | nil => exact keeps_pure hR _
  | cons key keys ih =>
    rw [press_cons]
    refine keeps_bind hR (hR.stroke target key) fun _ => ?_
    split
    · exact ih
    · exact keeps_suspend hR m delay _

theorem keeps_perform (target : ElementId) (deed : Deed) :
    (deed.perform m target : Act σ Progress).Keeps R := by
  have finish : (pure .finished : Act σ Progress).Keeps R := keeps_pure hR _
  cases deed with
  | nothing => exact finish
  | click => exact keeps_bind hR (keeps_call (hR.click target)) fun _ => finish
  | focus => exact keeps_bind hR (keeps_call (hR.focus target)) fun _ => finish
  | type text clear =>
    refine keeps_bind hR (keeps_call (hR.focus target)) fun _ => ?_
    refine keeps_bind hR ?_ fun _ => ?_
    · cases clear
      · exact keeps_pure hR ()
      · exact keeps_call (hR.write target "")
    · refine keeps_bind hR (keeps_call (hR.read target)) fun current => ?_
      exact keeps_bind hR (keeps_call (hR.write target _)) fun _ => finish
  | paste text =>
    refine keeps_bind hR (keeps_call (hR.focus target)) fun _ => ?_
    exact keeps_bind hR (keeps_call (hR.write target text)) fun _ => finish
  | setValue value => exact keeps_bind hR (keeps_call (hR.write target value)) fun _ => finish
  | highlight duration =>
    exact keeps_bind hR (keeps_call (hR.highlight target duration)) fun _ =>
      keeps_settle hR m duration
  | press keys delay =>
    exact keeps_bind hR (keeps_call (hR.focus target)) fun _ => keeps_press hR m target delay keys

theorem keeps_retry (l : Lookup) (deed : Deed) (again : Nat) :
    (l.retry m deed again : Act σ Progress).Keeps R := by
  induction again with
  | zero =>
    refine keeps_bind hR (keeps_call (hR.query m.now l.selector)) fun answer => ?_
    split
    · exact keeps_perform hR m _ deed
    · exact keeps_suspend hR m _ _
  | succ again ih =>
    refine keeps_bind hR (keeps_call (hR.query m.now l.selector)) fun answer => ?_
    split
    · exact keeps_perform hR m _ deed
    · split
      · exact keeps_fail hR _
      · exact ih

theorem keeps_ask (l : Lookup) (deed : Deed) : (l.ask m deed : Act σ Progress).Keeps R := by
  unfold Lookup.ask
  split
  · exact keeps_bind hR (fun s => hR.refl s) fun again => keeps_retry hR m l deed again
  · exact keeps_fail hR _

/-- What is left of a step keeps what capabilities keep. -/
theorem keeps_resume (hold : Hold) : (hold.resume m : Act σ Progress).Keeps R := by
  cases hold with
  | looking l deed => exact keeps_ask hR m l deed
  | pressing target keys delay => exact keeps_press hR m target delay keys
  | settling => exact keeps_pure hR _

theorem keeps_find (kind : ActionKind) (selector : String) (budget : Nat) (deed : Deed) :
    (find m kind selector budget deed : Act σ Progress).Keeps R := by
  unfold find
  split
  · exact keeps_fail hR _
  · exact keeps_ask hR m _ deed

/-- A step that begins keeps what capabilities keep. -/
theorem keeps_start (step : Step) : (step.start m : Act σ Progress).Keeps R := by
  cases step with
  | wait ms => exact keeps_settle hR m ms
  | scroll x y behavior =>
    exact keeps_bind hR (keeps_call (hR.scroll x y behavior)) fun _ => keeps_settle hR m _
  | keySequence selector keys delay =>
    simp only [Step.start]
    split
    · exact keeps_fail hR _
    · split
      · exact keeps_ask hR m _ _
      · refine keeps_bind hR (keeps_call hR.active) fun answer => ?_
        split
        · exact keeps_perform hR m _ _
        · exact keeps_fail hR _
  | _ => exact keeps_find hR m _ _ _ _

end Steps

/-! ## Programs -/

theorem Lasts.keeps (hR : Surface.Frames R) {policy : RunPolicy} {now later : Nat}
    {x : Except ActionError Progress × σ} {result : Except ActionError Unit × σ}
    (h : Lasts policy now x later result) : R x.2 result.2 := by
  induction h with
  | finished => exact hR.refl _
  | failed => exact hR.refl _
  | waits hw _ ih => exact hR.trans (keeps_resume hR _ _ _) ih

/-- **Frames.** A program that is carried out keeps what every capability keeps. -/
theorem CarriesOut.keeps (hR : Surface.Frames R) {policy : RunPolicy} {program : Program}
    {now : Nat} {s : σ} {up : Upshot σ} (h : CarriesOut policy program now s up) : R s up.surface := by
  induction h with
  | failed rest hd hlasts => exact hR.trans (keeps_start hR _ _ _) (hlasts.keeps hR)
  | carriedOut hd hlasts _ ih =>
    exact hR.trans (hR.trans (keeps_start hR _ _ _) (hlasts.keeps hR)) ih
  | _ => exact hR.refl _

end FormRehearsal
