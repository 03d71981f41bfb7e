/-
# What steps declare

A kind of action declares the fields that it reads. Two steps agree if they have the same action and
the same values in the fields that its kind declares, whatever else they hold and in whatever order.
The declared form of a step is what is left of it when everything else is dropped.

* `kind_declared`, `decode_declared` : a step is read like its declared form;
* `Agrees.declared_eq` : steps that agree have the same declared form.
-/
import FormRehearsal.Proofs.Run.Account
import Mathlib.Data.List.Basic

namespace FormRehearsal

/-! ## Records of some names -/

namespace Record

variable {α : Type}

/-- The values that a record has under some names, in the order of the names. -/
def pick (names : List String) (r : Record α) : Record α :=
  names.filterMap fun name => (r.get? name).map fun value => (name, value)

theorem get?_pick (name : String) (names : List String) (r : Record α) :
    (r.pick names).get? name = if name ∈ names then r.get? name else none := by
  induction names with
  | nil => rfl
  | cons first names ih =>
    cases hr : r.get? first with
    | none =>
      rw [pick, List.filterMap_cons_none (by rw [hr]; rfl), ← pick, ih]
      by_cases hname : name = first
      · subst hname
        simp [hr]
      · simp [hname]
    | some value =>
      rw [pick, List.filterMap_cons_some (by rw [hr]; rfl), ← pick, get?, ih]
      by_cases hname : name = first
      · subst hname
        simp [hr]
      · simp [hname, Ne.symm hname]

/-- Records with the same values under some names. -/
theorem pick_congr {names : List String} {a b : Record α}
    (h : ∀ name ∈ names, a.get? name = b.get? name) : a.pick names = b.pick names := by
  apply List.filterMap_congr
  intro name hm
  rw [h name hm]

end Record

/-! ## Declared fields -/

/-- The fields that a kind declares. -/
def ActionKind.fields : ActionKind → List String
  | wait => ["ms"]
  | waitFor => ["selector", "timeoutMs"]
  | click | focus => ["selector"]
  | type => ["selector", "text", "clear"]
  | paste => ["selector", "text"]
  | keySequence => ["selector", "keys", "delayMs"]
  | scroll => ["x", "y", "behavior"]
  | setValue => ["selector", "value"]
  | highlight => ["selector", "durationMs"]

namespace Instruction

/-- Two steps have the same action, and if it names a kind, the same values in the fields that the
kind declares. -/
structure Agrees (a b : Instruction) : Prop where
  action : a.get? "action" = b.get? "action"
  fields : ∀ kind : ActionKind, a.get? "action" = some (.string kind.name) →
    ∀ name ∈ kind.fields, a.get? name = b.get? name

/-- The names of what counts in a step. -/
def names (raw : Instruction) : List String :=
  match raw.kind with
  | .ok kind => "action" :: kind.fields
  | .error _ => ["action"]

/-- What counts in a step: its action and the fields that its kind declares. -/
def declared (raw : Instruction) : Instruction := raw.pick raw.names

variable {a b raw : Instruction}

/-- The kind of a step and its name depend on its action only. -/
theorem kind_congr (h : a.get? "action" = b.get? "action") :
    a.kind = b.kind ∧ a.actionName = b.actionName := by
  simp only [kind, actionName, h, and_self]

/-- A step of a kind names it. -/
theorem action_of_kind {kind : ActionKind} (h : raw.kind = .ok kind) :
    raw.get? "action" = some (.string kind.name) := by
  unfold Instruction.kind at h
  split at h
  · rename_i s hs
    split at h
    · rename_i named hn
      cases h
      rw [hs, ActionKind.name_of_ofName? hn]
    · cases h
  · cases h

theorem action_mem_names (raw : Instruction) : "action" ∈ raw.names := by
  unfold names
  split <;> simp

/-- A step has the action of its declared form. -/
theorem action_declared (raw : Instruction) : raw.declared.get? "action" = raw.get? "action" := by
  rw [declared, Record.get?_pick, if_pos raw.action_mem_names]

@[simp] theorem kind_declared (raw : Instruction) : raw.declared.kind = raw.kind :=
  (kind_congr raw.action_declared).1

@[simp] theorem actionName_declared (raw : Instruction) :
    raw.declared.actionName = raw.actionName :=
  (kind_congr raw.action_declared).2

/-- A step is decoded from the fields that its kind declares. -/
theorem decode_congr {kind : ActionKind} (h : ∀ name ∈ kind.fields, a.get? name = b.get? name) :
    Step.decode kind a = Step.decode kind b := by
  cases kind with
  | wait =>
    have hms := h "ms" (by decide)
    simp only [Step.decode, millis, hms]
  | waitFor =>
    have hselector := h "selector" (by decide)
    have hbudget := h "timeoutMs" (by decide)
    simp only [Step.decode, Step.requiredSelector, selector?, millis, hselector, hbudget]
  | click | focus =>
    have hselector := h "selector" (by decide)
    simp only [Step.decode, Step.requiredSelector, selector?, hselector]
  | type =>
    have hselector := h "selector" (by decide)
    have htext := h "text" (by decide)
    have hclear := h "clear" (by decide)
    simp only [Step.decode, Step.requiredSelector, selector?, text, flag, hselector, htext, hclear]
  | paste =>
    have hselector := h "selector" (by decide)
    have htext := h "text" (by decide)
    simp only [Step.decode, Step.requiredSelector, selector?, text, hselector, htext]
  | keySequence =>
    have hselector := h "selector" (by decide)
    have hkeys := h "keys" (by decide)
    have hdelay := h "delayMs" (by decide)
    simp only [Step.decode, selector?, keys, millis, hselector, hkeys, hdelay]
  | scroll =>
    have hx := h "x" (by decide)
    have hy := h "y" (by decide)
    have hbehavior := h "behavior" (by decide)
    simp only [Step.decode, double, behavior, hx, hy, hbehavior]
  | setValue =>
    have hselector := h "selector" (by decide)
    have hvalue := h "value" (by decide)
    simp only [Step.decode, Step.requiredSelector, selector?, text, hselector, hvalue]
  | highlight =>
    have hselector := h "selector" (by decide)
    have hduration := h "durationMs" (by decide)
    simp only [Step.decode, Step.requiredSelector, selector?, millis, hselector, hduration]

/-- A step is decoded like its declared form. -/
theorem decode_declared {kind : ActionKind} (h : raw.kind = .ok kind) :
    Step.decode kind raw.declared = Step.decode kind raw := by
  apply decode_congr
  intro name hm
  have hnames : raw.names = "action" :: kind.fields := by simp only [names, h]
  rw [declared, Record.get?_pick, hnames, if_pos (List.mem_cons_of_mem _ hm)]

/-- Steps of a kind agree if they have the same values in the fields that it declares. -/
theorem Agrees.of_kind (kind : ActionKind) (ha : a.get? "action" = some (.string kind.name))
    (hb : b.get? "action" = some (.string kind.name))
    (h : ∀ name ∈ kind.fields, a.get? name = b.get? name) : a.Agrees b := by
  refine ⟨ha.trans hb.symm, fun other hother => ?_⟩
  have hname : kind.name = other.name := by simpa [ha] using hother
  have hkind := congrArg ActionKind.ofName? hname
  rw [ActionKind.ofName?_name, ActionKind.ofName?_name] at hkind
  cases hkind
  exact h

/-- Steps that agree have the same declared form. -/
theorem Agrees.declared_eq (h : a.Agrees b) : a.declared = b.declared := by
  have hkind := (kind_congr h.action).1
  have hnames : a.names = b.names := by simp only [names, hkind]
  rw [Instruction.declared, Instruction.declared, hnames]
  apply Record.pick_congr
  intro name hm
  simp only [names, ← hkind] at hm
  split at hm
  · rename_i kind hk
    rcases List.mem_cons.1 hm with rfl | hm
    · exact h.action
    · exact h.fields kind (action_of_kind hk) name hm
  · obtain rfl := List.mem_singleton.1 hm
    exact h.action

end Instruction

end FormRehearsal
