/-
# Which instructions can be decoded

An instruction is refused for one of three reasons, each about one kind of actions and one field:
the selector, the keys, the way of scrolling. All other fields are read leniently. An instruction
that is not refused gives a step of its kind, with the selector as it is written and with the keys
in their order.

* `selector?_eq_some_iff`, `keys_eq_nil_iff`, `behavior_eq_error_iff` : what the readers of the
  three fields make of them;
* `judged_decode` : every instruction is refused for a reason or gives a step of its own;
* `decode_decides` : the reasons are exactly those.
-/
import FormRehearsal.Action.Step

namespace FormRehearsal

namespace Instruction

/-! ## Fields that can be wrong -/

/-- The selector is a text with a character that is not blank. -/
def Names (raw : Instruction) (selector : String) : Prop :=
  raw.get? "selector" = some (.string selector) ∧ ∃ c ∈ selector.toList, Text.isBlank c = false

/-- A value that stands for a key: a text or a number. -/
inductive IsKey : Json → Prop
  | text (s : String) : IsKey (.string s)
  | number (n : Json.Number) : IsKey (.number n)

/-- The keys are a text that is not empty, or a list with a text or a number in it. -/
def HasKeys (raw : Instruction) : Prop :=
  (∃ s, raw.get? "keys" = some (.string s) ∧ s ≠ "") ∨
    ∃ items, raw.get? "keys" = some (.array items) ∧ ∃ item ∈ items, IsKey item

/-- The keys of a list of values: its texts and numbers in their order, without all else. -/
inductive KeysOf : List Json → List String → Prop
  | nil : KeysOf [] []
  | text (s : String) {items : List Json} {keys : List String} (h : KeysOf items keys) :
    KeysOf (.string s :: items) (s :: keys)
  | number (n : Json.Number) {items : List Json} {keys : List String} (h : KeysOf items keys) :
    KeysOf (.number n :: items) (String.ofList n.text :: keys)
  | other {item : Json} (hitem : ¬ IsKey item) {items : List Json} {keys : List String}
    (h : KeysOf items keys) : KeysOf (item :: items) keys

/-- The keys of an instruction: a text alone, or those of a list. -/
inductive Spells (raw : Instruction) : List String → Prop
  | single {s : String} (h : raw.get? "keys" = some (.string s)) (hs : s ≠ "") : Spells raw [s]
  | listed {items : List Json} {keys : List String} (h : raw.get? "keys" = some (.array items))
    (hkeys : KeysOf items keys) : Spells raw keys

/-- An instruction of a kind is refused with a message. -/
inductive Unfit (kind : ActionKind) (raw : Instruction) : String → Prop
  | selector (hkind : kind.requiresSelector = true) (h : ∀ s, ¬ raw.Names s) :
    Unfit kind raw (kind.name ++ " requires selector")
  | keys (hkind : kind = .keySequence) (h : ¬ raw.HasKeys) :
    Unfit kind raw "keySequence requires keys"
  | behavior (hkind : kind = .scroll) {name : String}
    (h : raw.get? "behavior" = some (.string name)) (hname : name ∉ ["smooth", "instant", "auto"]) :
    Unfit kind raw ("unsupported scroll behavior '" ++ name ++ "'")

/-- An instruction is refused with one message. -/
theorem Unfit.unique {kind : ActionKind} {raw : Instruction} {a b : String} (ha : Unfit kind raw a)
    (hb : Unfit kind raw b) : a = b := by
  cases ha with
  | selector ha _ =>
    cases hb with
    | selector => rfl
    | keys hb => subst hb; cases ha
    | behavior hb => subst hb; cases ha
  | keys ha _ =>
    cases hb with
    | selector hb => subst ha; cases hb
    | keys => rfl
    | behavior hb => subst ha; cases hb
  | behavior ha h _ =>
    cases hb with
    | selector hb => subst ha; cases hb
    | keys hb => subst ha; cases hb
    | behavior _ h' =>
      rw [h] at h'
      cases h'
      rfl

/-! ## Reading these fields -/

variable {raw : Instruction}

/-- A text is not blank if it has a character that is not. -/
theorem isBlankText_eq_false_iff {s : String} :
    Text.isBlankText s = false ↔ ∃ c ∈ s.toList, Text.isBlank c = false := by
  rw [Text.isBlankText, List.all_eq_false]
  simp only [Bool.not_eq_true]

/-- The selector that is read. -/
theorem selector?_eq_some_iff {s : String} : raw.selector? = some s ↔ raw.Names s := by
  unfold selector?
  split
  · rename_i t ht
    rw [Names, ht, ← isBlankText_eq_false_iff]
    constructor
    · intro h
      split at h
      · cases h
      · rename_i hb
        cases h
        exact ⟨rfl, Bool.eq_false_iff.2 hb⟩
    · rintro ⟨hs, hb⟩
      cases hs
      rw [if_neg (Bool.eq_false_iff.1 hb)]
  · rename_i hno
    constructor
    · intro h
      cases h
    · exact fun h => absurd h.1 (hno s)

theorem selector?_eq_none_iff : raw.selector? = none ↔ ∀ s, ¬ raw.Names s := by
  simp only [Option.eq_none_iff_forall_ne_some, Ne, selector?_eq_some_iff]

/-- The keys that are read from a list. -/
theorem keysOf_filterMap (items : List Json) : KeysOf items (items.filterMap key?) := by
  induction items with
  | nil => exact .nil
  | cons item items ih =>
    cases item with
    | string s => exact .text s ih
    | number n => exact .number n ih
    | _ => exact .other (fun h => by cases h) ih

/-- The keys of a list are none if it has no text and no number. -/
theorem KeysOf.eq_nil_iff {items : List Json} {keys : List String} (h : KeysOf items keys) :
    keys = [] ↔ ∀ item ∈ items, ¬ IsKey item := by
  induction h with
  | nil => simp
  | text s => simp [IsKey.text]
  | number n => simp [IsKey.number]
  | other hitem _ ih => simp [ih, hitem]

/-- There are keys to be read, or there are none. -/
theorem keys_eq_nil_iff : raw.keys = [] ↔ ¬ raw.HasKeys := by
  unfold Instruction.keys HasKeys
  split
  · rename_i items hitems
    simp [hitems, (keysOf_filterMap items).eq_nil_iff]
  · rename_i s hs
    by_cases he : s = ""
    · simp [hs, he]
    · simp [hs, he]
  · rename_i hitems hs
    refine ⟨fun _ => ?_, fun _ => rfl⟩
    rintro (⟨s, h, -⟩ | ⟨items, h, -⟩)
    · exact hs s h
    · exact hitems items h

/-- The keys that are read. -/
theorem spells_keys (h : raw.keys ≠ []) : raw.Spells raw.keys := by
  unfold Instruction.keys at h ⊢
  split
  · rename_i items hitems
    exact .listed hitems (keysOf_filterMap items)
  · rename_i s hs
    rw [hs] at h
    split
    · rename_i he
      exact absurd (if_pos he) h
    · rename_i he
      exact .single hs fun hempty => he (hempty ▸ rfl)
  · rename_i hitems hs
    split at h
    · exact absurd ‹_› (hitems _)
    · exact absurd ‹_› (hs _)
    · exact absurd rfl h

/-- The three ways of scrolling are known by their names. -/
theorem ofName?_eq_none_iff {name : String} :
    ScrollBehavior.ofName? name = none ↔ name ∉ ["smooth", "instant", "auto"] := by
  unfold ScrollBehavior.ofName?
  split <;> simp_all

/-- The way of scrolling is wrong if it is a text that names none. -/
theorem behavior_eq_error_iff {e : ActionError} :
    raw.behavior = .error e ↔ ∃ name, raw.get? "behavior" = some (.string name) ∧
      name ∉ ["smooth", "instant", "auto"] ∧ e = .invalid (.unsupportedBehavior name) := by
  unfold behavior
  split
  · rename_i name hname
    simp only [hname, Option.some.injEq, Json.string.injEq, exists_eq_left',
      ← ofName?_eq_none_iff]
    cases ScrollBehavior.ofName? name with
    | none => simp [eq_comm]
    | some b => simp
  · rename_i hno
    refine ⟨fun h => (by cases h), ?_⟩
    rintro ⟨name, hname, -⟩
    exact absurd hname (hno name)

end Instruction

/-! ## Steps of instructions -/

namespace Step

open Instruction

/-- A step is that of an instruction of a kind. -/
structure Renders (kind : ActionKind) (raw : Instruction) (step : Step) : Prop where
  sameKind : step.kind = kind
  /-- the selector is unchanged; a step that waits or scrolls has none -/
  selector : ∀ s, step.selector = some s ↔ kind ≠ .wait ∧ kind ≠ .scroll ∧ raw.Names s
  /-- a step that presses keys has some -/
  keys : ∀ given keys delay, step = .keySequence given keys delay → keys ≠ [] ∧ raw.Spells keys

/-- What may come of an instruction: it is refused for a reason, or it gives a step of its own and
there is no reason to refuse it. -/
def Judged (kind : ActionKind) (raw : Instruction) : Except ActionError Step → Prop
  | .error e => ∃ reason, e = .invalid reason ∧ Unfit kind raw reason.message
  | .ok step => step.Renders kind raw ∧ ∀ text, ¬ Unfit kind raw text

variable {kind : ActionKind} {raw : Instruction}

/-- The message about a selector. -/
theorem message_missing_selector (name : String) :
    (Invalidity.missing name "selector").message = name ++ " requires selector" := by
  rw [Invalidity.message, String.append_assoc]
  rfl

/-- A kind that requires a selector. -/
theorem judged_required {f : String → Step} (hkind : kind.requiresSelector = true)
    (hf : ∀ s, (f s).kind = kind ∧ (f s).selector = some s) :
    Judged kind raw ((requiredSelector kind raw).map f) := by
  unfold requiredSelector
  split
  · rename_i s hs
    have hnames : raw.Names s := selector?_eq_some_iff.1 hs
    have hother : kind ≠ .wait ∧ kind ≠ .scroll ∧ kind ≠ .keySequence := by
      refine ⟨?_, ?_, ?_⟩ <;> rintro rfl <;> cases hkind
    refine ⟨⟨(hf s).1, fun t => ?_, ?_⟩, ?_⟩
    · rw [(hf s).2, ← selector?_eq_some_iff, hs]
      exact ⟨fun h => ⟨hother.1, hother.2.1, h⟩, fun h => h.2.2⟩
    · intro given keys delay h
      have hk := (hf s).1
      rw [h] at hk
      exact absurd hk.symm hother.2.2
    · intro text h
      cases h with
      | selector _ h => exact h s hnames
      | keys h => exact hother.2.2 h
      | behavior h => exact hother.2.1 h
  · rename_i hs
    refine ⟨_, rfl, ?_⟩
    rw [message_missing_selector]
    exact .selector hkind (selector?_eq_none_iff.1 hs)

/-- **Judgements.** An instruction is refused for a reason or gives a step of its own. -/
theorem judged_decode (kind : ActionKind) (raw : Instruction) :
    Judged kind raw (decode kind raw) := by
  cases kind with
  | wait =>
    refine ⟨⟨rfl, fun s => ?_, fun _ _ _ h => by cases h⟩, fun text h => ?_⟩
    · exact ⟨fun h => (by cases h), fun h => absurd rfl h.1⟩
    · cases h with
      | selector h => cases h
      | keys h => cases h
      | behavior h => cases h
  | scroll =>
    cases hb : raw.behavior with
    | error e =>
      rw [decode, hb]
      obtain ⟨name, hname, hno, rfl⟩ := behavior_eq_error_iff.1 hb
      exact ⟨_, rfl, .behavior rfl hname hno⟩
    | ok behavior =>
      rw [decode, hb]
      refine ⟨⟨rfl, fun s => ?_, fun _ _ _ h => by cases h⟩, fun text h => ?_⟩
      · exact ⟨fun h => (by cases h), fun h => absurd rfl h.2.1⟩
      · cases h with
        | selector h => cases h
        | keys h => cases h
        | behavior _ hname hno =>
          rw [behavior_eq_error_iff.2 ⟨_, hname, hno, rfl⟩] at hb
          cases hb
  | keySequence =>
    rw [decode]
    split
    · rename_i hkeys
      exact ⟨_, rfl, .keys rfl (keys_eq_nil_iff.1 hkeys)⟩
    · rename_i hkeys
      refine ⟨⟨rfl, fun s => ?_, ?_⟩, fun text h => ?_⟩
      · rw [← selector?_eq_some_iff]
        exact ⟨fun h => ⟨nofun, nofun, h⟩, fun h => h.2.2⟩
      · intro given keys delay h
        cases h
        exact ⟨hkeys, spells_keys hkeys⟩
      · cases h with
        | selector h => cases h
        | keys _ h => exact hkeys (keys_eq_nil_iff.2 h)
        | behavior h => cases h
  | _ => exact judged_required rfl fun _ => ⟨rfl, rfl⟩

/-- **Decoding.** An instruction of a kind is refused exactly if the kind requires a selector and it
names none, if it is to press keys and has none, or if it is to scroll in a way that is none; the
message says which. Any other instruction gives a step of its kind, with its selector and its
keys. -/
theorem decode_decides (kind : ActionKind) (raw : Instruction) :
    (∀ text, (∃ reason, decode kind raw = .error (.invalid reason) ∧ reason.message = text) ↔
      Unfit kind raw text) ∧
    ((∃ text, Unfit kind raw text) ∨
      ∃ step, decode kind raw = .ok step ∧ step.Renders kind raw) := by
  have hjudged := judged_decode kind raw
  cases hd : decode kind raw with
  | error e =>
    rw [hd] at hjudged
    obtain ⟨reason, rfl, hunfit⟩ := hjudged
    refine ⟨fun text => ⟨?_, fun h => ⟨reason, rfl, hunfit.unique h⟩⟩, .inl ⟨_, hunfit⟩⟩
    rintro ⟨_, h, rfl⟩
    cases h
    exact hunfit
  | ok step =>
    rw [hd] at hjudged
    refine ⟨fun text => ⟨?_, fun h => absurd h (hjudged.2 text)⟩, .inr ⟨step, rfl, hjudged.1⟩⟩
    rintro ⟨_, h, -⟩
    cases h

/-- The keys of a list are its texts and numbers; a blank selector is none. -/
example : decode .keySequence [("selector", .string " \t"),
      ("keys", .array [.string "a", .null, .ofNat 1, .bool true])] =
    .ok (.keySequence none ["a", "1"] 100) := rfl

end Step

end FormRehearsal
