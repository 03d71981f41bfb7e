/-
# Fields of milliseconds

Four kinds of actions have a field of milliseconds. It holds a number, or a text that spells one,
since placeholders leave texts. A whole number stands for as many milliseconds, exactly up to 2^53
and rounded from there on; below zero it stands for none, and beyond 64 bits for the greatest number
that they hold. A text that spells a whole number stands for the same, whatever its sign, zeros and
blanks look like, and in neither case does the default of the field matter.

* `millis_whole`, `millis_spelled` : what a number and a text that spells it stand for;
* `decode_of_millis` : a step is decoded from its milliseconds and its other fields;
* `measures_millis` : how whole numbers are measured in all such fields.
-/
import FormRehearsal.Action.Step
import FormRehearsal.Proofs.Number.Whole

namespace FormRehearsal

/-! ## Whole numbers as texts -/

namespace Text

/-- The signs that a whole number may have. Zero may have either one. -/
inductive SignOf (n : Int) : List Char → Prop
  | none (h : 0 ≤ n) : SignOf n []
  | plus (h : 0 ≤ n) : SignOf n ['+']
  | minus (h : n ≤ 0) : SignOf n ['-']

/-- A text spells a whole number: between blanks it has a sign or none, and then digits, of which
any number may be zeros at the start. -/
def Spells (s : String) (n : Int) : Prop :=
  ∃ before sign digits after : List Char, s.toList = before ++ (sign ++ digits) ++ after ∧
    before.all isBlank = true ∧ after.all isBlank = true ∧ SignOf n sign ∧
    digits ≠ [] ∧ (∀ c ∈ digits, c.isDigit = true) ∧ Nat.ofDigitChars 10 digits 0 = n.natAbs

/-- Digits have no sign in front of them. -/
theorem signed_digits {digits : List Char} (h : ∀ c ∈ digits, c.isDigit = true) :
    Binary64.signed digits = (false, digits) := by
  unfold Binary64.signed
  split
  · exact absurd (h '-' List.mem_cons_self) (by decide)
  · exact absurd (h '+' List.mem_cons_self) (by decide)
  · rfl

/-- A sign that a number may have is read as the sign of the number. -/
theorem SignOf.signed {n : Int} {sign digits : List Char} (h : SignOf n sign)
    (hdigits : ∀ c ∈ digits, c.isDigit = true) :
    ∃ negative, Binary64.signed (sign ++ digits) = (negative, digits) ∧
      (n < 0 → negative = true) ∧ (0 < n → negative = false) := by
  cases h with
  | none h => exact ⟨false, signed_digits hdigits, fun hn => absurd hn (by omega), fun _ => rfl⟩
  | plus h => exact ⟨false, rfl, fun hn => absurd hn (by omega), fun _ => rfl⟩
  | minus h => exact ⟨true, rfl, fun _ => rfl, fun hn => absurd hn (by omega)⟩

/-- A sign is no blank. -/
theorem SignOf.not_blank {n : Int} {sign : List Char} (h : SignOf n sign) :
    ∀ c ∈ sign, isBlank c = false := by
  cases h with
  | none => exact List.forall_mem_nil _
  | plus => exact List.forall_mem_singleton.2 (by decide)
  | minus => exact List.forall_mem_singleton.2 (by decide)

end Text

namespace Instruction

/-! ## What a field stands for -/

/-- A field holds a whole number of 64 bits, without a sign or below zero with one. -/
def HoldsWhole (raw : Instruction) (name : String) (n : Int) : Prop :=
  ∃ h, raw.get? name = some (.number (.integer n h))

/-- The milliseconds that a whole number stands for. -/
def millisOf (n : Int) : Nat :=
  if n < 0 then 0 else min (Binary64.nearestWhole n.natAbs) (Text.wordLimit - 1)

variable {raw : Instruction} {name : String} {n : Int} {s : String}

theorem natAbs_lt_of_holdsWhole (h : raw.HoldsWhole name n) : n.natAbs < Text.wordLimit := by
  obtain ⟨hrange, -⟩ := h
  simp only [Text.halfWord, Text.wordLimit] at hrange ⊢
  omega

/-- A text that spells a whole number is read as the double nearest to it. -/
theorem binary64?_of_spells (h : Text.Spells s n) (hn : n.natAbs < Text.wordLimit) :
    ∃ negative, binary64? s = some (Binary64.nearest negative n.natAbs 1) ∧
      (n < 0 → negative = true) ∧ (0 < n → negative = false) := by
  obtain ⟨before, sign, digits, after, hs, hbefore, hafter, hsign, hne, hdigits, hvalue⟩ := h
  obtain ⟨negative, hsigned, hbelow, habove⟩ := hsign.signed hdigits
  have hmiddle : Text.Unpadded (sign ++ digits) := by
    refine Text.unpadded_of_forall fun c hc => ?_
    rcases List.mem_append.1 hc with hc | hc
    · exact hsign.not_blank c hc
    · exact Text.isBlank_of_isDigit (hdigits c hc)
  have htrim : Text.trim s.toList = sign ++ digits := by
    rw [hs, Text.trim_append_blank _ hafter, Text.trim_blank_append hbefore, hmiddle.trim_eq]
  rw [← Text.numeral_eq] at hvalue
  rw [← hvalue] at hn
  refine ⟨negative, ?_, hbelow, habove⟩
  rw [binary64?, htrim, Binary64.read?_numeral hsigned hne hdigits hn, hvalue]

/-- The double nearest to a whole number stands for the same milliseconds; the sign of zero makes no
difference. -/
theorem toWord?_eq_millisOf {negative : Bool} (hbelow : n < 0 → negative = true)
    (habove : 0 < n → negative = false) (hn : n.natAbs < Text.wordLimit) :
    Binary64.toWord? (Binary64.nearest negative n.natAbs 1) = some (millisOf n) := by
  rw [Binary64.toWord?_nearest negative hn, millisOf]
  rcases Int.lt_trichotomy n 0 with hlt | rfl | hgt
  · rw [hbelow hlt, if_pos rfl, if_pos hlt]
  · cases negative <;> rfl
  · rw [habove hgt, if_neg Bool.false_ne_true, if_neg (Int.not_lt.2 (Int.le_of_lt hgt))]

/-- The milliseconds of a field that holds a whole number. -/
theorem millis_whole (h : raw.HoldsWhole name n) (byDefault : Nat) :
    raw.millis name byDefault = millisOf n := by
  have hn := natAbs_lt_of_holdsWhole h
  obtain ⟨hrange, hget⟩ := h
  have hword : Binary64.toWord? (Binary64.nearest (decide (n < 0)) n.natAbs 1) =
      some (millisOf n) := by
    refine toWord?_eq_millisOf decide_eq_true (fun hpos => decide_eq_false ?_) hn
    exact Int.not_lt.2 (Int.le_of_lt hpos)
  simp only [millis, hget, Json.Number.toBinary64, Binary64.ofInt, Option.bind_some, hword,
    Option.getD_some]

/-- The milliseconds of a field that holds a text which spells a whole number. -/
theorem millis_spelled (hget : raw.get? name = some (.string s)) (h : Text.Spells s n)
    (hn : n.natAbs < Text.wordLimit) (byDefault : Nat) :
    raw.millis name byDefault = millisOf n := by
  obtain ⟨negative, hread, hbelow, habove⟩ := binary64?_of_spells h hn
  simp only [millis, hget, hread, Option.bind_some, toWord?_eq_millisOf hbelow habove hn,
    Option.getD_some]

/-- A greater number does not stand for fewer milliseconds. -/
theorem millisOf_mono {a b : Int} (h : a ≤ b) : millisOf a ≤ millisOf b := by
  unfold millisOf
  split
  · exact Nat.zero_le _
  · rw [if_neg (by omega)]
    have hround : Binary64.nearestWhole a.natAbs ≤ Binary64.nearestWhole b.natAbs :=
      Binary64.nearestWhole_mono (by omega)
    omega

theorem millisOf_of_neg (h : n < 0) : millisOf n = 0 := if_pos h

/-- Up to 2^53 a number stands for as many milliseconds. -/
theorem millisOf_of_le (h₀ : 0 ≤ n) (h₁ : n ≤ 2 ^ 53) : (millisOf n : Int) = n := by
  have hn : n.natAbs ≤ 2 ^ 53 := by omega
  rw [millisOf, if_neg (by omega), Binary64.nearestWhole_of_le hn]
  simp only [Text.wordLimit]
  omega

/-- No field stands for more milliseconds than 64 bits hold. -/
theorem millis_lt (raw : Instruction) (name : String) {byDefault : Nat}
    (h : byDefault < Text.wordLimit) : raw.millis name byDefault < Text.wordLimit := by
  have hvalue : ∀ value : Option Binary64,
      (value.bind Binary64.toWord?).getD byDefault < Text.wordLimit := by
    intro value
    cases hw : value.bind Binary64.toWord? with
    | none => exact h
    | some w =>
      obtain ⟨x, -, hx⟩ := Option.bind_eq_some_iff.1 hw
      exact Binary64.toWord?_lt hx
  exact hvalue _

end Instruction

/-! ## Steps with milliseconds -/

/-- The field of milliseconds that a kind of actions has, and its default. -/
def ActionKind.timing? : ActionKind → Option (String × Nat)
  | wait => some ("ms", Step.defaultWait)
  | waitFor => some ("timeoutMs", Step.defaultBudget)
  | keySequence => some ("delayMs", Step.defaultDelay)
  | highlight => some ("durationMs", Step.defaultHighlight)
  | click | type | paste | scroll | focus | setValue => none

/-- The milliseconds of a step. -/
def Step.timing? : Step → Option Nat
  | wait ms => some ms
  | waitFor _ budget => some budget
  | keySequence _ _ delay => some delay
  | highlight _ duration => some duration
  | click .. | type .. | paste .. | scroll .. | focus .. | setValue .. => none

namespace Step

variable {kind : ActionKind} {name : String} {byDefault : Nat}

/-- A step has the milliseconds of its field. -/
theorem timing?_of_decode (hk : kind.timing? = some (name, byDefault)) {raw : Instruction}
    {step : Step} (h : decode kind raw = .ok step) :
    step.timing? = some (raw.millis name byDefault) := by
  cases kind with
  | wait =>
    cases hk
    cases h
    rfl
  | waitFor | highlight =>
    cases hk
    simp only [decode] at h
    cases hs : requiredSelector _ raw with
    | error e => rw [hs] at h; cases h
    | ok s => rw [hs] at h; cases h; rfl
  | keySequence =>
    cases hk
    simp only [decode] at h
    split at h
    · cases h
    · cases h
      rfl
  | _ => cases hk

/-- A step is decoded from its milliseconds and its other fields. -/
theorem decode_of_millis (hk : kind.timing? = some (name, byDefault)) {a b : Instruction}
    (hother : ∀ other, other ≠ name → a.get? other = b.get? other)
    (hm : a.millis name byDefault = b.millis name byDefault) : decode kind a = decode kind b := by
  cases kind with
  | wait =>
    cases hk
    simp only [decode, hm]
  | waitFor | highlight =>
    cases hk
    have hselector := hother "selector" (by decide)
    simp only [decode, requiredSelector, Instruction.selector?, hselector, hm]
  | keySequence =>
    cases hk
    have hselector := hother "selector" (by decide)
    have hkeys := hother "keys" (by decide)
    simp only [decode, Instruction.selector?, Instruction.keys, hselector, hkeys, hm]
  | _ => cases hk

end Step

/-! ## Measuring -/

/-- How whole numbers are measured in a field of milliseconds with a default. -/
structure Instruction.Measures (name : String) (byDefault : Nat) : Prop where
  /-- a greater number does not stand for fewer milliseconds -/
  monotone : ∀ {raw other : Instruction} {a b : Int}, raw.HoldsWhole name a →
    other.HoldsWhole name b → a ≤ b → raw.millis name byDefault ≤ other.millis name byDefault
  negative : ∀ {raw : Instruction} {n : Int}, raw.HoldsWhole name n → n < 0 →
    raw.millis name byDefault = 0
  exact : ∀ {raw : Instruction} {n : Int}, raw.HoldsWhole name n → 0 ≤ n → n ≤ 2 ^ 53 →
    (raw.millis name byDefault : Int) = n
  bounded : ∀ raw : Instruction, raw.millis name byDefault ≤ 2 ^ 64 - 1
  /-- a text that spells a number stands for the same as the number, whatever the defaults are -/
  spelled : ∀ {raw other : Instruction} {n : Int} {s : String}, raw.get? name = some (.string s) →
    Text.Spells s n → other.HoldsWhole name n →
    ∀ otherDefault, raw.millis name byDefault = other.millis name otherDefault
  /-- the steps with such a field have its milliseconds -/
  decoded : ∀ {kind : ActionKind}, kind.timing? = some (name, byDefault) →
    ∀ {raw : Instruction} {step : Step}, Step.decode kind raw = .ok step →
      step.timing? = some (raw.millis name byDefault)
  /-- and it makes no difference to them whether it holds a number or a text that spells it -/
  templated : ∀ {kind : ActionKind}, kind.timing? = some (name, byDefault) →
    ∀ (raw : Instruction) {n : Int} {s : String} (hn : -Text.halfWord ≤ n ∧ n < Text.wordLimit),
      Text.Spells s n → Step.decode kind (raw.put name (.string s)) =
        Step.decode kind (raw.put name (.number (.integer n hn)))

/-- **Milliseconds.** Whole numbers are measured without wrapping around, and they are measured the
same when they are spelled by a text. -/
theorem Instruction.measures_millis (name : String) {byDefault : Nat} (h : byDefault < 2 ^ 64) :
    Measures name byDefault := by
  constructor
  case monotone =>
    intro raw other a b ha hb hab
    rw [millis_whole ha, millis_whole hb]
    exact millisOf_mono hab
  case negative =>
    intro raw n hn hneg
    rw [millis_whole hn, millisOf_of_neg hneg]
  case exact =>
    intro raw n hn h₀ h₁
    rw [millis_whole hn, millisOf_of_le h₀ h₁]
  case bounded => exact fun raw => Nat.le_sub_one_of_lt (millis_lt raw name h)
  case spelled =>
    intro raw other n s hget hspells hother otherDefault
    rw [millis_spelled hget hspells (natAbs_lt_of_holdsWhole hother), millis_whole hother]
  case decoded => exact fun hk _ _ hd => Step.timing?_of_decode hk hd
  case templated =>
    intro kind hk raw n s hn hspells
    have hwhole : HoldsWhole (raw.put name (.number (.integer n hn))) name n :=
      ⟨hn, Record.get?_put_self name _ raw⟩
    have htext : (raw.put name (.string s)).get? name = some (.string s) :=
      Record.get?_put_self name _ raw
    apply Step.decode_of_millis hk
    · intro other hne
      rw [Record.get?_put_of_ne _ raw hne, Record.get?_put_of_ne _ raw hne]
    · rw [millis_spelled htext hspells (natAbs_lt_of_holdsWhole hwhole), millis_whole hwhole]

/-- A highlight whose length is a text with blanks, a sign and zeros. -/
theorem Instruction.measures_millis_spelled :
    let raw : Instruction := [("selector", .string "#a"), ("durationMs", .string "\t+007 ")]
    Step.defaultHighlight < 2 ^ 64 ∧ Text.Spells "\t+007 " 7 ∧
      Step.decode .highlight raw = .ok (.highlight "#a" 7) := by
  intro raw
  have hdefault : Step.defaultHighlight < 2 ^ 64 := by decide
  have hspells : Text.Spells "\t+007 " 7 :=
    ⟨['\t'], ['+'], ['0', '0', '7'], [' '], by decide, by decide, by decide, .plus (by decide),
      by decide, List.all_eq_true.1 (by decide), by decide⟩
  refine ⟨hdefault, hspells, ?_⟩
  have hwhole : HoldsWhole [("durationMs", .number (.integer 7 (by decide)))] "durationMs" 7 :=
    ⟨by decide, rfl⟩
  have hmeasures := measures_millis "durationMs" hdefault
  have hmillis : raw.millis "durationMs" Step.defaultHighlight = 7 := by
    rw [hmeasures.spelled rfl hspells hwhole Step.defaultHighlight]
    exact Int.ofNat_inj.1 (hmeasures.exact hwhole (by decide) (by decide))
  have hselector : Step.requiredSelector .highlight raw = .ok "#a" := by rfl
  rw [Step.decode, hmillis, hselector]
  rfl

end FormRehearsal
