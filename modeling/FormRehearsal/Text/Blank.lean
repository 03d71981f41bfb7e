/-
# Blank characters and trimming

The characters that count as blank are those of the Unicode property White_Space. `trim` drops
them from both ends of a text and nothing else:

* `trimStart_blank_append` : leading blanks do not survive;
* `trim_eq_self` : a text without blank ends is left alone;
* `unpadded_trim` : a trimmed text has no blank ends.
-/

namespace FormRehearsal.Text

/-- A character with the Unicode property White_Space. -/
def isBlank (c : Char) : Bool :=
  let n := c.toNat
  (0x09 ≤ n && n ≤ 0x0D) || n == 0x20 || n == 0x85 || n == 0xA0 || n == 0x1680 ||
    (0x2000 ≤ n && n ≤ 0x200A) || n == 0x2028 || n == 0x2029 || n == 0x202F || n == 0x205F ||
    n == 0x3000

/-- The text from its first character that is not blank. -/
def trimStart (s : List Char) : List Char := s.dropWhile isBlank

/-- The text up to its last character that is not blank. -/
def trimEnd (s : List Char) : List Char := (s.reverse.dropWhile isBlank).reverse

/-- The text between its first and its last character that is not blank. -/
def trim (s : List Char) : List Char := trimEnd (trimStart s)

/-- `trim` on strings. -/
def trimmed (s : String) : String := String.ofList (trim s.toList)

/-- A text that holds no character other than blanks. -/
def isBlankText (s : String) : Bool := s.toList.all isBlank

/-! ## Facts about trimming -/

/-- Core's ASCII blanks are blank. -/
theorem isBlank_of_isWhitespace {c : Char} (h : c.isWhitespace = true) : isBlank c = true := by
  simp only [Char.isWhitespace, Bool.or_eq_true, decide_eq_true_eq] at h
  rcases h with ((h | h) | h) | h <;> subst h <;> decide

/-- No digit is blank. -/
theorem isBlank_of_isDigit {c : Char} (h : c.isDigit = true) : isBlank c = false := by
  have hrange : 0x30 ≤ c.toNat ∧ c.toNat ≤ 0x39 := by
    simp only [Char.isDigit, Bool.and_eq_true, decide_eq_true_eq, ge_iff_le,
      UInt32.le_iff_toNat_le] at h
    exact h
  cases hb : isBlank c with
  | false => rfl
  | true =>
    simp only [isBlank, Bool.or_eq_true, Bool.and_eq_true, decide_eq_true_eq, beq_iff_eq] at hb
    omega

/-- Leading blanks do not survive. -/
theorem trimStart_blank_append {b s : List Char} (h : b.all isBlank = true) :
    trimStart (b ++ s) = trimStart s := by
  simp only [trimStart]
  exact List.dropWhile_append_of_pos (by simpa using h)

/-- A text that starts with no blank starts where it did. -/
theorem trimStart_eq_self {s : List Char} (h : ∀ c ∈ s.head?, isBlank c = false) :
    trimStart s = s := by
  cases s with
  | nil => rfl
  | cons c r => simp [trimStart, h c (by simp)]

/-- A text that ends with no blank ends where it did. -/
theorem trimEnd_eq_self {s : List Char} (h : ∀ c ∈ s.getLast?, isBlank c = false) :
    trimEnd s = s := by
  have h' : trimStart s.reverse = s.reverse := trimStart_eq_self (by simpa using h)
  simp only [trimStart] at h'
  simp [trimEnd, h']

/-- A text without blank ends is left alone. -/
theorem trim_eq_self {s : List Char} (hs : ∀ c ∈ s.head?, isBlank c = false)
    (he : ∀ c ∈ s.getLast?, isBlank c = false) : trim s = s := by
  rw [trim, trimStart_eq_self hs, trimEnd_eq_self he]

theorem trim_blank_append {b : List Char} (h : b.all isBlank = true) (s : List Char) :
    trim (b ++ s) = trim s := by
  rw [trim, trimStart_blank_append h, trim]

/-- Nor do blanks in the end. -/
theorem trim_append_blank (s : List Char) {b : List Char} (h : b.all isBlank = true) :
    trim (s ++ b) = trim s := by
  have hend : ∀ t, trimEnd (t ++ b) = trimEnd t := by
    intro t
    have hrev : b.reverse.all isBlank = true := by rwa [List.all_reverse]
    have hstart := trimStart_blank_append (s := t.reverse) hrev
    simp only [trimStart] at hstart
    rw [trimEnd, List.reverse_append, hstart, trimEnd]
  have hb : trimStart b = [] := by
    rw [← List.append_nil b, trimStart_blank_append h]
    rfl
  rw [trim, trimStart, List.dropWhile_append]
  split
  · rename_i hs
    have hnil : trimStart s = [] := by simpa [trimStart] using hs
    rw [← trimStart, hb, trim, hnil]
  · rw [hend]
    rfl

/-- What is left of a trimmed text is in the text. -/
theorem trim_sublist (s : List Char) : (trim s).Sublist s := by
  have hstart : (trimStart s).Sublist s := List.dropWhile_sublist isBlank
  have hend : (trimEnd (trimStart s)).Sublist (trimStart s) := by
    have h := (List.dropWhile_sublist isBlank (l := (trimStart s).reverse)).reverse
    rwa [List.reverse_reverse] at h
  exact hend.trans hstart

/-- A character that is not blank is not dropped with leading blanks. -/
theorem mem_trimStart {s : List Char} {c : Char} (hc : c ∈ s) (hb : isBlank c = false) :
    c ∈ trimStart s := by
  rw [← List.takeWhile_append_dropWhile (p := isBlank) (l := s)] at hc
  rcases List.mem_append.1 hc with hc | hc
  · have h := List.all_eq_true.1 List.all_takeWhile c hc
    rw [hb] at h
    cases h
  · exact hc

/-- Nor is it dropped at either end. -/
theorem mem_trim {s : List Char} {c : Char} (hc : c ∈ s) (hb : isBlank c = false) : c ∈ trim s := by
  rw [trim, trimEnd, List.mem_reverse]
  exact mem_trimStart (List.mem_reverse.2 (mem_trimStart hc hb)) hb

/-- A text is its trimmed form between blanks. -/
theorem exists_trim_between (s : List Char) :
    ∃ before after, before.all isBlank ∧ after.all isBlank ∧ s = before ++ trim s ++ after := by
  refine ⟨s.takeWhile isBlank, ((trimStart s).reverse.takeWhile isBlank).reverse,
    List.all_takeWhile, by rw [List.all_reverse]; exact List.all_takeWhile, ?_⟩
  rw [trim, trimEnd, List.append_assoc, ← List.reverse_append, List.takeWhile_append_dropWhile,
    List.reverse_reverse, trimStart, List.takeWhile_append_dropWhile]

theorem head_trimStart (s : List Char) : ∀ c ∈ (trimStart s).head?, isBlank c = false := by
  intro c hc
  have h := List.head?_dropWhile_not isBlank s
  rw [trimStart] at hc
  rw [hc] at h
  exact h

/-- Neither end of a text is blank. -/
structure Unpadded (s : List Char) : Prop where
  head : ∀ c ∈ s.head?, isBlank c = false
  last : ∀ c ∈ s.getLast?, isBlank c = false

instance (s : List Char) : Decidable (Unpadded s) :=
  decidable_of_iff (s.head?.all (!isBlank ·) = true ∧ s.getLast?.all (!isBlank ·) = true) <| by
    simp only [Option.all_eq_true, Bool.not_eq_true', ← Option.mem_def]
    exact ⟨fun h => ⟨h.1, h.2⟩, fun h => ⟨h.head, h.last⟩⟩

theorem unpadded_nil : Unpadded [] where
  head := fun c hc => by cases hc
  last := fun c hc => by cases hc

/-- A text without blanks has none at its ends. -/
theorem unpadded_of_forall {s : List Char} (h : ∀ c ∈ s, isBlank c = false) : Unpadded s where
  head := fun c hc => h c (List.mem_of_mem_head? hc)
  last := fun c hc => h c (List.mem_of_mem_getLast? hc)

theorem Unpadded.trim_eq {s : List Char} (h : Unpadded s) : trim s = s := trim_eq_self h.head h.last

/-- Trimming leaves no blank at either end. -/
theorem unpadded_trim (s : List Char) : Unpadded (trim s) where
  head := by
    -- the text without its blank end begins where it did
    intro c hc
    obtain ⟨t, ht⟩ : ∃ t, trimStart s = trim s ++ t := by
      refine ⟨((trimStart s).reverse.takeWhile isBlank).reverse, ?_⟩
      rw [trim, trimEnd, ← List.reverse_append, List.takeWhile_append_dropWhile,
        List.reverse_reverse]
    apply head_trimStart s c
    rw [ht, List.head?_append, hc]
    rfl
  last := by
    intro c hc
    rw [trim, trimEnd, List.getLast?_reverse] at hc
    exact head_trimStart (trimStart s).reverse c hc

end FormRehearsal.Text
