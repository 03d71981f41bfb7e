/-
# Strings and whole numbers that are written

What is written of a string or of a whole number is read as that string or number, and the reader
stops where it ends. In a string every character gives way to an escape or to itself, and none of
these is a quote that could end the string. The digits of a number end where no digit follows, so a
whole number is read if what follows it is the end of a value.

* `stringBody_flatMap_escaped` : a string is read up to its closing quote;
* `signedNumber_integerText` : a whole number is read up to its last digit.
-/
import FormRehearsal.Json.Printer
import FormRehearsal.Json.Reader
import FormRehearsal.Text.Split

namespace FormRehearsal

namespace Json.Reader

/-! ## Reading up to a rest -/

/-- The reader of `s` gives `a` and leaves `rest`. -/
def Reads {α : Type} {s : List Char} (read : Read α s) (a : α) (rest : List Char) : Prop :=
  ∃ h, read = .ok (a, ⟨rest, h⟩)

/-! ## Strings -/

/-- Four hexadecimal digits are read as the number below 2^16 that they were written for. -/
theorem hexWord_hexDigits {n : Nat} (h : n < 65536) (rest : List Char) :
    hexWord (Text.hexDigits 4 n ++ rest) = .ok (n, rest) := by
  have hdigits : Text.hexDigits 4 n ++ rest = Text.hexDigit (n / 16 / 16 / 16 % 16) ::
      Text.hexDigit (n / 16 / 16 % 16) :: Text.hexDigit (n / 16 % 16) :: Text.hexDigit (n % 16) ::
        rest := rfl
  have hdigit : ∀ m, Text.hexValue? (Text.hexDigit (m % 16)) = some (m % 16) := fun m =>
    Text.hexValue?_hexDigit (Nat.mod_lt m (by decide))
  rw [hdigits, hexWord]
  simp only [hdigit]
  congr 2
  omega

/-- A character that is written after a backslash is read as itself; every other one is neither a
quote nor a backslash nor below the space. -/
theorem escape_escaped (c : Char) :
    (∃ e, escaped c = '\\' :: e ∧ ∀ rest, escape (e ++ rest) = .ok (c, rest)) ∨
      (escaped c = [c] ∧ c ≠ '"' ∧ c ≠ '\\' ∧ ¬ c.toNat < 0x20) := by
  by_cases hspecial : c ∈ ['"', '\\', '\x08', '\x0c', '\n', '\r', '\t']
  · simp only [List.mem_cons, List.not_mem_nil, or_false] at hspecial
    rcases hspecial with rfl | rfl | rfl | rfl | rfl | rfl | rfl <;>
      exact .inl ⟨_, rfl, fun _ => rfl⟩
  · simp only [List.mem_cons, List.not_mem_nil, or_false, not_or] at hspecial
    obtain ⟨hquote, hback, hb, hf, hn, hr, ht⟩ := hspecial
    rw [escaped, if_neg hquote, if_neg hback, if_neg hb, if_neg hf, if_neg hn, if_neg hr,
      if_neg ht]
    by_cases hlow : c.toNat < 0x20
    · rw [if_pos hlow]
      refine .inl ⟨_, rfl, fun rest => ?_⟩
      show numbered (Text.hexDigits 4 c.toNat ++ rest) = _
      rw [numbered, hexWord_hexDigits (Nat.lt_trans hlow (by decide))]
      simp only
      rw [if_neg (by omega), if_neg (by omega), Char.ofNat_toNat]
    · rw [if_neg hlow]
      exact .inr ⟨rfl, hquote, hback, hlow⟩

/-- After an escape the string goes on. -/
theorem stringBody_escape {s t cs rest : List Char} {c : Char} (h : escape s = .ok (c, t))
    (hcs : Reads (stringBody t) cs rest) : Reads (stringBody ('\\' :: s)) (c :: cs) rest := by
  obtain ⟨hlt, hcs⟩ := hcs
  refine ⟨Nat.lt_succ_of_lt (Nat.lt_trans hlt (length_escape h)), ?_⟩
  rw [stringBody]
  split
  · rename_i he
    rw [h] at he
    cases he
  · rename_i he
    rw [h] at he
    cases he
    simp only [hcs]

/-- After a character that stands for itself the string goes on. -/
theorem stringBody_plain {s cs rest : List Char} {c : Char} (hquote : c ≠ '"') (hback : c ≠ '\\')
    (hlow : ¬ c.toNat < 0x20) (hcs : Reads (stringBody s) cs rest) :
    Reads (stringBody (c :: s)) (c :: cs) rest := by
  obtain ⟨hlt, hcs⟩ := hcs
  refine ⟨Nat.lt_succ_of_lt hlt, ?_⟩
  rw [stringBody.eq_4 _ _ hquote hback, if_neg hlow]
  simp only [hcs]

/-- **Strings.** The characters of a string that was written are read up to its closing quote. -/
theorem stringBody_flatMap_escaped (cs rest : List Char) :
    Reads (stringBody (cs.flatMap escaped ++ '"' :: rest)) cs rest := by
  induction cs with
  | nil =>
    refine ⟨Nat.lt_succ_self _, ?_⟩
    show stringBody ('"' :: rest) = _
    rw [stringBody]
  | cons c cs ih =>
    rw [List.flatMap_cons, List.append_assoc]
    rcases escape_escaped c with ⟨e, he, hescape⟩ | ⟨hself, hquote, hback, hlow⟩
    · rw [he]
      exact stringBody_escape (hescape _) ih
    · rw [hself]
      exact stringBody_plain hquote hback hlow ih

/-! ## Whole numbers -/

/-- A value ends in front of such a text: nothing follows, or what comes after a value within an
array or an object. -/
def Ends (rest : List Char) : Prop := ∀ c ∈ rest.head?, c = ',' ∨ c = ']' ∨ c = '}'

theorem ends_nil : Ends [] := nofun

theorem ends_cons {c : Char} (h : c = ',' ∨ c = ']' ∨ c = '}') (rest : List Char) :
    Ends (c :: rest) := by
  intro d hd
  cases hd
  exact h

theorem Ends.isDigit {rest : List Char} (h : Ends rest) : ∀ c ∈ rest.head?, c.isDigit = false := by
  intro c hc
  rcases h c hc with rfl | rfl | rfl <;> rfl

/-- The digits of a number are read as its digits before the point. -/
theorem unsigned_digitsOf (negative : Bool) (n : Nat) {rest : List Char}
    (hrest : ∀ c ∈ rest.head?, c.isDigit = false) :
    unsigned negative (Text.digitsOf n ++ rest) = afterWhole negative (Text.digitsOf n) rest := by
  rcases Nat.eq_zero_or_pos n with rfl | hpos
  · show unsigned negative ('0' :: rest) = afterWhole negative ['0'] rest
    cases rest with
    | nil => rfl
    | cons c r =>
      have hc : ¬ c.isDigit = true := by simpa using hrest c rfl
      exact if_neg hc
  · obtain ⟨c, r, hn, hc, hr⟩ := Text.exists_digitsOf_eq_cons n
    obtain ⟨htake, hdrop⟩ := Text.span_append hr hrest
    rw [hn, List.cons_append, unsigned, if_pos hc, htake, hdrop]
    -- the first digit is no zero
    rintro rfl
    exact Text.head?_digitsOf hpos (congrArg List.head? hn)

/-- At the end of a value digits are read as the whole number of their value, if it has 64 bits. -/
theorem afterWhole_of_ends {negative : Bool} {digits rest : List Char} {n : Number}
    (hrest : Ends rest)
    (hn : (if negative then
        (if Text.numeral digits = 0 then none else Number.ofInt? (-(Text.numeral digits : Int)))
      else Number.ofInt? (Text.numeral digits)) = some n) :
    afterWhole negative digits rest = .ok (n, rest) := by
  unfold afterWhole
  simp only [hn]
  split
  · exact absurd (hrest '.' rfl) (by decide)
  · exact absurd (hrest 'e' rfl) (by decide)
  · exact absurd (hrest 'E' rfl) (by decide)
  · rfl

/-- **Whole numbers.** A whole number of 64 bits that was written is read up to its last digit. -/
theorem signedNumber_integerText {n : Int} (h : -Text.halfWord ≤ n ∧ n < Text.wordLimit)
    {rest : List Char} (hrest : Ends rest) :
    signedNumber (integerText n ++ rest) = .ok (.integer n h, rest) := by
  rw [integerText]
  by_cases hneg : n < 0
  · rw [if_pos hneg]
    show unsigned true (Text.digitsOf n.natAbs ++ rest) = _
    rw [unsigned_digitsOf true _ hrest.isDigit]
    apply afterWhole_of_ends hrest
    have habs : -(n.natAbs : Int) = n := by omega
    rw [Text.numeral_digitsOf, if_pos rfl, if_neg (by omega), habs, Number.ofInt?, dif_pos h]
  · rw [if_neg hneg]
    have habs : (n.natAbs : Int) = n := by omega
    have hsign : signedNumber (Text.digitsOf n.natAbs ++ rest) =
        unsigned false (Text.digitsOf n.natAbs ++ rest) := by
      obtain ⟨c, r, hn, hc, -⟩ := Text.exists_digitsOf_eq_cons n.natAbs
      rw [hn, List.cons_append, signedNumber]
      rintro t ht
      cases ht
      cases hc
    rw [hsign, unsigned_digitsOf false _ hrest.isDigit]
    apply afterWhole_of_ends hrest
    rw [Text.numeral_digitsOf, if_neg Bool.false_ne_true, habs, Number.ofInt?, dif_pos h]

end Json.Reader

end FormRehearsal
