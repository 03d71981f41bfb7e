/-
# Filling a text

A placeholder is written as two braces, blanks, a word that says what it refers to, blanks and two
braces. Filling looks for placeholders from the left only, but two of them never share a character:
the opening braces of a placeholder are the only ones that it holds. So what stands before and
behind a placeholder is filled as if it stood alone, and whatever is put in joins nothing.

* `placeholder?_eq_some_iff` : what is found at the start of a text is what is written there;
* `fill_append_placeholder` : a placeholder gives way to its meaning wherever it stands;
* `fill_of_free` : a text that holds no placeholder stays.
-/
import FormRehearsal.Program.Template
import FormRehearsal.Text.Split

namespace FormRehearsal.Template

/-! ## How placeholders are written -/

/-- The words within the braces. -/
inductive Placeholder.Word : Placeholder → List Char → Prop where
  | index : Word .index "index".toList
  | value : Word .value "value".toList
  | field (name : List Char) (hne : name ≠ []) (hname : ∀ c ∈ name, isNameChar c = true) :
    Word (.field name) ("row.".toList ++ name)

/-- The texts that are a placeholder. -/
def Placeholder.WrittenAs (p : Placeholder) (s : List Char) : Prop :=
  ∃ before word after : List Char, p.Word word ∧ (∀ c ∈ before, Text.isBlank c = true) ∧
    (∀ c ∈ after, Text.isBlank c = true) ∧
    s = ['{', '{'] ++ (before ++ (word ++ (after ++ ['}', '}'])))

/-- No part of a text is a placeholder. -/
def Free (s : List Char) : Prop := ∀ a t b p, s = a ++ t ++ b → ¬ Placeholder.WrittenAs p t

/-! ## What is found at the start of a text -/

/-- The characters of names lie between the dash and the last small letter. -/
theorem toNat_of_isNameChar {c : Char} (h : isNameChar c = true) :
    0x2D ≤ c.toNat ∧ c.toNat ≤ 0x7A := by
  delta isNameChar Char.isAlphanum Char.isAlpha Char.isUpper Char.isLower Char.isDigit at h
  simp only [Bool.or_eq_true, Bool.and_eq_true, decide_eq_true_eq, ge_iff_le,
    UInt32.le_iff_toNat_le] at h
  rcases h with (((⟨hl, hu⟩ | ⟨hl, hu⟩) | ⟨hl, hu⟩) | rfl) | rfl
  · exact ⟨Nat.le_trans (by decide) hl, Nat.le_trans hu (by decide)⟩
  · exact ⟨Nat.le_trans (by decide) hl, Nat.le_trans hu (by decide)⟩
  · exact ⟨Nat.le_trans (by decide) hl, Nat.le_trans hu (by decide)⟩
  · decide
  · decide

/-- A blank belongs to no name. -/
theorem isNameChar_of_isBlank {c : Char} (h : Text.isBlank c = true) : isNameChar c = false := by
  cases hc : isNameChar c with
  | false => rfl
  | true =>
    obtain ⟨hl, hu⟩ := toNat_of_isNameChar hc
    simp only [Text.isBlank, Bool.or_eq_true, Bool.and_eq_true, decide_eq_true_eq,
      beq_iff_eq] at h
    omega

theorem after?_eq_some_iff {word s r : List Char} : after? word s = some r ↔ s = word ++ r := by
  induction word generalizing s with
  | nil => simp [after?]
  | cons c word ih =>
    cases s with
    | nil => simp [after?]
    | cons d s =>
      by_cases hd : d = c
      · simp [after?, hd, ih]
      · simp [after?, hd]

/-- What a text refers to at its start is a word. -/
theorem word_of_reference? {s r : List Char} {p : Placeholder} (h : reference? s = some (p, r)) :
    ∃ word, p.Word word ∧ s = word ++ r := by
  unfold reference? at h
  split at h
  · rename_i ha
    cases h
    exact ⟨_, .index, after?_eq_some_iff.1 ha⟩
  · split at h
    · rename_i ha
      cases h
      exact ⟨_, .value, after?_eq_some_iff.1 ha⟩
    · split at h
      · cases h
      · rename_i t ha
        simp only [List.isEmpty_iff] at h
        split at h
        · cases h
        · rename_i hne
          cases h
          refine ⟨_, .field (t.takeWhile isNameChar) hne ?_, ?_⟩
          · exact List.all_eq_true.1 List.all_takeWhile
          · rw [List.append_assoc, List.takeWhile_append_dropWhile]
            exact after?_eq_some_iff.1 ha

/-- A word at the start of a text is found, if what follows does not go on with a name. -/
theorem reference?_word {word r : List Char} {p : Placeholder} (h : p.Word word)
    (hr : ∀ c ∈ r.head?, isNameChar c = false) : reference? (word ++ r) = some (p, r) := by
  cases h with
  | index => rfl
  | value => rfl
  | field name hne hname =>
    -- the name ends where the rest begins
    obtain ⟨htake, hdrop⟩ := Text.span_append hname hr
    have hword : reference? ("row.".toList ++ name ++ r) =
        if ((name ++ r).takeWhile isNameChar).isEmpty then none
        else some (.field ((name ++ r).takeWhile isNameChar), (name ++ r).dropWhile isNameChar) :=
      rfl
    rw [hword, htake, hdrop, if_neg]
    simpa using hne

/-- A word begins with no blank. -/
theorem Placeholder.Word.head_not_blank {p : Placeholder} {word : List Char} (h : p.Word word)
    (r : List Char) : Text.trimStart (word ++ r) = word ++ r := by
  apply Text.trimStart_eq_self
  cases h <;> rintro c hc <;> cases hc <;> rfl

/-- **Finding.** The placeholder that is found at the start of a text is the one that is written
there. -/
theorem placeholder?_eq_some_iff {s r : List Char} {p : Placeholder} :
    placeholder? s = some (p, r) ↔ ∃ t, p.WrittenAs t ∧ s = t ++ r := by
  constructor
  · intro h
    unfold placeholder? at h
    split at h
    · cases h
    · rename_i u hopen
      split at h
      · cases h
      · rename_i q v hr
        obtain ⟨w, hclose, hw⟩ := Option.map_eq_some_iff.1 h
        cases hw
        obtain ⟨word, hword, hu⟩ := word_of_reference? hr
        refine ⟨_, ⟨u.takeWhile Text.isBlank, word, v.takeWhile Text.isBlank, hword,
          List.all_eq_true.1 List.all_takeWhile, List.all_eq_true.1 List.all_takeWhile, rfl⟩, ?_⟩
        -- put the pieces together from the inside
        calc s = ['{', '{'] ++ u := after?_eq_some_iff.1 hopen
          _ = ['{', '{'] ++ (u.takeWhile Text.isBlank ++ Text.trimStart u) := by
            rw [Text.trimStart, List.takeWhile_append_dropWhile]
          _ = ['{', '{'] ++ (u.takeWhile Text.isBlank ++ (word ++
                (v.takeWhile Text.isBlank ++ Text.trimStart v))) := by
            rw [hu, Text.trimStart, List.takeWhile_append_dropWhile]
          _ = _ := by
            rw [after?_eq_some_iff.1 hclose]
            simp only [List.append_assoc]
  · rintro ⟨t, ⟨before, word, after, hword, hbefore, hafter, rfl⟩, rfl⟩
    have hopen : after? ['{', '{']
        (['{', '{'] ++ (before ++ (word ++ (after ++ ['}', '}']))) ++ r) =
          some (before ++ (word ++ (after ++ (['}', '}'] ++ r)))) := by
      simp [after?_eq_some_iff]
    have hstart : Text.trimStart (before ++ (word ++ (after ++ (['}', '}'] ++ r)))) =
        word ++ (after ++ (['}', '}'] ++ r)) := by
      rw [Text.trimStart_blank_append (List.all_eq_true.2 hbefore), hword.head_not_blank]
    -- a blank or a brace follows the word
    have hrest : ∀ c ∈ (after ++ (['}', '}'] ++ r)).head?, isNameChar c = false := by
      intro c hc
      cases after with
      | nil => cases hc; rfl
      | cons d after =>
        cases hc
        exact isNameChar_of_isBlank (hafter c List.mem_cons_self)
    have hclose : Text.trimStart (after ++ (['}', '}'] ++ r)) = ['}', '}'] ++ r := by
      rw [Text.trimStart_blank_append (List.all_eq_true.2 hafter)]
      apply Text.trimStart_eq_self
      rintro c hc
      cases hc
      rfl
    simp only [placeholder?, hopen, hstart, reference?_word hword hrest, hclose]
    rw [after?_eq_some_iff.2 rfl]
    rfl

/-! ## Placeholders never overlap -/

/-- A placeholder begins with two opening braces, and it holds no others. -/
theorem Placeholder.WrittenAs.braces {p : Placeholder} {t : List Char} (h : p.WrittenAs t) :
    ∃ rest, t = '{' :: '{' :: rest ∧ '{' ∉ rest ∧ '}' ∈ rest := by
  obtain ⟨before, word, after, hword, hbefore, hafter, rfl⟩ := h
  refine ⟨before ++ (word ++ (after ++ ['}', '}'])), rfl, ?_, by simp⟩
  have hblank : ∀ {l : List Char}, (∀ c ∈ l, Text.isBlank c = true) → '{' ∉ l := by
    intro l hl hm
    exact absurd (hl _ hm) (by decide)
  have hin : '{' ∉ word := by
    cases hword with
    | index => decide
    | value => decide
    | field name hne hname =>
      intro hm
      rcases List.mem_append.1 hm with hm | hm
      · revert hm
        decide
      · exact absurd (hname _ hm) (by decide)
  simp [hblank hbefore, hin, hblank hafter]

/-- What is found at the start of a text is found there however the text goes on. -/
theorem placeholder?_append {s r : List Char} {p : Placeholder} (h : placeholder? s = some (p, r))
    (u : List Char) : placeholder? (s ++ u) = some (p, r ++ u) := by
  obtain ⟨t, ht, rfl⟩ := placeholder?_eq_some_iff.1 h
  exact placeholder?_eq_some_iff.2 ⟨t, ht, List.append_assoc t r u⟩

/-- A text in front of a placeholder does not begin one that reaches into it. -/
theorem placeholder?_append_eq_none {c : Char} {a t : List Char} {p : Placeholder}
    (h : placeholder? (c :: a) = none) (ht : p.WrittenAs t) (b : List Char) :
    placeholder? (c :: a ++ (t ++ b)) = none := by
  cases hfound : placeholder? (c :: a ++ (t ++ b)) with
  | none => rfl
  | some found =>
    exfalso
    obtain ⟨q, r⟩ := found
    obtain ⟨u, hu, heq⟩ := placeholder?_eq_some_iff.1 hfound
    -- a placeholder that ends before the other one would have been found without it
    have hends : ∀ more, c :: a ≠ u ++ more := by
      intro more hmore
      rw [placeholder?_eq_some_iff.2 ⟨u, hu, hmore⟩] at h
      cases h
    obtain ⟨rest, rfl, -, -⟩ := ht.braces
    obtain ⟨inner, rfl, hinner, hclose⟩ := hu.braces
    rcases List.append_eq_append_iff.1 heq with ⟨excess, hexcess, hrest⟩ | ⟨more, hmore, -⟩
    · cases excess with
      | nil => exact hends [] (by rw [hexcess]; simp)
      | cons d excess =>
        -- the other one's opening braces lie within this one
        obtain ⟨rfl, htail⟩ := List.cons.inj hrest
        cases a with
        | nil =>
          obtain ⟨-, hexcess⟩ := List.cons.inj hexcess
          obtain ⟨-, rfl⟩ := List.cons.inj hexcess
          cases inner with
          | nil => cases hclose
          | cons e inner =>
            obtain ⟨rfl, -⟩ := List.cons.inj htail
            exact hinner List.mem_cons_self
        | cons e a =>
          obtain ⟨-, hexcess⟩ := List.cons.inj hexcess
          obtain ⟨-, rfl⟩ := List.cons.inj hexcess
          exact hinner (List.mem_append_right a List.mem_cons_self)
    · exact hends more hmore

/-! ## The laws of filling -/

/-- **Placeholders.** A placeholder gives way to its meaning, and what stands before and behind it
is filled by itself. -/
theorem fill_append_placeholder (context : Context) {p : Placeholder} {t : List Char}
    (h : p.WrittenAs t) (a b : List Char) :
    fill context (a ++ (t ++ b)) = fill context a ++ (p.meaning context ++ fill context b) := by
  fun_induction fill context a with
  | case1 => exact fill_placeholder (placeholder?_eq_some_iff.2 ⟨t, h, rfl⟩)
  | case2 c a q rest hq _ ih =>
    rw [fill_placeholder (placeholder?_append hq (t ++ b)), ih, List.append_assoc]
  | case3 c a hn ih =>
    have hnone := placeholder?_append_eq_none hn h b
    rw [List.cons_append] at hnone ⊢
    rw [fill_cons hnone, ih, List.cons_append]

/-- A text without placeholders stays. -/
theorem fill_of_free (context : Context) {s : List Char} (h : Free s) : fill context s = s := by
  induction s with
  | nil => exact fill_nil context
  | cons c s ih =>
    have hnone : placeholder? (c :: s) = none := by
      cases hp : placeholder? (c :: s) with
      | none => rfl
      | some found =>
        obtain ⟨p, r⟩ := found
        obtain ⟨t, ht, hs⟩ := placeholder?_eq_some_iff.1 hp
        exact absurd ht (h [] t r p hs)
    have hfree : Free s := by
      intro a t b p hs
      exact h (c :: a) t b p (by rw [hs]; rfl)
    rw [fill_cons hnone, ih hfree]

/-- **Filling.** Every placeholder in a text is replaced by its meaning exactly once and nothing
else is replaced: what surrounds a placeholder is filled as if it stood alone, and a text without
placeholders stays. So braces beside a placeholder do not hide it, and what was put in is neither
looked at again nor joined with what stands beside it. -/
theorem fillString_placeholders (context : Context) :
    (∀ (a t b : String) (p : Placeholder), p.WrittenAs t.toList →
      fillString context (a ++ t ++ b) =
        fillString context a ++ String.ofList (p.meaning context) ++ fillString context b) ∧
    (∀ s : String, Free s.toList → fillString context s = s) ∧
    ∀ (a t b : String) (p : Placeholder), p.WrittenAs t.toList → Free a.toList → Free b.toList →
      fillString context (a ++ t ++ b) = a ++ String.ofList (p.meaning context) ++ b := by
  have replaced : ∀ (a t b : String) (p : Placeholder), p.WrittenAs t.toList →
      fillString context (a ++ t ++ b) =
        fillString context a ++ String.ofList (p.meaning context) ++ fillString context b := by
    intro a t b p h
    simp only [fillString]
    rw [String.toList_append, String.toList_append, List.append_assoc,
      fill_append_placeholder context h, String.ofList_append, String.ofList_append,
      String.append_assoc]
  have kept : ∀ s : String, Free s.toList → fillString context s = s := by
    intro s h
    rw [fillString, fill_of_free context h, String.ofList_toList]
  refine ⟨replaced, kept, ?_⟩
  intro a t b p h ha hb
  rw [replaced a t b p h, kept a ha, kept b hb]

/-- A text with braces of one kind only holds no placeholder. -/
theorem free_of_not_mem {s : List Char} (h : '{' ∉ s ∨ '}' ∉ s) : Free s := by
  rintro a t b p rfl ht
  obtain ⟨rest, rfl, -, hclose⟩ := ht.braces
  rcases h with h | h
  · exact h (by simp)
  · exact h (by simp [hclose])

/-- Braces stand before the placeholder and behind it, and what is put in makes another placeholder
of them, which stays. -/
theorem fillString_stray_braces :
    let context : Context := { index := 3, value := "\x7b\x7bindex" }
    Placeholder.value.WrittenAs "\x7b\x7b value\x7d\x7d".toList ∧
      Free "\x7b \x7b".toList ∧ Free "\x7d\x7d".toList ∧
      fillString context ("\x7b \x7b" ++ "\x7b\x7b value\x7d\x7d" ++ "\x7d\x7d") =
        "\x7b \x7b" ++ "\x7b\x7bindex" ++ "\x7d\x7d" := by
  intro context
  have hwritten : Placeholder.value.WrittenAs "\x7b\x7b value\x7d\x7d".toList :=
    ⟨[' '], "value".toList, [], .value, List.all_eq_true.1 rfl, List.all_eq_true.1 rfl, rfl⟩
  have hbefore : Free "\x7b \x7b".toList := free_of_not_mem (Or.inr (by decide))
  have hbehind : Free "\x7d\x7d".toList := free_of_not_mem (Or.inl (by decide))
  refine ⟨hwritten, hbefore, hbehind, ?_⟩
  have h := (fillString_placeholders context).2.2 _ _ _ _ hwritten hbefore hbehind
  rw [Placeholder.meaning, String.ofList_toList] at h
  exact h

end FormRehearsal.Template
