/-
# Separators and segments of a line

A comma before which an even number of double quotes stands is a separator, and the text between two
separators is a segment. Reading a line in one scan, character by character, comes to the same as
counting the quotes of the whole line first and unquoting each segment by itself then: the scan is
within quotes exactly where the count is odd, and a pair of quotes never straddles a separator.

* `segmentsAfter_quote`, `segmentsAfter_comma`, `segmentsAfter_cons` : segments, character by
  character;
* `joinWith_segmentsAfter` : nothing but the separators stands between segments;
* `rawFields_eq_unquoteEach`, `splitLine_eq` : the scan unquotes the segments;
* `splitLine_segments` : the fields of a line are those of its segments.
-/
import FormRehearsal.Proofs.Dataset.Line

namespace FormRehearsal.Dataset

/-! ## Separators and segments -/

/-- A separator stands at a position of a line before which some quotes stand: a comma before which
the number of quotes is even. -/
def IsSeparator (quotes : Nat) (s : List Char) (i : Nat) : Prop :=
  s[i]? = some ',' ∧ (quotes + (s.take i).count '"') % 2 = 0

instance (quotes : Nat) (s : List Char) (i : Nat) : Decidable (IsSeparator quotes s i) :=
  inferInstanceAs (Decidable (_ ∧ _))

/-- The positions of the separators in a line before which some quotes stand. -/
def separatorsAfter (quotes : Nat) (line : List Char) : List Nat :=
  (List.range line.length).filter (IsSeparator quotes line ·)

/-- The positions of the separators in a line. -/
def separators (line : List Char) : List Nat := separatorsAfter 0 line

/-- What is left from a position on when the characters at some later positions are taken out. -/
def cutAt (line : List Char) (start : Nat) : List Nat → List (List Char)
  | [] => [line.drop start]
  | stop :: stops => (line.take stop).drop start :: cutAt line (stop + 1) stops

/-- The segments of a line before which some quotes stand. -/
def segmentsAfter (quotes : Nat) (line : List Char) : List (List Char) :=
  cutAt line 0 (separatorsAfter quotes line)

/-- The segments of a line. -/
def segments (line : List Char) : List (List Char) := segmentsAfter 0 line

/-- There is one more piece than positions. -/
theorem length_cutAt (line : List Char) (start : Nat) (stops : List Nat) :
    (cutAt line start stops).length = stops.length + 1 := by
  induction stops generalizing start with
  | nil => rfl
  | cons stop stops ih => rw [cutAt, List.length_cons, ih, List.length_cons]

/-- A character before the first piece is not looked at. -/
theorem cutAt_cons_succ (c : Char) (line : List Char) (start : Nat) (stops : List Nat) :
    cutAt (c :: line) (start + 1) (stops.map (· + 1)) = cutAt line start stops := by
  induction stops generalizing start with
  | nil => rfl
  | cons stop stops ih =>
    rw [List.map_cons, cutAt, cutAt, ih, List.take_succ_cons, List.drop_succ_cons]

/-- A character at which nothing is cut belongs to the first piece. -/
theorem cutAt_cons (c : Char) (line : List Char) (stops : List Nat) :
    cutAt (c :: line) 0 (stops.map (· + 1)) = consFirst c (cutAt line 0 stops) := by
  cases stops with
  | nil => rfl
  | cons stop stops =>
    rw [List.map_cons, cutAt, cutAt_cons_succ, cutAt, List.take_succ_cons]
    rfl

/-- Cutting at the first character leaves nothing before it. -/
theorem cutAt_zero_cons (c : Char) (line : List Char) (stops : List Nat) :
    cutAt (c :: line) 0 (0 :: stops.map (· + 1)) = [] :: cutAt line 0 stops := by
  rw [cutAt, cutAt_cons_succ]
  rfl

theorem isSeparator_zero {quotes : Nat} {c : Char} {line : List Char} :
    IsSeparator quotes (c :: line) 0 ↔ c = ',' ∧ quotes % 2 = 0 := by
  simp [IsSeparator]

/-- The first character counts for the others if it is a quote. -/
theorem isSeparator_succ {quotes : Nat} {c : Char} {line : List Char} {i : Nat} :
    IsSeparator quotes (c :: line) (i + 1) ↔
      IsSeparator (quotes + if c = '"' then 1 else 0) line i := by
  have hcount : quotes + ((c :: line).take (i + 1)).count '"' =
      (quotes + if c = '"' then 1 else 0) + (line.take i).count '"' := by
    rw [List.take_succ_cons, List.count_cons, Nat.add_assoc, Nat.add_comm ((line.take i).count '"')]
    simp only [beq_iff_eq]
  rw [IsSeparator, IsSeparator, hcount, List.getElem?_cons_succ]

/-- The separators of a line with one more character in front. -/
theorem separatorsAfter_cons (quotes : Nat) (c : Char) (line : List Char) :
    separatorsAfter quotes (c :: line) =
      (if c = ',' ∧ quotes % 2 = 0 then [0] else []) ++
        (separatorsAfter (quotes + if c = '"' then 1 else 0) line).map (· + 1) := by
  simp only [separatorsAfter, List.length_cons, List.range_succ_eq_map, List.filter_cons,
    List.filter_map, Function.comp_def, Nat.succ_eq_add_one, isSeparator_zero, isSeparator_succ,
    decide_eq_true_eq]
  split <;> rfl

@[simp] theorem segmentsAfter_nil (quotes : Nat) : segmentsAfter quotes [] = [[]] := rfl

theorem segmentsAfter_ne_nil (quotes : Nat) (line : List Char) :
    segmentsAfter quotes line ≠ [] := by
  apply List.ne_nil_of_length_pos
  rw [segmentsAfter, length_cutAt]
  exact Nat.succ_pos _

/-- A quote belongs to its segment and counts for everything after it. -/
theorem segmentsAfter_quote (quotes : Nat) (line : List Char) :
    segmentsAfter quotes ('"' :: line) = consFirst '"' (segmentsAfter (quotes + 1) line) := by
  rw [segmentsAfter, separatorsAfter_cons, if_neg (by simp), if_pos rfl]
  exact cutAt_cons '"' line _

/-- A comma after an even number of quotes begins a new segment. -/
theorem segmentsAfter_comma {quotes : Nat} (h : quotes % 2 = 0) (line : List Char) :
    segmentsAfter quotes (',' :: line) = [] :: segmentsAfter quotes line := by
  rw [segmentsAfter, separatorsAfter_cons, if_pos ⟨rfl, h⟩, if_neg (by decide)]
  exact cutAt_zero_cons ',' line _

/-- Any other character belongs to its segment. -/
theorem segmentsAfter_cons {quotes : Nat} {c : Char} (hq : c ≠ '"')
    (hc : ¬ (c = ',' ∧ quotes % 2 = 0)) (line : List Char) :
    segmentsAfter quotes (c :: line) = consFirst c (segmentsAfter quotes line) := by
  rw [segmentsAfter, separatorsAfter_cons, if_neg hc, if_neg hq]
  exact cutAt_cons c line _

/-! ## What stands between segments -/

/-- A character in front of the first piece stands in front of the whole. -/
theorem joinWith_consFirst (c : Char) {pieces : List (List Char)} (h : pieces ≠ []) :
    Text.joinWith [','] (consFirst c pieces) = c :: Text.joinWith [','] pieces := by
  match pieces, h with
  | [piece], _ => rfl
  | piece :: other :: pieces, _ => rfl

/-- Nothing but the separators stands between segments. -/
theorem joinWith_segmentsAfter (quotes : Nat) (line : List Char) :
    Text.joinWith [','] (segmentsAfter quotes line) = line := by
  induction line generalizing quotes with
  | nil => rfl
  | cons c line ih =>
    by_cases hq : c = '"'
    · subst hq
      rw [segmentsAfter_quote, joinWith_consFirst _ (segmentsAfter_ne_nil _ line), ih]
    · by_cases hc : c = ',' ∧ quotes % 2 = 0
      · obtain ⟨rfl, heven⟩ := hc
        obtain ⟨piece, pieces, hp⟩ := List.exists_cons_of_ne_nil (segmentsAfter_ne_nil quotes line)
        rw [segmentsAfter_comma heven, ← congrArg (',' :: ·) (ih quotes), hp]
        rfl
      · rw [segmentsAfter_cons hq hc, joinWith_consFirst _ (segmentsAfter_ne_nil _ line), ih]

/-- After an odd number of quotes and without another one, nothing separates. -/
theorem segmentsAfter_within {quotes : Nat} (h : quotes % 2 = 1) {line : List Char}
    (hline : '"' ∉ line) : segmentsAfter quotes line = [line] := by
  induction line with
  | nil => rfl
  | cons c line ih =>
    rw [List.mem_cons, not_or] at hline
    rw [segmentsAfter_cons (Ne.symm hline.1) (by omega), ih hline.2]
    rfl

/-- A text in which nothing separates is joined to the last segment before it. -/
theorem segmentsAfter_append {quotes : Nat} (a : List Char) {b : List Char}
    (hb : segmentsAfter (quotes + a.count '"') b = [b]) :
    ∃ before last, segmentsAfter quotes a = before ++ [last] ∧
      segmentsAfter quotes (a ++ b) = before ++ [last ++ b] := by
  -- a character in front of the first segment is in front of both
  have first : ∀ {c : Char} {before : List (List Char)} {last : List Char},
      ∃ before' last', consFirst c (before ++ [last]) = before' ++ [last'] ∧
        consFirst c (before ++ [last ++ b]) = before' ++ [last' ++ b] := by
    intro c before last
    cases before with
    | nil => exact ⟨[], c :: last, rfl, rfl⟩
    | cons piece before => exact ⟨(c :: piece) :: before, last, rfl, rfl⟩
  induction a generalizing quotes with
  | nil => exact ⟨[], [], rfl, hb⟩
  | cons c a ih =>
    by_cases hq : c = '"'
    · subst hq
      rw [List.count_cons_self, Nat.add_comm (a.count '"'), ← Nat.add_assoc] at hb
      obtain ⟨before, last, ha, hab⟩ := ih hb
      rw [List.cons_append, segmentsAfter_quote, segmentsAfter_quote, ha, hab]
      exact first
    · rw [List.count_cons_of_ne hq] at hb
      obtain ⟨before, last, ha, hab⟩ := ih hb
      by_cases hc : c = ',' ∧ quotes % 2 = 0
      · obtain ⟨rfl, heven⟩ := hc
        rw [List.cons_append, segmentsAfter_comma heven, segmentsAfter_comma heven, ha, hab]
        exact ⟨[] :: before, last, rfl, rfl⟩
      · rw [List.cons_append, segmentsAfter_cons hq hc, segmentsAfter_cons hq hc, ha, hab]
        exact first

/-! ## Unquoting a segment -/

/-- A segment without its quotes. Within quotes, two of them are one quote of the text; any other
quote switches quoting on or off, and any other character is kept. -/
def unquote : Bool → List Char → List Char
  | _, [] => []
  | true, '"' :: '"' :: r => '"' :: unquote true r
  | quoted, c :: r => if c = '"' then unquote (!quoted) r else c :: unquote quoted r

/-- A quote that is not the first one of a pair within quotes is dropped. -/
theorem unquote_quote {quoted : Bool} {s : List Char} (h : quoted = false ∨ s.head? ≠ some '"') :
    unquote quoted ('"' :: s) = unquote (!quoted) s := by
  rw [unquote.eq_3 quoted '"' s, if_pos rfl]
  rintro r rfl - rfl
  simp at h

theorem unquote_cons {c : Char} (h : c ≠ '"') (quoted : Bool) (s : List Char) :
    unquote quoted (c :: s) = c :: unquote quoted s := by
  rw [unquote.eq_3 quoted c s, if_neg h]
  rintro r - rfl
  exact absurd rfl h

/-- Unquoting takes characters out and moves none. -/
theorem unquote_sublist (quoted : Bool) (s : List Char) : (unquote quoted s).Sublist s := by
  fun_induction unquote quoted s with
  | case1 => exact List.Sublist.refl _
  | case2 r ih => exact (ih.cons _).cons_cons _
  | case3 quoted r _ ih => exact ih.cons _
  | case4 quoted c r _ _ ih => exact ih.cons_cons _

/-- Unquoting takes nothing out but quotes. -/
theorem filter_unquote (quoted : Bool) (s : List Char) :
    (unquote quoted s).filter (· ≠ '"') = s.filter (· ≠ '"') := by
  fun_induction unquote quoted s with
  | case1 => rfl
  | case2 r ih => simpa using ih
  | case3 quoted r _ ih => simpa using ih
  | case4 quoted c r _ hc ih => simpa [hc] using ih

/-- The segments without their quotes, if the first one begins within quotes or not. -/
def unquoteEach (quoted : Bool) : List (List Char) → List (List Char)
  | [] => []
  | s :: rest => unquote quoted s :: rest.map (unquote false)

theorem unquoteEach_false (pieces : List (List Char)) :
    unquoteEach false pieces = pieces.map (unquote false) := by
  cases pieces <;> rfl

theorem unquoteEach_consFirst {c : Char} (h : c ≠ '"') (quoted : Bool) {pieces : List (List Char)}
    (hp : pieces ≠ []) :
    unquoteEach quoted (consFirst c pieces) = consFirst c (unquoteEach quoted pieces) := by
  obtain ⟨s, rest, rfl⟩ := List.exists_cons_of_ne_nil hp
  simp only [consFirst, unquoteEach, unquote_cons h]

/-- The first segment begins as the line does. -/
theorem head?_of_segmentsAfter {quotes : Nat} {line s : List Char} {rest : List (List Char)}
    (h : segmentsAfter quotes line = s :: rest) (hs : s.head? = some '"') :
    line.head? = some '"' := by
  have hjoin := joinWith_segmentsAfter quotes line
  obtain ⟨r, rfl⟩ : ∃ r, s = '"' :: r := by
    cases s with
    | nil => cases hs
    | cons c r =>
      cases hs
      exact ⟨r, rfl⟩
  rw [h] at hjoin
  rw [← hjoin]
  cases rest <;> rfl

/-! ## One scan -/

/-- **One scan.** Reading a line character by character unquotes its segments, where the scan begins
within quotes exactly if an odd number of quotes stands before the line. -/
theorem rawFields_eq_unquoteEach {quoted : Bool} {quotes : Nat}
    (h : quoted = true ↔ quotes % 2 = 1) (line : List Char) :
    rawFields quoted line = unquoteEach quoted (segmentsAfter quotes line) := by
  fun_induction rawFields quoted line generalizing quotes with
  | case1 quoted => rfl
  | case2 r ih =>
    -- a pair of quotes within quotes leaves the count odd
    have hodd : quotes % 2 = 1 := h.1 rfl
    have hnext : true = true ↔ (quotes + 1 + 1) % 2 = 1 := ⟨fun _ => by omega, fun _ => rfl⟩
    rw [ih hnext, segmentsAfter_quote, segmentsAfter_quote]
    obtain ⟨s, rest, hs⟩ :=
      List.exists_cons_of_ne_nil (segmentsAfter_ne_nil (quotes + 1 + 1) r)
    rw [hs]
    rfl
  | case3 quoted r hpair ih =>
    have hnext : (!quoted) = true ↔ (quotes + 1) % 2 = 1 := by
      cases quoted
      · simp at h ⊢
        omega
      · simp at h ⊢
        omega
    rw [ih hnext, segmentsAfter_quote]
    obtain ⟨s, rest, hs⟩ := List.exists_cons_of_ne_nil (segmentsAfter_ne_nil (quotes + 1) r)
    -- within quotes, the segment goes on without another quote, as the line does
    have hsingle : quoted = false ∨ s.head? ≠ some '"' := by
      cases quoted with
      | false => exact Or.inl rfl
      | true =>
        refine Or.inr fun hhead => ?_
        obtain ⟨t, rfl⟩ := List.head?_eq_some_iff.1 (head?_of_segmentsAfter hs hhead)
        exact hpair t rfl rfl rfl
    rw [hs, unquoteEach, consFirst, unquoteEach, unquote_quote hsingle]
  | case4 quoted c r hpair hc hcomma ih =>
    obtain ⟨rfl, rfl⟩ := hcomma
    have heven : quotes % 2 = 0 := by simpa using h
    rw [segmentsAfter_comma heven, ih h, unquoteEach, unquote, unquoteEach_false]
  | case5 quoted c r hpair hc hcomma ih =>
    have hnot : ¬ (c = ',' ∧ quotes % 2 = 0) := by
      rintro ⟨rfl, heven⟩
      refine hcomma ⟨rfl, Bool.eq_false_iff.2 fun hq => ?_⟩
      rw [h] at hq
      omega
    rw [segmentsAfter_cons hc hnot, ih h,
      unquoteEach_consFirst hc quoted (segmentsAfter_ne_nil quotes r)]

/-! ## The fields of a line -/

/-- A field is its segment without quotes and blank ends. -/
theorem splitLine_eq (line : List Char) :
    splitLine line = (segments line).map fun s => Text.trim (unquote false s) := by
  have hstart : false = true ↔ 0 % 2 = 1 := by decide
  rw [splitLine, rawFields_eq_unquoteEach hstart line, unquoteEach_false, List.map_map]
  rfl

/-- A field keeps what stands in its segment, in its order: only quotes and blank ends are taken
out. -/
def KeptIn (segment field : List Char) : Prop :=
  ∃ before after, before.all Text.isBlank ∧ after.all Text.isBlank ∧
    (before ++ field ++ after).Sublist segment ∧
    (before ++ field ++ after).filter (· ≠ '"') = segment.filter (· ≠ '"')

/-- A line is read segment by segment. -/
structure ReadBySegments (line : List Char) : Prop where
  /-- there is one more field than separators -/
  length : (splitLine line).length = (separators line).length + 1
  /-- a field is its segment without quotes and blank ends -/
  fields : splitLine line = (segments line).map fun s => Text.trim (unquote false s)
  /-- nothing but the separators stands between segments -/
  joined : Text.joinWith [','] (segments line) = line
  kept : ∀ (i : Nat) (s : List Char), (segments line)[i]? = some s →
    ∃ field, (splitLine line)[i]? = some field ∧ KeptIn s field
  /-- a quote that is not closed joins the rest of the line to its own segment -/
  unclosed : ∀ a b, line = a ++ '"' :: b → a.count '"' % 2 = 0 → '"' ∉ b →
    ∃ before last, segments a = before ++ [last] ∧ segments line = before ++ [last ++ '"' :: b]

/-- **Segments.** Every line is read segment by segment: what separates is decided by the quotes
before it, and a field by its segment alone. -/
theorem splitLine_segments (line : List Char) : ReadBySegments line := by
  constructor
  case fields => exact splitLine_eq line
  case length =>
    rw [splitLine_eq, List.length_map, segments, segmentsAfter, length_cutAt, separators]
  case joined => exact joinWith_segmentsAfter 0 line
  case kept =>
    intro i s hs
    refine ⟨Text.trim (unquote false s), by rw [splitLine_eq, List.getElem?_map, hs]; rfl, ?_⟩
    obtain ⟨before, after, hbefore, hafter, htrim⟩ := Text.exists_trim_between (unquote false s)
    refine ⟨before, after, hbefore, hafter, ?_⟩
    rw [← htrim]
    exact ⟨unquote_sublist false s, filter_unquote false s⟩
  case unclosed =>
    rintro a b rfl ha hb
    apply segmentsAfter_append a
    rw [segmentsAfter_quote, segmentsAfter_within (by omega) hb]
    rfl

end FormRehearsal.Dataset
