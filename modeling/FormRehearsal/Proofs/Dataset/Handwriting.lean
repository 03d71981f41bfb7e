/-
# Lines that are written by hand

Whoever writes a line by hand puts blanks where they like and quotes where they are needed: a cell
is a value between blanks, either between quotes with its own quotes doubled, or as it is if it
holds neither a comma nor a quote. Whatever mixture of cells a line holds, its trimmed values are
read off it.

* `splitLine_trim` : the blank ends of a line make no difference;
* `rawFields_text` : what is read off a cell;
* `linesWithContent_line` : a line with content is read, whatever stands above and below it;
* `parse_handwritten` : the values of the cells are read, in their order and under their names.
-/
import FormRehearsal.Proofs.Dataset.LineByLine
import FormRehearsal.Proofs.Dataset.Segment

namespace FormRehearsal.Dataset

/-! ## Blank ends of lines -/

/-- Blanks are neither commas nor quotes. -/
theorem plain_of_blank {s : List Char} (h : s.all Text.isBlank = true) :
    ∀ c ∈ s, c ≠ ',' ∧ c ≠ '"' := by
  intro c hc
  have hblank := List.all_eq_true.1 h c hc
  constructor
  · rintro rfl
    cases hblank
  · rintro rfl
    cases hblank

/-- A text that holds neither commas nor quotes is one segment. -/
theorem segmentsAfter_plain (quotes : Nat) {line : List Char}
    (h : ∀ c ∈ line, c ≠ ',' ∧ c ≠ '"') : segmentsAfter quotes line = [line] := by
  induction line with
  | nil => rfl
  | cons c line ih =>
    obtain ⟨hc, hq⟩ := h c List.mem_cons_self
    rw [segmentsAfter_cons hq (fun hs => hc hs.1), ih fun d hd => h d (List.mem_cons_of_mem c hd)]
    rfl

/-- What follows a segment without quotes is not touched. -/
theorem unquote_append {quoted : Bool} (s : List Char) {t : List Char} (h : '"' ∉ t) :
    unquote quoted (s ++ t) = unquote quoted s ++ t := by
  fun_induction unquote quoted s with
  | case1 quoted =>
    show unquote quoted t = t
    induction t with
    | nil => rfl
    | cons c t ih =>
      rw [List.mem_cons, not_or] at h
      rw [unquote_cons (Ne.symm h.1), ih h.2]
  | case2 r ih =>
    show unquote true ('"' :: '"' :: (r ++ t)) = _
    rw [unquote, ih, List.cons_append]
  | case3 quoted r hpair ih =>
    -- the quote is not the first one of a pair, whatever follows
    have hsingle : quoted = false ∨ (r ++ t).head? ≠ some '"' := by
      cases quoted with
      | false => exact Or.inl rfl
      | true =>
        refine Or.inr fun hhead => ?_
        cases r with
        | nil => exact h (List.mem_of_head? hhead)
        | cons c r =>
          cases hhead
          exact hpair r rfl rfl rfl
    rw [List.cons_append, unquote_quote hsingle, ih]
  | case4 quoted c r _ hc ih => rw [List.cons_append, unquote_cons hc, ih, List.cons_append]

/-- The blank ends of a line make no difference. -/
theorem splitLine_trim (line : List Char) : splitLine (Text.trim line) = splitLine line := by
  obtain ⟨before, after, hbefore, hafter, hline⟩ := Text.exists_trim_between line
  have start : ∀ r, splitLine (before ++ r) = splitLine r := by
    intro r
    obtain ⟨piece, pieces, hr⟩ := List.exists_cons_of_ne_nil (rawFields_ne_nil false r)
    rw [splitLine, rawFields_plain_append (plain_of_blank hbefore), hr, foldr_consFirst,
      List.map_cons, Text.trim_blank_append hbefore, ← List.map_cons, ← hr]
    rfl
  have stop : ∀ r, splitLine (r ++ after) = splitLine r := by
    intro r
    -- the blanks belong to the last segment
    obtain ⟨others, last, hr, hra⟩ :=
      segmentsAfter_append r (segmentsAfter_plain (0 + r.count '"') (plain_of_blank hafter))
    have hlast : Text.trim (unquote false (last ++ after)) = Text.trim (unquote false last) := by
      rw [unquote_append last fun hm => (plain_of_blank hafter _ hm).2 rfl,
        Text.trim_append_blank _ hafter]
    rw [splitLine_eq, splitLine_eq, segments, segments, hr, hra, List.map_append, List.map_append,
      List.map_singleton, List.map_singleton, hlast]
  conv => rhs; rw [hline, stop, start]

/-! ## Cells -/

/-- A cell of a line: a value between blanks, with quotes around it or not. -/
structure Cell where
  before : List Char
  value : List Char
  after : List Char
  quoted : Bool
  deriving DecidableEq, Repr

namespace Cell

/-- A cell as it is written; the quotes of a value between quotes are doubled. -/
def text (c : Cell) : List Char :=
  c.before ++ (if c.quoted then '"' :: (doubleQuotes c.value ++ ['"']) else c.value) ++ c.after

/-- There are only blanks around the value, no line ends there, and a comma or a quote in the value
asks for quotes. -/
structure Legible (c : Cell) : Prop where
  before : c.before.all Text.isBlank = true
  after : c.after.all Text.isBlank = true
  oneLine : '\r' ∉ c.before ++ c.value ++ c.after ∧ '\n' ∉ c.before ++ c.value ++ c.after
  plain : c.quoted = false → ',' ∉ c.value ∧ '"' ∉ c.value

instance (c : Cell) : Decidable c.Legible :=
  decidable_of_iff (c.before.all Text.isBlank = true ∧ c.after.all Text.isBlank = true ∧
      ('\r' ∉ c.before ++ c.value ++ c.after ∧ '\n' ∉ c.before ++ c.value ++ c.after) ∧
      (c.quoted = false → ',' ∉ c.value ∧ '"' ∉ c.value))
    ⟨fun h => ⟨h.1, h.2.1, h.2.2.1, h.2.2.2⟩, fun h => ⟨h.before, h.after, h.oneLine, h.plain⟩⟩

/-- The trimmed value of a cell. -/
def content (c : Cell) : List Char := Text.trim c.value

end Cell

/-- The line of some cells. -/
def handwritten (cells : List Cell) : List Char := Text.joinWith [','] (cells.map Cell.text)

/-- A cell is read with its blanks, if what follows it does not begin with a quote. -/
theorem rawFields_text {c : Cell} (hc : c.Legible) {r : List Char} (hr : r.head? ≠ some '"') :
    rawFields false (c.text ++ r) =
      (c.before ++ c.value ++ c.after).foldr consFirst (rawFields false r) := by
  -- a value between quotes ends at its closing quote
  have hafter : (c.after ++ r).head? ≠ some '"' := by
    cases h : c.after with
    | nil => exact hr
    | cons d after =>
      rintro heq
      have hd := (plain_of_blank hc.after d (h ▸ List.mem_cons_self)).2
      exact hd (by simpa using heq)
  have hvalue : rawFields false
      ((if c.quoted then '"' :: (doubleQuotes c.value ++ ['"']) else c.value) ++ (c.after ++ r)) =
        c.value.foldr consFirst (rawFields false (c.after ++ r)) := by
    by_cases hq : c.quoted = true
    · rw [if_pos hq, List.cons_append, rawFields_open, List.append_assoc]
      exact rawFields_quoted_append c.value hafter
    · rw [if_neg hq]
      obtain ⟨hcomma, hquote⟩ := hc.plain (Bool.eq_false_iff.2 hq)
      refine rawFields_plain_append (fun d hd => ⟨?_, ?_⟩) _
      · exact fun he => hcomma (he ▸ hd)
      · exact fun he => hquote (he ▸ hd)
  rw [Cell.text, List.append_assoc, List.append_assoc,
    rawFields_plain_append (plain_of_blank hc.before), hvalue,
    rawFields_plain_append (plain_of_blank hc.after), List.foldr_append, List.foldr_append]

/-- The values of cells are read off their line. -/
theorem splitLine_handwritten {cells : List Cell} (hne : cells ≠ [])
    (h : ∀ c ∈ cells, c.Legible) :
    splitLine (Text.trim (handwritten cells)) = cells.map Cell.content := by
  have hread : ∀ c ∈ cells, ∀ r : List Char, r.head? ≠ some '"' →
      rawFields false (c.text ++ r) =
        (c.before ++ c.value ++ c.after).foldr consFirst (rawFields false r) :=
    fun c hc r hr => rawFields_text (h c hc) hr
  rw [splitLine_trim, splitLine, handwritten, rawFields_joinWith hne hread, List.map_map]
  refine List.map_congr_left fun c hc => ?_
  rw [Function.comp_apply, Text.trim_append_blank _ (h c hc).after,
    Text.trim_blank_append (h c hc).before, Cell.content]

/-! ## Rows -/

/-- A cell holds the characters of its value, its blanks, and quotes. -/
theorem Cell.mem_text {c : Cell} {d : Char} (h : d ∈ c.text) :
    d = '"' ∨ d ∈ c.before ++ c.value ++ c.after := by
  rw [Cell.text] at h
  rw [List.mem_append, List.mem_append] at h ⊢
  rcases h with (h | h) | h
  · exact Or.inr (Or.inl (Or.inl h))
  · have hvalue : d = '"' ∨ d ∈ c.value := by
      split at h
      · rw [List.mem_cons, List.mem_append, List.mem_singleton] at h
        rcases h with h | h | h
        · exact Or.inl h
        · exact mem_doubleQuotes h
        · exact Or.inl h
      · exact Or.inr h
    exact hvalue.imp_right fun hd => Or.inl (Or.inr hd)
  · exact Or.inr (Or.inr h)

/-- Legible cells stand on one line. -/
theorem noLineEnd_handwritten {cells : List Cell} (h : ∀ c ∈ cells, c.Legible) :
    ∀ d ∈ handwritten cells, isLineEnd d = false := by
  intro d hd
  rcases mem_joinWith hd with rfl | ⟨s, hs, hd⟩
  · rfl
  · obtain ⟨c, hc, rfl⟩ := List.mem_map.1 hs
    rcases Cell.mem_text hd with rfl | hd
    · rfl
    · -- a line end is one of two characters, and neither of them is in the cell
      refine Bool.eq_false_iff.2 fun hend => ?_
      rw [isLineEnd, Bool.or_eq_true, decide_eq_true_eq, decide_eq_true_eq] at hend
      rcases hend with rfl | rfl
      · exact (h c hc).oneLine.1 hd
      · exact (h c hc).oneLine.2 hd

/-- A line with content comes behind the lines above it, whatever stands below it. -/
theorem linesWithContent_line (above : List Char) {line below : List Char} {lineEnd : Char}
    (hend : isLineEnd lineEnd = true) (hline : ∀ d ∈ line, isLineEnd d = false)
    (hcontent : line.any (!Text.isBlank ·) = true)
    (hbelow : ∀ d ∈ below.head?, isLineEnd d = true) :
    ∃ others, linesWithContent (String.ofList (above ++ lineEnd :: (line ++ below))) =
      linesWithContent (String.ofList above) ++ line :: others := by
  obtain ⟨pieces, hpieces⟩ : ∃ pieces, Text.splitAt isLineEnd (line ++ below) = line :: pieces := by
    cases below with
    | nil => exact ⟨[], by rw [List.append_nil, Text.splitAt_eq_singleton hline]⟩
    | cons d below => exact ⟨_, Text.splitAt_append hline (hbelow d rfl) below⟩
  refine ⟨pieces.filter fun line => line.any (!Text.isBlank ·), ?_⟩
  have hkept : (line :: pieces).filter (fun line => line.any (!Text.isBlank ·)) =
      line :: pieces.filter fun line => line.any (!Text.isBlank ·) := by
    rw [List.filter_cons, if_pos hcontent]
  rw [linesWithContent, linesWithContent, String.toList_ofList, String.toList_ofList,
    Text.splitAt_append_cons above hend, hpieces, List.filter_append, hkept]

/-- As many values as names stand in the columns. -/
theorem columns_eq_zip {header values : List String} (h : header.length = values.length) :
    columns header values = header.zip values := by
  fun_induction columns header values with
  | case1 => rfl
  | case2 name names => cases h
  | case3 name names value values ih => rw [List.zip_cons_cons, ih (Nat.succ.inj h)]

/-- **Handwriting.** The trimmed values of legible cells are read off their line, in their order. If
the line is not blank and stands below a header with as many names, all of them distinct, its row
holds these values under these names. -/
theorem parse_handwritten (cells : List Cell) (hne : cells ≠ []) (h : ∀ c ∈ cells, c.Legible) :
    splitLine (Text.trim (handwritten cells)) = cells.map Cell.content ∧
      ∀ (above below : List Char) (lineEnd : Char) (first : List Char) (rest : List (List Char)),
        (handwritten cells).any (!Text.isBlank ·) = true →
        isLineEnd lineEnd = true → (∀ d ∈ below.head?, isLineEnd d = true) →
        linesWithContent (String.ofList above) = first :: rest →
        (lineFields (Text.trim first)).Nodup →
        (lineFields (Text.trim first)).length = cells.length →
          let text := String.ofList (above ++ lineEnd :: (handwritten cells ++ below))
          (parse text).rows[rest.length]? =
            some ((lineFields (Text.trim first)).zip (cells.map (String.ofList ·.content))) := by
  have hsplit := splitLine_handwritten hne h
  refine ⟨hsplit, ?_⟩
  intro above below lineEnd first rest hcontent hend hbelow habove hdistinct hlength text
  have hfields : lineFields (Text.trim (handwritten cells)) =
      cells.map fun c => String.ofList c.content := by
    rw [lineFields, hsplit, List.map_map]
    rfl
  obtain ⟨others, hlines⟩ := linesWithContent_line above hend (noLineEnd_handwritten h) hcontent
    hbelow
  rw [habove, List.cons_append] at hlines
  rw [parse_of_linesWithContent hlines, List.map_append, List.map_cons,
    List.getElem?_append_right (Nat.le_of_eq (List.length_map _)), List.length_map, Nat.sub_self,
    List.getElem?_cons_zero, rowOf, hfields, Record.ofPairs_of_nodup (by rwa [map_fst_columns]),
    columns_eq_zip (by simpa using hlength)]

/-- A value with a comma and a quote between blanks and quotes, a plain one between blanks, one that
is a quote, and one that is empty; the line stands between blank ones. -/
theorem parse_handwritten_four :
    let cells : List Cell :=
      [⟨[' '], "a, \"b".toList, ['\t'], true⟩, ⟨[' ', ' '], "c d".toList, [' '], false⟩,
        ⟨[], ['"'], [], true⟩, ⟨[], [], [], false⟩]
    (∀ c ∈ cells, c.Legible) ∧
      splitLine (Text.trim (handwritten cells)) = cells.map Cell.content ∧
      let above := "w,x,y,z\n\r".toList
      (parse (String.ofList (above ++ '\n' :: (handwritten cells ++ ['\r', '\n'])))).rows[0]? =
        some [("w", "a, \"b"), ("x", "c d"), ("y", "\""), ("z", "")] := by
  intro cells
  have hlegible : ∀ c ∈ cells, c.Legible := by decide
  obtain ⟨hsplit, hrow⟩ := parse_handwritten cells (List.cons_ne_nil _ _) hlegible
  refine ⟨hlegible, hsplit, ?_⟩
  have hbelow : ∀ d ∈ ['\r', '\n'].head?, isLineEnd d = true := by
    intro d hd
    cases hd
    rfl
  exact hrow _ _ _ "w,x,y,z".toList [] (by decide) rfl hbelow (by decide +kernel)
    (by decide +kernel) (by decide +kernel)

end FormRehearsal.Dataset
