/-
# Escapes in a local file

The escapes of a quoted value are replaced in four passes over the whole text, one kind after
another. No pass makes or breaks an escape that a later one looks for, so they do together what one
pass does that looks for all of them. Escaping leaves backslashes alone: what is escaped and loaded
again is the same unless it had an escape of its own.

* `pass_pass` : two passes one after another are one;
* `unescape_eq_readOnce` : so are the four;
* `pass_eq_self_iff` : the texts that a pass leaves alone;
* `load_quotedLine` : what becomes of a value that is escaped and loaded.
-/
import FormRehearsal.Proofs.Settings.LocalFile

namespace FormRehearsal

/-! ## Passes -/

namespace Text

/-- Every backslash before a character that stands for another one becomes, together with it, the
character that is meant; this is done once, from the left. -/
def pass (meant? : Char → Option Char) : List Char → List Char
  | [] => []
  | [c] => [c]
  | c :: d :: r =>
    if c = '\\' then
      match meant? d with
      | some e => e :: pass meant? r
      | none => c :: pass meant? (d :: r)
    else c :: pass meant? (d :: r)

/-- One character stands for another one, and no other one does. -/
def only (c d : Char) : Char → Option Char := fun x => if x = c then some d else none

/-- What is meant by either of two. -/
def either (f g : Char → Option Char) : Char → Option Char := fun c => (f c).or (g c)

variable {f g : Char → Option Char}

theorem pass_cons_of_ne {c : Char} (h : c ≠ '\\') (s : List Char) :
    pass f (c :: s) = c :: pass f s := by
  cases s with
  | nil => rfl
  | cons d r => rw [pass, if_neg h]

theorem pass_escape {d e : Char} (h : f d = some e) (s : List Char) :
    pass f ('\\' :: d :: s) = e :: pass f s := by
  simp only [pass, if_true, h]

/-- A backslash with which no escape begins stays. -/
theorem pass_backslash {s : List Char} (h : ∀ d ∈ s.head?, f d = none) :
    pass f ('\\' :: s) = '\\' :: pass f s := by
  cases s with
  | nil => rfl
  | cons d r => simp only [pass, if_true, h d rfl]

/-- Replacing a pair of a backslash and a character is a pass that looks for it alone. -/
theorem replacePair_eq_pass (c d : Char) (s : List Char) :
    replacePair '\\' c d s = pass (only c d) s := by
  induction s using pass.induct (only c d) with
  | case1 => rfl
  | case2 c => rfl
  | case3 x r e h ih =>
    obtain ⟨rfl, rfl⟩ : x = c ∧ d = e := by simpa [only] using h
    rw [pass_escape h, replacePair, if_pos ⟨rfl, rfl⟩, ih]
  | case4 x r h ih =>
    have hx : x ≠ c := by simpa [only] using h
    rw [replacePair, if_neg fun hp => hx hp.2, ih, pass_backslash (by simpa using h)]
  | case5 x y r h ih => rw [replacePair, if_neg fun hp => h hp.1, ih, pass_cons_of_ne h]

/-- After a pass a text begins as it did before, or with what an escape means. -/
theorem head?_pass (s : List Char) :
    (pass f s).head? = s.head? ∨ ∃ d e, (pass f s).head? = some e ∧ f d = some e := by
  induction s using pass.induct f with
  | case3 d r e h =>
    rw [pass_escape h]
    exact .inr ⟨d, e, rfl, h⟩
  | case4 d r h =>
    rw [pass_backslash (by simpa using h)]
    exact .inl rfl
  | case5 c d r h =>
    rw [pass_cons_of_ne h]
    exact .inl rfl
  | _ => exact .inl rfl

/-- **Passes.** A pass after another one does what a single one does that looks for both kinds of
escapes, if what the first kind means neither is a backslash nor makes an escape of the second kind,
of which none is made of two backslashes. -/
theorem pass_pass (hf : ∀ d e, f d = some e → e ≠ '\\' ∧ g e = none) (hg : g '\\' = none)
    (s : List Char) : pass g (pass f s) = pass (either f g) s := by
  induction s using pass.induct (either f g) with
  | case1 => rfl
  | case2 c => rfl
  | case3 d r e h ih =>
    rw [pass_escape h]
    cases hd : f d with
    | some e' =>
      obtain rfl : e' = e := by simpa [either, hd] using h
      rw [pass_escape hd, pass_cons_of_ne (hf d e' hd).1, ih]
    | none =>
      -- the first pass leaves this escape to the second
      have hmeant : g d = some e := by simpa [either, hd] using h
      have hne : d ≠ '\\' := by
        rintro rfl
        rw [hg] at hmeant
        cases hmeant
      rw [pass_backslash (by simpa using hd), pass_cons_of_ne hne, pass_escape hmeant, ih]
  | case4 d r h ih =>
    obtain ⟨hfd, hgd⟩ : f d = none ∧ g d = none := Option.or_eq_none_iff.1 h
    have hnone : ∀ x ∈ (pass f (d :: r)).head?, g x = none := by
      intro x hx
      rcases head?_pass (f := f) (d :: r) with hhead | ⟨y, e, hhead, he⟩
      · rw [hhead] at hx
        cases hx
        exact hgd
      · rw [hhead] at hx
        cases hx
        exact (hf y _ he).2
    rw [pass_backslash (by simpa using hfd), pass_backslash hnone, ih,
      pass_backslash (by simpa using h)]
  | case5 c d r h ih => rw [pass_cons_of_ne h, pass_cons_of_ne h, pass_cons_of_ne h, ih]

/-- A pass after one that looks for a single escape. -/
theorem pass_pass_only {c d : Char} (hd : d ≠ '\\') (hgd : g d = none) (hg : g '\\' = none)
    (s : List Char) : pass g (pass (only c d) s) = pass (either (only c d) g) s := by
  refine pass_pass (fun x e h => ?_) hg s
  obtain ⟨-, rfl⟩ : x = c ∧ d = e := by simpa [only] using h
  exact ⟨hd, hgd⟩

/-- A pass leaves a text alone that has no escape, if none means a backslash. -/
theorem pass_eq_self_iff (hf : ∀ d e, f d = some e → e ≠ '\\') (s : List Char) :
    pass f s = s ↔ ∀ d, ['\\', d] <:+: s → f d = none := by
  induction s using pass.induct f with
  | case1 => simp [pass]
  | case2 c => simp [pass, List.infix_cons_iff]
  | case3 d r e h =>
    rw [pass_escape h]
    constructor
    · intro hsame
      exact absurd (List.cons.inj hsame).1 (hf d e h)
    · intro hnone
      have hd := hnone d ⟨[], r, rfl⟩
      rw [h] at hd
      cases hd
  | case4 d r h ih =>
    rw [pass_backslash (by simpa using h), List.cons_inj_right, ih]
    constructor
    · intro hnone x hx
      rcases List.infix_cons_iff.1 hx with hx | hx
      · obtain ⟨-, hx⟩ := List.cons_prefix_cons.1 hx
        rw [(List.cons_prefix_cons.1 hx).1]
        exact h
      · exact hnone x hx
    · exact fun hnone x hx => hnone x (List.infix_cons hx)
  | case5 c d r h ih =>
    rw [pass_cons_of_ne h, List.cons_inj_right, ih]
    constructor
    · intro hnone x hx
      rcases List.infix_cons_iff.1 hx with hx | hx
      · exact absurd (List.cons_prefix_cons.1 hx).1.symm h
      · exact hnone x hx
    · exact fun hnone x hx => hnone x (List.infix_cons hx)

/-- A text that is one line. -/
theorem lines_eq_singleton {s : List Char} (hs : s ≠ []) (h : '\n' ∉ s) : lines s = [s] := by
  have hpieces : splitAt (· == '\n') s = [s] := by
    apply splitAt_eq_singleton
    intro c hc
    exact beq_eq_false_iff_ne.2 fun he => h (he ▸ hc)
  obtain ⟨c, r, rfl⟩ := List.exists_cons_of_ne_nil hs
  simp only [lines, hpieces]
  rfl

end Text

open Text

namespace Environment

/-! ## Escapes -/

/-- The character that is meant by one after a backslash. -/
def meant? : Char → Option Char
  | '"' => some '"'
  | 'n' => some '\n'
  | 'r' => some '\r'
  | 't' => some '\t'
  | _ => none

/-- A quoted text with all its escapes replaced in one pass from the left. -/
def readOnce (inner : List Char) : List Char := pass meant? inner

/-- **Single passes.** The four passes do what one does. -/
theorem unescape_eq_readOnce (inner : List Char) : unescape inner = readOnce inner := by
  have hmeant : either (only '"' '"') (either (only 'n' '\n') (either (only 'r' '\r')
      (only 't' '\t'))) = meant? := by
    funext c
    unfold meant?
    split
    case h_5 hquote hn hr ht =>
      have hne : c ≠ '"' ∧ c ≠ 'n' ∧ c ≠ 'r' ∧ c ≠ 't' := ⟨hquote, hn, hr, ht⟩
      simp [either, only, hne]
    all_goals rfl
  rw [unescape, replacePair_eq_pass, replacePair_eq_pass, replacePair_eq_pass, replacePair_eq_pass,
    pass_pass_only (by decide) rfl rfl, pass_pass_only (by decide) rfl rfl,
    pass_pass_only (by decide) rfl rfl, hmeant, readOnce]

/-! ## Escaping -/

/-- A character as it is written between quotes. -/
def escaped : Char → List Char
  | '"' => ['\\', '"']
  | '\n' => ['\\', 'n']
  | '\r' => ['\\', 'r']
  | '\t' => ['\\', 't']
  | c => [c]

/-- A text as it is written between quotes. Backslashes are left alone. -/
def escape (s : List Char) : List Char := s.flatMap escaped

/-- What a letter after a backslash means. Escaping neither removes nor makes such a pair. -/
def letter? : Char → Option Char
  | 'n' => some '\n'
  | 'r' => some '\r'
  | 't' => some '\t'
  | _ => none

theorem letter?_eq_none_iff {c : Char} : letter? c = none ↔ c ∉ ['n', 'r', 't'] := by
  unfold letter?
  split <;> simp_all

/-- A character is escaped, or it is left alone and means after a backslash what a letter does. -/
theorem escaped_cases (c : Char) :
    (∃ d, escaped c = ['\\', d] ∧ meant? d = some c) ∨
      (escaped c = [c] ∧ c ≠ '\n' ∧ meant? c = letter? c) := by
  unfold escaped
  split
  case h_5 hquote hfeed _ _ =>
    refine .inr ⟨rfl, hfeed, ?_⟩
    unfold meant? letter?
    split
    case h_1 => exact absurd rfl hquote
    case h_5 hn hr ht => split <;> simp_all
    all_goals rfl
  all_goals exact .inl ⟨_, rfl, rfl⟩

/-- A text that is escaped has no other characters than before, apart from those of escapes, and no
line feed. -/
theorem mem_escape {c : Char} {s : List Char} (h : c ∈ escape s) :
    (c ∈ s ∧ c ≠ '\n') ∨ c = '\\' ∨ (meant? c).isSome := by
  obtain ⟨x, hx, hc⟩ := List.mem_flatMap.1 h
  rcases escaped_cases x with ⟨d, he, hd⟩ | ⟨he, hne, -⟩ <;> rw [he] at hc
  · rcases List.mem_cons.1 hc with rfl | hc
    · exact .inr (.inl rfl)
    · obtain rfl := List.mem_singleton.1 hc
      exact .inr (.inr (Option.isSome_of_eq_some hd))
  · obtain rfl := List.mem_singleton.1 hc
    exact .inl ⟨hx, hne⟩

/-- No line feed is left in a text that is escaped. -/
theorem not_mem_escape (s : List Char) : '\n' ∉ escape s := by
  intro h
  rcases mem_escape h with ⟨-, hne⟩ | h | h
  · exact hne rfl
  · revert h
    decide
  · revert h
    decide

/-- Escaping a character other than a backslash is undone. -/
theorem readOnce_escaped {c : Char} (h : c ≠ '\\') (s : List Char) :
    readOnce (escaped c ++ s) = c :: readOnce s := by
  rcases escaped_cases c with ⟨d, he, hd⟩ | ⟨he, -, -⟩ <;> rw [he]
  · exact pass_escape hd s
  · exact pass_cons_of_ne h s

/-- **Escaping.** What is escaped and read again has its own escapes replaced, and is the same
apart from that. -/
theorem readOnce_escape (s : List Char) : readOnce (escape s) = pass letter? s := by
  have escape_cons : ∀ c s, escape (c :: s) = escaped c ++ escape s := fun _ _ => rfl
  induction s using pass.induct letter? with
  | case1 => rfl
  | case2 c =>
    by_cases hc : c = '\\'
    · subst hc
      rfl
    · exact readOnce_escaped hc []
  | case3 d r e h ih =>
    -- the letter stands for itself between quotes
    have hd : escaped d = [d] ∧ meant? d = some e := by
      unfold letter? at h
      split at h <;> cases h <;> exact ⟨rfl, rfl⟩
    rw [pass_escape h, ← ih, escape_cons, escape_cons, hd.1]
    exact pass_escape hd.2 _
  | case4 d r h ih =>
    have hd : ∀ x ∈ (escape (d :: r)).head?, meant? x = none := by
      intro x hx
      rw [escape_cons] at hx
      rcases escaped_cases d with ⟨y, he, -⟩ | ⟨he, -, hd⟩ <;> rw [he] at hx <;> cases hx
      · rfl
      · exact hd.trans h
    rw [pass_backslash (by simpa using h), ← ih, escape_cons]
    exact pass_backslash hd
  | case5 c d r h ih => rw [pass_cons_of_ne h, ← ih, escape_cons, readOnce_escaped h]

/-! ## Quoted values -/

/-- A key that can stand before the equals sign of a line by itself: it is not empty, has no blank
ends, no equals sign and no line feed, and does not begin with a number sign. With a NUL character in
it, which is not ruled out here, no variable can be set. -/
structure PlainKey (key : String) : Prop where
  named : key ≠ ""
  unpadded : Unpadded key.toList
  shown : key.toList.head? ≠ some '#'
  noEquals : '=' ∉ key.toList
  oneLine : '\n' ∉ key.toList

/-- The line that gives a value to a key, with the value between quotes. -/
def quotedLine (key value : String) : String :=
  key ++ "=\"" ++ String.ofList (escape value.toList) ++ "\""

/-- A text between quotes has no blank ends. -/
theorem unpadded_quoted (inner : List Char) : Unpadded ('"' :: (inner ++ ['"'])) where
  head := by
    rintro c ⟨⟩
    rfl
  last := by
    intro c hc
    rw [← List.cons_append, List.getLast?_concat] at hc
    cases hc
    rfl

/-- What is meant between quotes. -/
theorem meaning_quoted (inner : List Char) :
    meaning ('"' :: (inner ++ ['"'])) = unescape inner := by
  cases inner with
  | nil => rfl
  | cons c r =>
    have hlast : (c :: (r ++ ['"'])).getLast? = some '"' := by
      rw [← List.cons_append, List.getLast?_concat]
    rw [List.cons_append, meaning, if_pos hlast, ← List.cons_append, List.dropLast_concat]

theorem toList_quotedLine (key value : String) : (quotedLine key value).toList =
    key.toList ++ '=' :: '"' :: (escape value.toList ++ ['"']) := by
  simp [quotedLine]

/-- A quoted line is one line. -/
theorem lines_quotedLine {key : String} (h : PlainKey key) (value : String) :
    Text.lines (quotedLine key value).toList = [(quotedLine key value).toList] := by
  apply lines_eq_singleton
  · rw [toList_quotedLine]
    exact List.append_ne_nil_of_right_ne_nil _ (List.cons_ne_nil _ _)
  · rw [toList_quotedLine]
    have hvalue := not_mem_escape value.toList
    have hkey := h.oneLine
    simp [hkey, hvalue]

/-- A quoted line has no NUL character if its key and its value have none. -/
theorem nul_not_mem_quotedLine {key value : String} (hkey : '\x00' ∉ key.toList)
    (hvalue : '\x00' ∉ value.toList) : '\x00' ∉ (quotedLine key value).toList := by
  have hescape : '\x00' ∉ escape value.toList := by
    intro h
    rcases mem_escape h with ⟨h, -⟩ | h | h
    · exact hvalue h
    · revert h
      decide
    · revert h
      decide
  rw [toList_quotedLine]
  simp [hkey, hescape]

/-- A quoted line has an entry for its key. -/
theorem hasEntry_quotedLine {key : String} (h : PlainKey key) (value : String) :
    HasEntry (quotedLine key value).toList key ('"' :: (escape value.toList ++ ['"'])) := by
  rw [toList_quotedLine]
  obtain ⟨c, r, hkey⟩ := List.exists_cons_of_ne_nil (mt String.toList_eq_nil_iff.1 h.named)
  have htrim : Text.trim (key.toList ++ '=' :: '"' :: (escape value.toList ++ ['"'])) =
      key.toList ++ '=' :: '"' :: (escape value.toList ++ ['"']) := by
    apply trim_eq_self
    · -- the line begins where the key does
      intro d hd
      apply h.unpadded.head d
      rw [hkey] at hd ⊢
      exact hd
    · intro d hd
      apply (unpadded_quoted (escape value.toList)).last d
      rw [List.append_cons, List.getLast?_append, List.getLast?_cons] at hd
      rwa [List.getLast?_cons]
  constructor
  case shown =>
    have hshown := h.shown
    rw [htrim, hkey]
    rwa [hkey] at hshown
  case parts =>
    exact ⟨_, _, htrim, h.noEquals, h.unpadded.trim_eq, (unpadded_quoted _).trim_eq⟩
  case named => exact h.named

/-- **Quoted values.** Without NUL characters, a value that is escaped is loaded from a quoted line, and
is the same exactly if it has no backslash before one of three letters. Whatever stands between quotes
is read in one pass, although there are four. -/
theorem load_quotedLine {env : Environment} {key : String} (hkey : PlainKey key)
    (hnul : '\x00' ∉ key.toList) (hnone : env.text? key = none) :
    (∀ value : String, '\x00' ∉ value.toList →
      ∃ loaded, env.load (quotedLine key value) = .ok loaded ∧ (loaded.text? key = some value ↔
        ∀ c ∈ ['n', 'r', 't'], ¬ ['\\', c] <:+: value.toList)) ∧
    ∀ inner, unescape inner = readOnce inner := by
  refine ⟨fun value hvalue => ?_, unescape_eq_readOnce⟩
  obtain ⟨loaded, hload⟩ := exists_load_eq_ok (nul_not_mem_quotedLine hnul hvalue)
  have hlines : lines (quotedLine key value).toList = [] ++ [(quotedLine key value).toList] :=
    lines_quotedLine hkey value
  have hget : loaded.text? key = some (String.ofList (pass letter? value.toList)) := by
    rw [text?_load_of_first hload hnone hlines (fun _ hm => absurd hm List.not_mem_nil)
      (hasEntry_quotedLine hkey value), meaning_quoted, unescape_eq_readOnce, readOnce_escape]
  have hmeant : ∀ d e, letter? d = some e → e ≠ '\\' := by
    intro d e h
    unfold letter? at h
    split at h <;> cases h <;> decide
  refine ⟨loaded, hload, ?_⟩
  calc loaded.text? key = some value
    _ ↔ pass letter? value.toList = value.toList := by
      rw [hget, Option.some_inj, ← String.toList_inj, String.toList_ofList]
    _ ↔ ∀ d, ['\\', d] <:+: value.toList → letter? d = none := pass_eq_self_iff hmeant _
    _ ↔ ∀ c ∈ ['n', 'r', 't'], ¬ ['\\', c] <:+: value.toList := by
      simp only [letter?_eq_none_iff]
      exact ⟨fun h c hc hin => h c hin hc, fun h d hin hd => h d hd hin⟩

/-- Quotes, line ends and a backslash at the end come back; a path with a backslash before a letter
that can be escaped does not. -/
theorem load_quotedLine_path :
    let env : Environment := [("B", "set".toByteArray)]
    PlainKey "A b" ∧ '\x00' ∉ "A b".toList ∧ env.text? "A b" = none ∧
      (∃ loaded, env.load (quotedLine "A b" " say \"a=b\"\\\r\n#\\") = .ok loaded ∧
        loaded.text? "A b" = some " say \"a=b\"\\\r\n#\\") ∧
      ∃ loaded, env.load (quotedLine "A b" "C:\\dir\\new") = .ok loaded ∧
        loaded.text? "A b" ≠ some "C:\\dir\\new" := by
  intro env
  have hkey : PlainKey "A b" := by
    constructor <;> decide +kernel
  have hnul : '\x00' ∉ "A b".toList := by decide +kernel
  have hnone : env.text? "A b" = none := rfl
  have hquoted := (load_quotedLine hkey hnul hnone).1
  refine ⟨hkey, hnul, hnone, ?_, ?_⟩
  · obtain ⟨loaded, hload, hvalue⟩ := hquoted " say \"a=b\"\\\r\n#\\" (by decide +kernel)
    refine ⟨loaded, hload, hvalue.2 ?_⟩
    simp [List.infix_cons_iff]
  · obtain ⟨loaded, hload, hvalue⟩ := hquoted "C:\\dir\\new" (by decide +kernel)
    have hin : ['\\', 'n'] <:+: "C:\\dir\\new".toList :=
      ⟨"C:\\dir".toList, ['e', 'w'], by decide +kernel⟩
    exact ⟨loaded, hload, fun h => hvalue.1 h 'n' (by decide) hin⟩

/-- A key with a NUL character is not set, although nothing else is wrong with it: the program breaks
off. -/
theorem load_quotedLine_nul :
    PlainKey "A\x00B" ∧ Environment.text? [] "A\x00B" = none ∧ '\x00' ∉ "x".toList ∧
      (∀ c ∈ ['n', 'r', 't'], ¬ ['\\', c] <:+: "x".toList) ∧
      ¬ ∃ loaded, Environment.load [] (quotedLine "A\x00B" "x") = .ok loaded := by
  refine ⟨?_, rfl, by decide +kernel, ?_, ?_⟩
  · constructor <;> decide +kernel
  · simp [List.infix_cons_iff]
  · have hbroken : Environment.load [] (quotedLine "A\x00B" "x") = .error ⟨"A\x00B", "x"⟩ := by
      rfl
    rw [hbroken]
    rintro ⟨loaded, ⟨⟩⟩

end Environment

end FormRehearsal
