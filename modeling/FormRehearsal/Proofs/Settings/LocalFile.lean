/-
# Which variables a local file sets

A line of a local file has an entry for a key, or for none. The variables after a local file was
loaded can be read off its lines without loading it: one that had a text before keeps it, any other
one has the value that the first line with an entry for it gives, and the other lines make no
difference. So can whether the program breaks off, which takes a NUL character.

* `hasEntry_iff` : the entry of a line is what the line says;
* `text?_offerAll`, `get?_offerAll` : the variables after some entries were offered;
* `exists_load_eq_error_iff` : when the program breaks off;
* `loadsAs_load` : the variables after a local file was loaded.
-/
import FormRehearsal.Settings.LocalFile

namespace FormRehearsal

/-! ## Characters -/

namespace Text

/-- A character that was not there before is the one that a pair was replaced with. -/
theorem mem_replacePair {a b c x : Char} {s : List Char} (h : x ∈ replacePair a b c s) :
    x = c ∨ x ∈ s := by
  induction s using replacePair.induct a b with
  | case1 => exact .inr h
  | case2 => exact .inr h
  | case3 d e r hpair ih =>
    rw [replacePair, if_pos hpair] at h
    rcases List.mem_cons.1 h with rfl | h
    · exact .inl rfl
    · exact (ih h).imp_right fun hx => List.mem_cons_of_mem _ (List.mem_cons_of_mem _ hx)
  | case4 d e r hpair ih =>
    rw [replacePair, if_neg hpair] at h
    rcases List.mem_cons.1 h with rfl | h
    · exact .inr List.mem_cons_self
    · exact (ih h).imp_right (List.mem_cons_of_mem _)

/-- The characters of a piece are characters of the text. -/
theorem mem_of_mem_splitAt {p : Char → Bool} {s piece : List Char} (h : piece ∈ splitAt p s)
    {c : Char} (hc : c ∈ piece) : c ∈ s := by
  induction s generalizing piece with
  | nil =>
    obtain rfl := List.mem_singleton.1 h
    exact hc
  | cons d s ih =>
    simp only [splitAt] at h
    split at h
    · rcases List.mem_cons.1 h with rfl | h
      · cases hc
      · exact List.mem_cons_of_mem d (ih h hc)
    · split at h
      · obtain rfl := List.mem_singleton.1 h
        exact List.mem_cons.2 (.inl (List.mem_singleton.1 hc))
      · rename_i first others hfirst
        rcases List.mem_cons.1 h with rfl | h
        · rcases List.mem_cons.1 hc with rfl | hc
          · exact List.mem_cons_self
          · exact List.mem_cons_of_mem d (ih (hfirst ▸ List.mem_cons_self) hc)
        · exact List.mem_cons_of_mem d (ih (hfirst ▸ List.mem_cons_of_mem first h) hc)

/-- The characters of a line are characters of the text. -/
theorem mem_of_mem_lines {s line : List Char} (h : line ∈ lines s) {c : Char} (hc : c ∈ line) :
    c ∈ s := by
  have piece : ∀ l, l ∈ splitAt (· == '\n') s → c ∈ l → c ∈ s := fun l hl =>
    mem_of_mem_splitAt hl
  have whole : line ∈ (splitAt (· == '\n') s).dropLast.map dropCarriageReturn → c ∈ s := by
    intro hline
    obtain ⟨l, hl, rfl⟩ := List.mem_map.1 hline
    refine piece l ((List.dropLast_sublist _).subset hl) ?_
    unfold dropCarriageReturn at hc
    split at hc
    · exact (List.dropLast_sublist _).subset hc
    · exact hc
  simp only [lines] at h
  split at h
  · exact whole h
  · exact whole h
  · rename_i last _ hlast
    rcases List.mem_append.1 h with h | h
    · exact whole h
    · exact piece line (List.mem_singleton.1 h ▸ List.mem_of_getLast? hlast) hc

end Text

/-! ## Records -/

namespace Record

variable {α : Type}

/-- The first of two records has its say first. -/
theorem get?_append (name : String) (a b : Record α) :
    get? name (a ++ b) = (get? name a).or (get? name b) := by
  induction a with
  | nil => rfl
  | cons p a ih =>
    obtain ⟨k, v⟩ := p
    by_cases hk : k = name
    · simp [get?, hk]
    · simp [get?, hk, ih]

/-- A name has a value if it is one of the names. -/
theorem isSome_get?_iff {name : String} {r : Record α} :
    (get? name r).isSome ↔ ∃ value, (name, value) ∈ r := by
  induction r with
  | nil => simp [get?]
  | cons p r ih =>
    obtain ⟨k, v⟩ := p
    by_cases hk : k = name
    · subst hk
      simp only [get?, if_pos, Option.isSome_some, true_iff]
      exact ⟨v, List.mem_cons_self⟩
    · have hne : ∀ value, (name, value) ≠ (k, v) := fun value he => hk (congrArg Prod.fst he).symm
      simp only [get?, if_neg hk, ih, List.mem_cons, hne, false_or]

end Record

namespace Environment

/-! ## Entries -/

/-- A line has an entry that gives a text to a key. Blank ends aside, the line does not begin with a
number sign; the key stands before its first equals sign and is not empty, the text stands after it.
-/
structure HasEntry (line : List Char) (key : String) (value : List Char) : Prop where
  shown : (Text.trim line).head? ≠ some '#'
  parts : ∃ before after, Text.trim line = before ++ '=' :: after ∧ '=' ∉ before ∧
    Text.trim before = key.toList ∧ Text.trim after = value
  named : key ≠ ""

/-- The entry of a line is what the line says, and what is meant by its text. -/
theorem hasEntry_iff {line : List Char} {key value : String} :
    (∃ text, HasEntry line key text ∧ value = String.ofList (meaning text)) ↔
      entry? line = some (key, value) := by
  have skipped : ((Text.trim line).isEmpty || (Text.trim line).head? = some '#') = true ↔
      Text.trim line = [] ∨ (Text.trim line).head? = some '#' := by
    rw [Bool.or_eq_true, List.isEmpty_iff, decide_eq_true_eq]
  constructor
  · rintro ⟨text, ⟨hshown, ⟨before, after, hparts, hnot, hkey, rfl⟩, hnamed⟩, rfl⟩
    have hskipped : ¬ ((Text.trim line).isEmpty || (Text.trim line).head? = some '#') = true := by
      rw [skipped, hparts]
      rintro (hnil | hcomment)
      · exact List.append_ne_nil_of_right_ne_nil before (List.cons_ne_nil _ _) hnil
      · exact hshown (hparts ▸ hcomment)
    have hsplit : Text.splitFirst '=' (Text.trim line) = some (before, after) :=
      Text.splitFirst_eq_some_iff.2 ⟨hparts, hnot⟩
    have hnonempty : ¬ (Text.trim before).isEmpty = true := by
      rw [List.isEmpty_iff, hkey]
      exact fun hnil => hnamed (String.toList_eq_nil_iff.1 hnil)
    simp only [ entry?, if_neg hskipped, hsplit, if_neg hnonempty]
    rw [hkey, String.ofList_toList]
  · intro h
    simp only [ entry?] at h
    split at h
    · cases h
    · rename_i hshown
      rw [skipped, not_or] at hshown
      split at h
      · cases h
      · rename_i before after hsplit
        split at h
        · cases h
        · rename_i hnamed
          cases h
          obtain ⟨hparts, hnot⟩ := Text.splitFirst_eq_some_iff.1 hsplit
          refine ⟨_, ⟨hshown.2, ⟨before, after, hparts, hnot, String.toList_ofList.symm, rfl⟩, ?_⟩,
            rfl⟩
          intro hempty
          rw [List.isEmpty_iff, ← String.toList_ofList (l := Text.trim before), hempty] at hnamed
          exact hnamed rfl

/-- A line with an entry for a key, whatever its text. -/
def Names (line : List Char) (key : String) : Prop := ∃ value, HasEntry line key value

theorem names_iff {line : List Char} {key : String} :
    Names line key ↔ ∃ value, entry? line = some (key, value) := by
  simp only [← hasEntry_iff]
  exact ⟨fun ⟨text, h⟩ => ⟨_, text, h, rfl⟩, fun ⟨_, text, h, _⟩ => ⟨text, h⟩⟩

/-- The entries of some lines, in order. -/
def entriesOf (lines : List (List Char)) : List (String × String) := lines.filterMap entry?

/-- The entries of a line come between those above and those below it. -/
theorem entriesOf_append_cons (above : List (List Char)) (line : List Char)
    (below : List (List Char)) :
    entriesOf (above ++ line :: below) =
      entriesOf above ++ (entriesOf [line] ++ entriesOf below) := by
  rw [entriesOf, List.append_cons, List.append_assoc, List.filterMap_append, List.filterMap_append]
  rfl

/-- A line with an entry gives this one. -/
theorem HasEntry.entriesOf_singleton {line : List Char} {key : String} {value : List Char}
    (h : HasEntry line key value) : entriesOf [line] = [(key, String.ofList (meaning value))] :=
  List.filterMap_cons_some (hasEntry_iff.1 ⟨value, h, rfl⟩)

theorem isSome_get?_entriesOf {key : String} {lines : List (List Char)} :
    (Record.get? key (entriesOf lines)).isSome ↔ ∃ line ∈ lines, Names line key := by
  simp only [Record.isSome_get?_iff, entriesOf, List.mem_filterMap, names_iff]
  exact ⟨fun ⟨v, line, hm, he⟩ => ⟨line, hm, v, he⟩, fun ⟨line, hm, v, he⟩ => ⟨v, line, hm, he⟩⟩

/-! ## Offers -/

section Offers

variable {env next loaded : Environment} {entry : String × String}
  {entries above below : List (String × String)} {key : String}

/-- An entry leaves the other variables alone, and one that has a text already. -/
theorem get?_offer (h : env.offer entry = .ok next)
    (hkey : (env.text? key).isSome ∨ entry.1 ≠ key) : next.get? key = env.get? key := by
  rcases offer_eq_ok_iff.1 h with ⟨-, rfl⟩ | ⟨hnone, -, rfl⟩
  · rfl
  · refine Record.get?_put_of_ne _ _ ?_
    rintro rfl
    rcases hkey with hkey | hkey
    · rw [hnone] at hkey
      cases hkey
    · exact hkey rfl

/-- A variable keeps its text, or else gets that of an entry for it. -/
theorem text?_offer (h : env.offer entry = .ok next) (key : String) :
    next.text? key = (env.text? key).or (Record.get? key [entry]) := by
  obtain ⟨k, v⟩ := entry
  by_cases hkey : (env.text? key).isSome ∨ k ≠ key
  · rw [text?, get?_offer h hkey]
    rcases hkey with hkey | hkey
    · exact (Option.or_of_isSome hkey).symm
    · rw [Record.get?, if_neg hkey, Record.get?, Option.or_none, text?]
  · rw [not_or, Option.not_isSome_iff_eq_none, Decidable.not_not] at hkey
    obtain ⟨hnone, rfl⟩ := hkey
    rcases offer_eq_ok_iff.1 h with ⟨hsome, -⟩ | ⟨-, -, rfl⟩
    · rw [hnone] at hsome
      cases hsome
    · rw [text?_put_self, hnone, Option.none_or, Record.get?, if_pos rfl]

/-- What has no text after an offer had none before, and was not offered. -/
theorem text?_offer_eq_none_iff (h : env.offer entry = .ok next) {key : String} :
    next.text? key = none ↔ env.text? key = none ∧ Record.get? key [entry] = none := by
  rw [text?_offer h, Option.or_eq_none_iff]

theorem offerAll_cons (env : Environment) (entry : String × String)
    (entries : List (String × String)) :
    env.offerAll (entry :: entries) = env.offer entry >>= (·.offerAll entries) :=
  List.foldlM_cons

/-- Entries that are all set are set one after another. -/
theorem exists_of_offerAll_cons (h : env.offerAll (entry :: entries) = .ok loaded) :
    ∃ next, env.offer entry = .ok next ∧ next.offerAll entries = .ok loaded := by
  rw [offerAll_cons] at h
  cases hoffer : env.offer entry with
  | error e =>
    rw [hoffer] at h
    cases h
  | ok next =>
    rw [hoffer] at h
    exact ⟨next, rfl, h⟩

/-- **Offers.** A variable keeps its text, or else gets that of the first entry for it. -/
theorem text?_offerAll (h : env.offerAll entries = .ok loaded) (key : String) :
    loaded.text? key = (env.text? key).or (Record.get? key entries) := by
  induction entries generalizing env with
  | nil =>
    cases h
    exact Option.or_none.symm
  | cons entry entries ih =>
    obtain ⟨next, hoffer, hrest⟩ := exists_of_offerAll_cons h
    rw [ih hrest, text?_offer hoffer, Option.or_assoc, ← Record.get?_append,
      List.singleton_append]

/-- Offers break off at the first entry that cannot be set and whose variable has no text. -/
theorem exists_offerAll_eq_error_iff :
    (∃ e, env.offerAll entries = .error e) ↔ ∃ above entry below,
      entries = above ++ entry :: below ∧ env.text? entry.1 = none ∧
        Record.get? entry.1 above = none ∧ isSettable entry = false := by
  induction entries generalizing env with
  | nil =>
    constructor
    · rintro ⟨e, ⟨⟩⟩
    · rintro ⟨above, entry, below, h, -⟩
      exact absurd h.symm (List.append_ne_nil_of_right_ne_nil _ (List.cons_ne_nil _ _))
  | cons first entries ih =>
    rw [offerAll_cons]
    cases hoffer : env.offer first with
    | error e =>
      -- the first entry is the one
      obtain ⟨hnone, hbroken⟩ := offer_eq_error_iff.1 ⟨e, hoffer⟩
      exact iff_of_true ⟨e, rfl⟩ ⟨[], first, entries, rfl, hnone, rfl, hbroken⟩
    | ok next =>
      have hstep : (∃ e, (Except.ok next >>= (·.offerAll entries)) = .error e) ↔
          ∃ e, next.offerAll entries = .error e := Iff.rfl
      rw [hstep, ih]
      constructor
      · rintro ⟨above, entry, below, rfl, htext, habove, hbroken⟩
        obtain ⟨henv, hfirst⟩ := (text?_offer_eq_none_iff hoffer).1 htext
        refine ⟨first :: above, entry, below, rfl, henv, ?_, hbroken⟩
        rw [← List.singleton_append, Record.get?_append, hfirst, habove, Option.or_none]
      · rintro ⟨above, entry, below, h, htext, habove, hbroken⟩
        cases above with
        | nil =>
          -- the first entry was taken, so it can be set
          cases h
          rcases offer_eq_ok_iff.1 hoffer with ⟨hsome, -⟩ | ⟨-, hsettable, -⟩
          · rw [htext] at hsome
            cases hsome
          · rw [hbroken] at hsettable
            cases hsettable
        | cons other above =>
          cases h
          rw [← List.singleton_append, Record.get?_append, Option.or_eq_none_iff] at habove
          exact ⟨above, entry, below, rfl, (text?_offer_eq_none_iff hoffer).2 ⟨htext, habove.1⟩,
            habove.2, hbroken⟩

end Offers

/-! ## NUL characters -/

/-- What is meant by a text has no other characters than the text and those that escapes stand for.
-/
theorem mem_meaning {c : Char} {value : List Char} (h : c ∈ meaning value) :
    c ∈ value ∨ c ∈ ['"', '\n', '\r', '\t'] := by
  have replaced : ∀ {d e : Char} {s : List Char}, c ∈ Text.replacePair '\\' d e s → c = e ∨ c ∈ s :=
    Text.mem_replacePair
  unfold meaning at h
  split at h
  · split at h
    · rename_i d r hlast
      simp only [unescape] at h
      have hinner : c ∈ (d :: r).dropLast → c ∈ '"' :: d :: r := fun hc =>
        List.mem_cons_of_mem _ ((List.dropLast_sublist _).subset hc)
      rcases replaced h with rfl | h
      · simp
      rcases replaced h with rfl | h
      · simp
      rcases replaced h with rfl | h
      · simp
      rcases replaced h with rfl | h
      · simp
      · exact .inl (hinner h)
    · exact .inl h
  · exact .inl h

/-- The entry of a line without NUL characters can be set. -/
theorem isSettable_of_entry? {line : List Char} {entry : String × String}
    (h : entry? line = some entry) (hnul : '\x00' ∉ line) : isSettable entry = true := by
  obtain ⟨text, ⟨-, ⟨before, after, hparts, -, hkey, rfl⟩, -⟩, hvalue⟩ := hasEntry_iff.2 h
  have hbefore : ∀ c ∈ before, c ∈ line := fun c hc =>
    (Text.trim_sublist line).subset (hparts ▸ List.mem_append_left _ hc)
  have hafter : ∀ c ∈ after, c ∈ line := fun c hc =>
    (Text.trim_sublist line).subset (hparts ▸ List.mem_append_right _ (List.mem_cons_of_mem _ hc))
  have hname : '\x00' ∉ entry.1.toList := by
    rw [← hkey]
    exact fun hc => hnul (hbefore _ ((Text.trim_sublist before).subset hc))
  have hmeant : '\x00' ∉ entry.2.toList := by
    rw [hvalue, String.toList_ofList]
    intro hc
    rcases mem_meaning hc with hc | hc
    · exact hnul (hafter _ ((Text.trim_sublist after).subset hc))
    · revert hc
      decide
  simp [isSettable, hname, hmeant]

/-! ## Loading -/

/-- A line would set a variable that cannot be set: it is the first one with an entry for it. -/
def BreaksOff (env : Environment) (text : String) : Prop :=
  ∃ above line below key value, Text.lines text.toList = above ++ line :: below ∧
    (∀ other ∈ above, ¬ Names other key) ∧ HasEntry line key value ∧ env.text? key = none ∧
      ('\x00' ∈ key.toList ∨ '\x00' ∈ meaning value)

/-- A variable is set by none of some lines if none has an entry for it. -/
theorem get?_entriesOf_eq_none {key : String} {lines : List (List Char)} :
    Record.get? key (entriesOf lines) = none ↔ ∀ line ∈ lines, ¬ Names line key := by
  rw [← Option.not_isSome_iff_eq_none, isSome_get?_entriesOf]
  simp only [not_exists, not_and]

theorem isSettable_eq_false_iff {key : String} {value : List Char} :
    isSettable (key, String.ofList value) = false ↔ '\x00' ∈ key.toList ∨ '\x00' ∈ value := by
  simp [isSettable, Classical.or_iff_not_imp_left]

/-- A local file breaks the program off where a line sets a variable that cannot be set. -/
theorem exists_load_eq_error_iff {env : Environment} {text : String} :
    (∃ e, env.load text = .error e) ↔ BreaksOff env text := by
  have hload : env.load text = env.offerAll (entriesOf (Text.lines text.toList)) := rfl
  rw [hload, exists_offerAll_eq_error_iff]
  constructor
  · rintro ⟨above, entry, below, hentries, htext, habove, hbroken⟩
    obtain ⟨before, rest, hlines, rfl, hrest⟩ := List.filterMap_eq_append_iff.1 hentries
    obtain ⟨skipped, line, after, rfl, hskipped, hentry, -⟩ := List.filterMap_eq_cons_iff.1 hrest
    have hparts : entry? line = some (entry.1, entry.2) := hentry
    obtain ⟨value, hhas, hvalue⟩ := hasEntry_iff.2 hparts
    refine ⟨before ++ skipped, line, after, entry.1, value, ?_, ?_, hhas, htext, ?_⟩
    · rw [hlines, List.append_assoc]
    · intro other hother hnames
      rcases List.mem_append.1 hother with hother | hother
      · exact get?_entriesOf_eq_none.1 habove other hother hnames
      · obtain ⟨v, hv⟩ := names_iff.1 hnames
        rw [hskipped other hother] at hv
        cases hv
    · rw [← isSettable_eq_false_iff, ← hvalue]
      exact hbroken
  · rintro ⟨above, line, below, key, value, hlines, habove, hentry, htext, hbroken⟩
    refine ⟨entriesOf above, (key, String.ofList (meaning value)), entriesOf below, ?_, htext,
      get?_entriesOf_eq_none.2 habove, isSettable_eq_false_iff.2 hbroken⟩
    rw [hlines, entriesOf_append_cons, hentry.entriesOf_singleton]
    rfl

/-- A local file without NUL characters is loaded. -/
theorem exists_load_eq_ok {env : Environment} {text : String} (hnul : '\x00' ∉ text.toList) :
    ∃ loaded, env.load text = .ok loaded := by
  cases hload : env.load text with
  | ok loaded => exact ⟨loaded, rfl⟩
  | error e =>
    obtain ⟨above, line, below, key, value, hlines, -, hentry, -, hbroken⟩ :=
      exists_load_eq_error_iff.1 ⟨e, hload⟩
    have hline : '\x00' ∉ line := fun hc =>
      hnul (Text.mem_of_mem_lines (hlines ▸ List.mem_append_right _ List.mem_cons_self) hc)
    have hsettable := isSettable_of_entry? (hasEntry_iff.1 ⟨value, hentry, rfl⟩) hline
    rw [isSettable_eq_false_iff.2 hbroken] at hsettable
    cases hsettable

/-- A variable without a text has what is meant in the first line with an entry for it. -/
theorem text?_load_of_first {env loaded : Environment} {text key : String}
    {above below : List (List Char)} {line value : List Char} (hload : env.load text = .ok loaded)
    (hnone : env.text? key = none) (hlines : Text.lines text.toList = above ++ line :: below)
    (habove : ∀ other ∈ above, ¬ Names other key) (hentry : HasEntry line key value) :
    loaded.text? key = some (String.ofList (meaning value)) := by
  have htext : loaded.text? key =
      (env.text? key).or (Record.get? key (entriesOf (Text.lines text.toList))) :=
    text?_offerAll hload key
  rw [htext, hnone, Option.none_or, hlines, entriesOf_append_cons, hentry.entriesOf_singleton,
    Record.get?_append, get?_entriesOf_eq_none.2 habove, Option.none_or]
  exact if_pos rfl

end Environment

end FormRehearsal
