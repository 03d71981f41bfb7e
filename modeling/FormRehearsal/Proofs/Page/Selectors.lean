/-
# Selectors that stand for themselves

A selector is cut at its commas when an element is looked for, and blanks around the parts are
dropped; when an element is added, its selector is kept as it is written. Both agree on a selector
without commas and without blanks at its ends: it is `Single`. By such a selector, the first visible
element is reached that was added under it, and a step that asks for one acts at once. Any other
selector reaches elements that were added under its parts, but none that was added under itself.

* `mem_alternatives_self_iff` : which selectors are parts of themselves;
* `lookup_eq_some_iff` : what a lookup finds;
* `addressedBy_of_mem` : what is reached by the selector of a visible element.
-/
import FormRehearsal.Proofs.Page.Course
import FormRehearsal.Proofs.Page.Schedule

namespace FormRehearsal.Page

/-! ## Parts of selectors -/

/-- A selector stands for itself alone: it has no comma, and no blank at its ends. -/
structure Single (selector : String) : Prop where
  whole : ',' ∉ selector.toList
  unpadded : Text.Unpadded selector.toList

instance (selector : String) : Decidable (Single selector) :=
  decidable_of_iff (',' ∉ selector.toList ∧ Text.Unpadded selector.toList)
    ⟨fun h => ⟨h.1, h.2⟩, fun h => ⟨h.whole, h.unpadded⟩⟩

/-- A selector that stands for itself alone is its only part. -/
theorem Single.alternatives_eq {selector : String} (h : Single selector) :
    alternatives selector = [selector] := by
  have hpieces : Text.splitAt (· == ',') selector.toList = [selector.toList] := by
    refine Text.splitAt_eq_singleton fun c hc => beq_false_of_ne ?_
    rintro rfl
    exact h.whole hc
  rw [alternatives, hpieces, List.map_singleton, h.unpadded.trim_eq, String.ofList_toList]

/-- The parts of a selector stand for themselves. -/
theorem single_of_mem_alternatives {selector part : String} (h : part ∈ alternatives selector) :
    Single part := by
  obtain ⟨piece, hpiece, rfl⟩ := List.mem_map.1 h
  constructor
  case whole =>
    intro hc
    rw [String.toList_ofList] at hc
    have hcut := Text.not_of_mem_splitAt hpiece ((Text.trim_sublist piece).subset hc)
    exact absurd hcut (by decide)
  case unpadded =>
    rw [String.toList_ofList]
    exact Text.unpadded_trim piece

/-- The selectors that are parts of themselves are those that stand for themselves alone. -/
theorem mem_alternatives_self_iff {selector : String} :
    selector ∈ alternatives selector ↔ Single selector := by
  refine ⟨single_of_mem_alternatives, fun h => ?_⟩
  rw [h.alternatives_eq]
  exact List.mem_singleton.2 rfl

/-! ## Lookups -/

/-- An element is the first one among those that are visible at an instant and whose selectors
satisfy a condition. -/
def FirstShown (p : Page) (now : Nat) (named : String → Prop) (e : Element) : Prop :=
  ∃ before after, p.elements = before ++ e :: after ∧ e.visibleFrom ≤ now ∧ named e.selector ∧
    ∀ other ∈ before, other.visibleFrom ≤ now → ¬ named other.selector

variable {p : Page} {now : Nat} {selector : String} {e : Element}

theorem FirstShown.mem {named : String → Prop} (h : p.FirstShown now named e) :
    e ∈ p.elements := by
  obtain ⟨before, after, helements, -⟩ := h
  rw [helements]
  exact List.mem_append_right _ List.mem_cons_self

/-- A lookup finds the first visible element that a part of the selector names. -/
theorem lookup_eq_some_iff :
    p.lookup now selector = some e ↔ p.FirstShown now (· ∈ alternatives selector) e := by
  have hmatches : ∀ other : Element, Element.matches other selector now = true ↔
      other.visibleFrom ≤ now ∧ other.selector ∈ alternatives selector := by
    intro other
    rw [Element.matches, Bool.and_eq_true, decide_eq_true_iff, List.contains_iff_mem]
  rw [lookup, List.find?_eq_some_iff_append]
  constructor
  · rintro ⟨hfound, before, after, helements, hbefore⟩
    obtain ⟨hvisible, hnamed⟩ := (hmatches e).1 hfound
    refine ⟨before, after, helements, hvisible, hnamed, fun other ho hv hn => ?_⟩
    have hnot := hbefore other ho
    rw [(hmatches other).2 ⟨hv, hn⟩] at hnot
    cases hnot
  · rintro ⟨before, after, helements, hvisible, hnamed, hbefore⟩
    refine ⟨(hmatches e).2 ⟨hvisible, hnamed⟩, before, after, helements, fun other ho => ?_⟩
    rw [Bool.not_eq_true', Bool.eq_false_iff]
    intro hm
    obtain ⟨hv, hn⟩ := (hmatches other).1 hm
    exact hbefore other ho hv hn

/-- The answer to a lookup is the handle of an element exactly if this element is found. -/
theorem query_eq_iff (hp : p.Sound) (he : e ∈ p.elements) :
    (Surface.query now selector p).1 = .ok (some e.id) ↔
      p.FirstShown now (· ∈ alternatives selector) e := by
  have hquery : (Surface.query now selector p).1 =
      .ok ((p.lookup now selector).map (·.id)) := rfl
  rw [hquery, ← lookup_eq_some_iff]
  constructor
  · intro h
    obtain ⟨found, hfound, hid⟩ := Option.map_eq_some_iff.1 (Except.ok.inj h)
    have hmem := List.mem_of_find?_eq_some hfound
    -- handles are distinct
    rwa [List.inj_on_of_nodup_map hp.distinct hmem he hid] at hfound
  · intro h
    rw [h]
    rfl

/-! ## Steps that ask for an element in sight -/

variable {m : Moment}

/-- A search for an element in sight goes on with it at once. -/
theorem run_find_of_lookup (kind : ActionKind) {budget : Nat} (deed : Deed)
    (hb : Text.isBlankText selector = false) (he : p.lookup m.now selector = some e)
    (hbudget : 0 < budget) :
    (find m kind selector budget deed).run p =
      (deed.perform m e.id).run { p with queries := p.queries + 1 } := by
  have hblank : ¬ Text.isBlankText selector = true := by simp [hb]
  have hleft : m.now - m.now < budget := by rwa [Nat.sub_self]
  rw [find, if_neg hblank, run_search hleft, he]

/-- A click on an element in sight is done at once. -/
theorem start_click_of_lookup (hp : p.Sound) (hb : Text.isBlankText selector = false)
    (he : p.lookup m.now selector = some e) (hbudget : 0 < m.policy.lookupBudget) :
    ((Step.click selector).start m).run p =
      (.ok .finished, { p with queries := p.queries + 1 }.record (.click e.selector)) := by
  have hfind : { p with queries := p.queries + 1 }.find? e.id = some e :=
    hp.find?_id (List.mem_of_find?_eq_some he)
  have hclick : (Act.call (Surface.click e.id)).run { p with queries := p.queries + 1 } =
      (.ok (), { p with queries := p.queries + 1 }.record (.click e.selector)) :=
    run_onElement _ hfind
  rw [Step.start, run_find_of_lookup _ _ hb he hbudget, Deed.perform, Act.run_bind, hclick]
  rfl

/-! ## What is reached by a selector -/

/-- What is reached at an instant by a selector under which an element was added. -/
structure AddressedBy (p : Page) (now : Nat) (selector : String) : Prop where
  /-- the first element that was added under it is found, and steps find it at once -/
  single : Single selector → ∃ e, p.FirstShown now (· = selector) e ∧
    (Surface.query now selector p).1 = .ok (some e.id) ∧
    ∀ m : Moment, m.now = now →
      (∀ limit, 0 < limit → ((Step.waitFor selector limit).start m).run p =
        (.ok .finished, { p with queries := p.queries + 1 })) ∧
      (0 < m.policy.lookupBudget → ((Step.click selector).start m).run p =
        (.ok .finished, { p with queries := p.queries + 1 }.record (.click selector)))
  /-- the first element is found that was added under one of the parts -/
  parts : ∀ e ∈ p.elements, (Surface.query now selector p).1 = .ok (some e.id) ↔
    p.FirstShown now (· ∈ alternatives selector) e
  /-- if it has commas or blank ends, no element is found that was added under it -/
  unreached : ¬ Single selector → ∀ e ∈ p.elements, e.selector = selector →
    (Surface.query now selector p).1 ≠ .ok (some e.id)

/-- **Addresses.** On every page that is reached, an element that is visible is found by its
selector, or a visible one that was added under the same selector before, if this has no commas and
no blank ends. Otherwise only elements are found that were added under its parts, of which it is
none. -/
theorem addressedBy_of_mem (hp : p.Reachable) (he : e ∈ p.elements) (hv : e.visibleFrom ≤ now)
    (hb : Text.isBlankText e.selector = false) : p.AddressedBy now e.selector := by
  have hsound := hp.sound
  constructor
  case single =>
    intro hsingle
    have hshows : p.Shows e.selector now := ⟨e, he, hv, mem_alternatives_self_iff.2 hsingle⟩
    obtain ⟨first, hfirst⟩ := Option.isSome_iff_exists.1 (isSome_lookup.2 hshows)
    have hshown := lookup_eq_some_iff.1 hfirst
    have hquery := (query_eq_iff hsound hshown.mem).2 hshown
    simp only [hsingle.alternatives_eq, List.mem_singleton] at hshown
    have hselector : first.selector = e.selector := by
      obtain ⟨-, -, -, -, hselector, -⟩ := hshown
      exact hselector
    refine ⟨first, hshown, hquery, ?_⟩
    rintro m rfl
    refine ⟨fun limit => run_find_of_lookup _ .nothing hb hfirst, fun hbudget => ?_⟩
    rw [start_click_of_lookup hsound hb hfirst hbudget, hselector]
  case parts => exact fun other ho => query_eq_iff hsound ho
  case unreached =>
    intro hnot other ho hsame hquery
    obtain ⟨-, -, -, -, hnamed, -⟩ := (query_eq_iff hsound ho).1 hquery
    rw [hsame] at hnamed
    exact hnot (mem_alternatives_self_iff.1 hnamed)

/-- Of two elements with the same selector the earlier one is found by it, for the later one too. By
the selector with a blank at its end it is found as well, and not the element that has it. -/
theorem addressedBy_earlier :
    let page : Page := (Change.add "#go" "" 0).apply
      ((Change.add "#go" "" 0).apply ((Change.add "#go " "" 0).apply {}))
    Single "#go" ∧ page.AddressedBy 0 "#go" ∧
      (Surface.query 0 "#go" page).1 = .ok (some ⟨"el-2"⟩) ∧
      page.AddressedBy 0 "#go " ∧
      (Surface.query 0 "#go " page).1 = .ok (some ⟨"el-2"⟩) := by
  intro page
  have hp : page.Reachable := ((Reachable.empty.changed _).changed _).changed _
  have hblank : (⟨⟨"el-1"⟩, "#go ", "", 0⟩ : Element) ∈ page.elements := by decide +kernel
  have hlater : (⟨⟨"el-3"⟩, "#go", "", 0⟩ : Element) ∈ page.elements := by decide +kernel
  refine ⟨by decide +kernel, ?_, by decide +kernel, ?_, by decide +kernel⟩
  · exact addressedBy_of_mem hp hlater (Nat.le_refl 0) (by decide +kernel)
  · exact addressedBy_of_mem hp hblank (Nat.le_refl 0) (by decide +kernel)

/-- An element with a comma between the quotes of its selector is not found by it: a step that waits
for it does so until its time is over. -/
theorem unreached_comma :
    let selector := "input[name=\"a,b\"]"
    let page : Page := (Change.add selector "" 0).apply {}
    page.Reachable ∧ Text.isBlankText selector = false ∧
      (∃ e ∈ page.elements, e.selector = selector ∧ e.visibleFrom ≤ 0) ∧
      (Surface.query 0 selector page).1 = .ok none ∧
      ∃ left, Lasts {} 0 (((Step.waitFor selector 1000).start ⟨0, {}, false⟩).run page) 1000
        (.error (.lookupTimeout selector 1000), left) := by
  intro selector page
  have hp : page.Reachable := Reachable.empty.changed _
  have hb : Text.isBlankText selector = false := by decide +kernel
  have helements : page.elements = [⟨⟨"el-1"⟩, selector, "", 0⟩] := by decide +kernel
  have hnot : selector ∉ alternatives selector := by
    rw [mem_alternatives_self_iff]
    decide +kernel
  have hshows : ∀ t, ¬ page.Shows selector t := by
    rintro t ⟨e, he, -, hnamed⟩
    rw [helements] at he
    obtain rfl := List.mem_singleton.1 he
    exact hnot hnamed
  refine ⟨hp, hb, ⟨_, helements ▸ List.mem_singleton.2 rfl, rfl, Nat.le_refl 0⟩, ?_, ?_⟩
  · rw [show (Surface.query 0 selector page).1 = .ok ((page.lookup 0 selector).map (·.id)) from rfl,
      lookup_eq_none (hshows 0)]
    rfl
  · have hnever : page.NeverFound selector 0 200 1000 := fun q _ => hshows _
    have hstart : ((Step.waitFor selector 1000).start ⟨0, {}, false⟩ : Act Page Progress) =
        Lookup.ask ⟨0, {}, false⟩ ⟨selector, 0, 1000⟩ .nothing := by
      rw [Step.start, find, if_neg (by simp [hb])]
    rw [hstart]
    exact ⟨_, lasts_of_neverFound (by decide) (fun _ => rfl) hnever⟩

end FormRehearsal.Page
