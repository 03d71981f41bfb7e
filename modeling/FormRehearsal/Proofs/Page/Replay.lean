/-
# Replaying a journal

What shows of a page is the value that each selector has and the selector that has the focus. The
journal of a page says how it came to be like this, as long as no two elements share a selector: if
its entries are replayed over what a page description shows, they give what shows of the page, at
every instant and however far the runs on it have come.

* `Page.view_page` : what shows of the page that a description gives;
* `Page.view_edit` : what a new value changes;
* `keeps_replayed` : every capability enters in the journal what it changes;
* `explained_afterAll` : the journal explains the page in every world.
-/
import FormRehearsal.Proofs.Page.Handles
import FormRehearsal.Proofs.Runner.Frame

namespace FormRehearsal

/-! ## What journals tell -/

/-- The value that an entry gives to the element of a selector. -/
def PageEvent.value? (selector : String) : PageEvent → Option String
  | .write s value => if s = selector then some value else none
  | _ => none

/-- The selector to which an entry moves the focus. -/
def PageEvent.focused? : PageEvent → Option String
  | .focus selector => some selector
  | _ => none

/-- The value that was last given to the element of a selector. -/
def lastValue? (selector : String) (entries : List PageEvent) : Option String :=
  (entries.filterMap (·.value? selector)).getLast?

/-- The selector to which the focus was last moved. -/
def lastFocused? (entries : List PageEvent) : Option String :=
  (entries.filterMap (·.focused?)).getLast?

/-- What shows of a page. -/
structure View where
  value : String → Option String
  focused : Option String

namespace View

/-- What shows after an entry. -/
def enter (v : View) : PageEvent → View
  | .write selector value => { v with value := fun s => if selector = s then value else v.value s }
  | .focus selector => { v with focused := selector }
  | _ => v

/-- What shows after some entries. -/
def replay (v : View) (entries : List PageEvent) : View := entries.foldl enter v

theorem replay_append (v : View) (a b : List PageEvent) :
    v.replay (a ++ b) = (v.replay a).replay b := List.foldl_append

/-- The value of a selector after some entries is the last one that was given to it. -/
theorem value_replay (v : View) (entries : List PageEvent) (selector : String) :
    (v.replay entries).value selector = (lastValue? selector entries).or (v.value selector) := by
  induction entries generalizing v with
  | nil => rfl
  | cons event entries ih =>
    show ((v.enter event).replay entries).value selector = _
    rw [ih, lastValue?, lastValue?, List.filterMap_cons]
    cases event with
    | write s value =>
      by_cases hs : s = selector
      · simp [enter, PageEvent.value?, hs, List.getLast?_cons]
      · simp [enter, PageEvent.value?, hs]
    | _ => rfl

/-- The focus after some entries is where it was last moved. -/
theorem focused_replay (v : View) (entries : List PageEvent) :
    (v.replay entries).focused = (lastFocused? entries).or v.focused := by
  induction entries generalizing v with
  | nil => rfl
  | cons event entries ih =>
    show ((v.enter event).replay entries).focused = _
    rw [ih, lastFocused?, lastFocused?, List.filterMap_cons]
    cases event with
    | focus s => simp [enter, PageEvent.focused?, List.getLast?_cons]
    | _ => rfl

end View

/-! ## What shows of pages -/

/-- What shows of a page: the values of the elements and the focus, by selectors. -/
def Page.view (p : Page) : View := ⟨p.valueOf, p.focusedSelector⟩

/-- The selectors under which the elements of a page were added. -/
def Page.selectors (p : Page) : List String := p.elements.map (·.selector)

namespace PageFixture

/-- The value that a description gives to a selector. -/
def valueOf (fixture : PageFixture) (selector : String) : Option String :=
  (fixture.elements.find? (·.selector = selector)).map (·.value)

/-- The selectors that a description names. -/
def selectors (fixture : PageFixture) : List String := fixture.elements.map (·.selector)

/-- The selector that has the focus by a description: that of one of its elements, or none. -/
def focusedSelector (fixture : PageFixture) : Option String :=
  fixture.focused.filter (· ∈ fixture.selectors)

/-- What shows by a description. -/
def view (fixture : PageFixture) : View := ⟨fixture.valueOf, fixture.focusedSelector⟩

end PageFixture

namespace Page

/-- The page with the elements that are described. -/
def addAll (p : Page) (elements : List ElementFixture) : Page :=
  elements.foldl (fun p e => (p.add e.selector e.value e.appearAfter).2) p

theorem selectors_addAll (p : Page) (elements : List ElementFixture) :
    (p.addAll elements).selectors = p.selectors ++ elements.map (·.selector) := by
  induction elements generalizing p with
  | nil => exact (List.append_nil _).symm
  | cons e elements ih =>
    show ((p.add e.selector e.value e.appearAfter).2.addAll elements).selectors = _
    rw [ih, selectors, elements_add, List.map_append, List.append_assoc]
    rfl

theorem valueOf_addAll (p : Page) (elements : List ElementFixture) (selector : String) :
    (p.addAll elements).valueOf selector =
      (p.valueOf selector).or ((elements.find? (·.selector = selector)).map (·.value)) := by
  induction elements generalizing p with
  | nil => exact Option.or_none.symm
  | cons e elements ih =>
    show ((p.add e.selector e.value e.appearAfter).2.addAll elements).valueOf selector = _
    rw [ih, valueOf, named?, elements_add, List.find?_append, Option.map_or, List.find?_cons,
      List.find?_cons, Option.or_assoc]
    by_cases hs : e.selector = selector
    · simp [hs, valueOf, named?]
    · simp [hs, valueOf, named?]

theorem journal_addAll (p : Page) (elements : List ElementFixture) :
    (p.addAll elements).journal = p.journal := by
  induction elements generalizing p with
  | nil => rfl
  | cons e elements ih => exact ih _

theorem active_addAll (p : Page) (elements : List ElementFixture) :
    (p.addAll elements).active = p.active := by
  induction elements generalizing p with
  | nil => rfl
  | cons e elements ih => exact ih _

/-- The page that a description gives has the elements that it describes, and the focus is on the
first one of the selector that it names. -/
theorem page_eq (fixture : PageFixture) :
    fixture.page =
      { addAll {} fixture.elements with
        active := fixture.focused.bind fun selector =>
          ((addAll {} fixture.elements).named? selector).map (·.id) } := by
  have hactive := active_addAll {} fixture.elements
  unfold PageFixture.page
  dsimp only
  split
  · rename_i selector hf
    rw [hf]
    rfl
  · rename_i hf
    rw [hf]
    exact congrArg (fun active => { addAll {} fixture.elements with active }) hactive

/-- Nothing was entered in the journal of a page that was just made. -/
theorem journal_page (fixture : PageFixture) : fixture.page.journal = [] := by
  rw [page_eq]
  exact journal_addAll {} fixture.elements

theorem selectors_page (fixture : PageFixture) : fixture.page.selectors = fixture.selectors := by
  rw [page_eq]
  exact selectors_addAll {} fixture.elements

/-- What shows of a page that was just made is what its description says. -/
theorem view_page (fixture : PageFixture) : fixture.page.view = fixture.view := by
  have hvalue : fixture.page.valueOf = fixture.valueOf := by
    funext selector
    rw [page_eq]
    exact valueOf_addAll {} fixture.elements selector
  have hfocused : fixture.page.focusedSelector = fixture.focusedSelector := by
    have hsound := (Reachable.fixture fixture).sound
    have hselectors := selectors_page fixture
    have hactive : fixture.page.active =
        fixture.focused.bind fun selector => (fixture.page.named? selector).map (·.id) := by
      rw [page_eq]
      rfl
    rw [focusedSelector, hactive, PageFixture.focusedSelector, ← hselectors]
    cases fixture.focused with
    | none => rfl
    | some selector =>
      cases hn : fixture.page.named? selector with
      | none =>
        -- the selector names no element
        have hnot : selector ∉ fixture.page.selectors := by
          intro hm
          obtain ⟨e, he, hs⟩ := List.mem_map.1 hm
          exact absurd (decide_eq_true hs) (List.find?_eq_none.1 hn e he)
        simp [hn, hnot, Option.filter_some]
      | some e =>
        have hmem := List.mem_of_find?_eq_some hn
        obtain rfl : e.selector = selector := by simpa using List.find?_some hn
        have hin : e.selector ∈ fixture.page.selectors := List.mem_map_of_mem hmem
        simp [hn, hin, selectorOf, hsound.find?_id hmem, Option.filter_some]
  rw [view, hvalue, hfocused]
  rfl

/-- The selector of a handle depends on the layout. -/
theorem selectorOf_congr {p q : Page} (h : p.layout = q.layout) : p.selectorOf = q.selectorOf := by
  have selectorOf_eq : ∀ (p : Page) id,
      p.selectorOf id = (p.layout.find? (·.1 = id)).map (·.2.1) := by
    intro p id
    rw [layout, List.find?_map, Option.map_map]
    rfl
  funext id
  rw [selectorOf_eq, selectorOf_eq, h]

theorem selectors_congr {p q : Page} (h : p.layout = q.layout) : p.selectors = q.selectors := by
  have selectors_eq : ∀ p : Page, p.selectors = p.layout.map (·.2.1) := by
    intro p
    rw [layout, List.map_map]
    rfl
  rw [selectors_eq, selectors_eq, h]

/-- If no two elements share a selector, a new value of an element is the one of its selector. -/
theorem find?_selector_edit {elements : List Element} {id : ElementId} {e : Element}
    (hd : (elements.map (·.selector)).Nodup) (he : elements.find? (·.id = id) = some e)
    (text selector : String) :
    ((edit id (fun e => { e with value := text }) elements).find?
        (·.selector = selector)).map (·.value) =
      if e.selector = selector then some text
      else (elements.find? (·.selector = selector)).map (·.value) := by
  induction elements with
  | nil => cases he
  | cons first rest ih =>
    rw [List.map_cons] at hd
    obtain ⟨hfirst, hrest⟩ := List.nodup_cons.1 hd
    by_cases hid : first.id = id
    · obtain rfl : first = e := by simpa [hid] using he
      by_cases hs : first.selector = selector
      · simp [edit, hid, hs]
      · simp [edit, hid, hs]
    · rw [List.find?_cons_of_neg (by simpa using hid)] at he
      by_cases hs : first.selector = selector
      · -- the element that is edited is another one, and has another selector
        have hne : e.selector ≠ selector := by
          rintro rfl
          rw [hs] at hfirst
          exact hfirst (List.mem_map_of_mem (List.mem_of_find?_eq_some he))
        simp [edit, hid, hs, hne]
      · simpa [edit, hid, hs] using ih hrest he

/-- What shows of a page after an element got a new value. -/
theorem view_edit {p : Page} {id : ElementId} {e : Element} (hd : p.selectors.Nodup)
    (he : p.find? id = some e) (text : String) :
    view { p with elements := edit id (fun e => { e with value := text }) p.elements } =
      p.view.enter (.write e.selector text) := by
  let q : Page := { p with elements := edit id (fun e => { e with value := text }) p.elements }
  have hvalue : q.valueOf = fun s => if e.selector = s then some text else p.valueOf s :=
    funext fun s => find?_selector_edit hd he text s
  have hselector : p.selectorOf = q.selectorOf :=
    selectorOf_congr (layout_edit id text p.elements).symm
  show q.view = _
  rw [view, hvalue, focusedSelector, ← hselector]
  rfl

/-- What shows of a page after an element got the focus. -/
theorem view_focus {p : Page} {id : ElementId} {e : Element} (he : p.find? id = some e) :
    view { p with active := some id } = p.view.enter (.focus e.selector) := by
  have hfocused : focusedSelector { p with active := some id } = some e.selector := by
    show (p.find? id).map (·.selector) = _
    rw [he]
    rfl
  rw [view, hfocused]
  rfl

/-! ## What actions enter -/

/-- If no two elements share a selector, what was entered in the journal explains what shows of the
page now by what showed of it before. -/
structure Replayed (p q : Page) : Prop where
  layout : p.layout = q.layout
  entries : p.selectors.Nodup →
    ∃ entries, q.journal = p.journal ++ entries ∧ q.view = p.view.replay entries

namespace Replayed

variable {p q r : Page}

/-- Nothing is entered, and nothing changes. -/
theorem of_eq (hl : p.layout = q.layout) (hj : q.journal = p.journal) (hv : q.view = p.view) :
    Replayed p q := ⟨hl, fun _ => ⟨[], hj.trans (List.append_nil _).symm, hv⟩⟩

/-- One entry is made, and what it says changes. -/
theorem of_entry (event : PageEvent) (hl : p.layout = q.layout)
    (hj : q.journal = p.journal ++ [event])
    (hv : p.selectors.Nodup → q.view = p.view.enter event) : Replayed p q :=
  ⟨hl, fun hd => ⟨[event], hj, hv hd⟩⟩

theorem refl (p : Page) : Replayed p p := of_eq rfl rfl rfl

theorem trans (h : Replayed p q) (h' : Replayed q r) : Replayed p r := by
  refine ⟨h.layout.trans h'.layout, fun hd => ?_⟩
  obtain ⟨a, ha, hva⟩ := h.entries hd
  obtain ⟨b, hb, hvb⟩ := h'.entries (selectors_congr h.layout ▸ hd)
  exact ⟨a ++ b, by rw [hb, ha, List.append_assoc], by rw [hvb, hva, View.replay_append]⟩

end Replayed

/-- **Entries.** What a capability changes is what it enters in the journal. -/
theorem keeps_replayed : Surface.Keeps Replayed := by
  constructor
  case refl => exact Replayed.refl
  case trans => exact Replayed.trans
  case query => exact fun _ _ _ => .of_eq rfl rfl rfl
  case active => exact Replayed.refl
  case click =>
    exact fun _ => keeps_onElement Replayed.refl fun e _ _ =>
      .of_entry (.click e.selector) rfl rfl fun _ => rfl
  case focus =>
    exact fun _ => keeps_onElement Replayed.refl fun e _ he =>
      .of_entry (.focus e.selector) rfl rfl fun _ => view_focus he
  case read => exact fun _ => keeps_onElement Replayed.refl fun _ p _ => Replayed.refl p
  case write =>
    exact fun id text => keeps_onElement Replayed.refl fun e p he =>
      .of_entry (.write e.selector text) (layout_edit id text p.elements).symm rfl
        fun hd => view_edit hd he text
  case key =>
    exact fun _ name phase => keeps_onElement Replayed.refl fun e _ _ =>
      .of_entry (.key e.selector name phase) rfl rfl fun _ => rfl
  case scroll =>
    exact fun x y behavior _ => .of_entry (.scroll x y behavior) rfl rfl fun _ => rfl
  case highlight =>
    exact fun _ duration => keeps_onElement Replayed.refl fun e _ _ =>
      .of_entry (.highlight e.selector duration) rfl rfl fun _ => rfl

/-! ## Journals that explain -/

/-- The journal of a page explains it by a description. -/
structure ExplainedBy (fixture : PageFixture) (p : Page) : Prop where
  value : ∀ selector,
    p.valueOf selector = (lastValue? selector p.journal).or (fixture.valueOf selector)
  focused : p.focusedSelector = (lastFocused? p.journal).or fixture.focusedSelector
  replayed : p.view = fixture.view.replay p.journal

/-- What a page comes to that a description gives is explained by its journal. -/
theorem Replayed.explainedBy {fixture : PageFixture} (hd : fixture.selectors.Nodup) {p : Page}
    (h : Replayed fixture.page p) : p.ExplainedBy fixture := by
  obtain ⟨entries, hj, hv⟩ := h.entries (selectors_page fixture ▸ hd)
  rw [journal_page, List.nil_append] at hj
  rw [view_page, ← hj] at hv
  constructor
  case value =>
    intro selector
    calc p.valueOf selector
      _ = (fixture.view.replay p.journal).value selector := by rw [← hv]; rfl
      _ = (lastValue? selector p.journal).or (fixture.valueOf selector) := View.value_replay ..
  case focused =>
    calc p.focusedSelector
      _ = (fixture.view.replay p.journal).focused := by rw [← hv]; rfl
      _ = (lastFocused? p.journal).or fixture.focusedSelector := View.focused_replay ..
  case replayed => exact hv

end Page

/-- **Journals.** On a page whose elements have selectors of their own, whatever is asked of a
runner: the value of a selector is the last one that was entered in the journal for it, or that of
the page description, the focus is where it was last moved, or where it was at first, and the
journal that is replayed over the description gives what shows of the page. This was so at every
turn of a run. -/
theorem explained_afterAll (fixture : PageFixture) (hd : fixture.selectors.Nodup) (policy : RunPolicy)
    {moves : List (Move Page)} (hmoves : ∀ f, .change f ∉ moves) :
    let w := (World.fresh fixture.page policy).afterAll moves
    w.runner.surface.ExplainedBy fixture ∧
      ∀ token, ∀ entry ∈ w.storyOf token, entry.surface.ExplainedBy fixture := by
  intro w
  have hkeeps : ∀ move ∈ moves, move.Keeps Page.Replayed := by
    intro move hm
    cases move with
    | change f => exact absurd hm (hmoves f)
    | _ => trivial
  have hframed : Framed Page.Replayed fixture.page w :=
    framed_afterAll Page.keeps_replayed.frames fixture.page policy hkeeps
  constructor
  · exact hframed.surface.explainedBy hd
  · intro token entry he
    exact (hframed.stories token entry he).explainedBy hd

/-- A run is abandoned while it waits after it has typed, and another one sets a value. -/
theorem explained_afterAll_abandoned :
    let fixture : PageFixture :=
      { elements := [{ selector := "#a", value := "old" }, { selector := "#b" }]
        focused := some "#b" }
    let first : Program :=
      [[("action", .string "type"), ("selector", .string "#a"), ("text", .string "new")],
        [("action", .string "wait"), ("ms", .string "400")]]
    let second : Program :=
      [[("action", .string "setValue"), ("selector", .string "#b"), ("value", .string "x")]]
    let moves := [.start first, .goOn ⟨1⟩, .abandon ⟨1⟩ false, .start second, .goOn ⟨3⟩]
    let p := ((World.fresh fixture.page {}).afterAll moves).runner.surface
    p.journal = [.focus "#a", .write "#a" "", .write "#a" "new", .write "#b" "x"] ∧
      p.ExplainedBy fixture := by
  intro fixture first second moves p
  refine ⟨by decide +kernel, (explained_afterAll fixture (by decide) {} ?_).1⟩
  intro f hm
  simp [moves] at hm

end FormRehearsal
