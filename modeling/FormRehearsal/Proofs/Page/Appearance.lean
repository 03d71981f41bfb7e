/-
# Elements that appear

An element is there for a lookup from an instant on. A search looks for it once in every pace until
its budget is spent: it finds an element after some delay, or never. Actions neither add elements
nor take them away, and they do not change when an element appears; what they do is added to the
journal.

* `isSome_lookup` : a lookup finds an element if one shows;
* `foundAfter_or_neverFound` : a search finds an element after some delay, or never;
* `keeps_layout`, `keeps_journal` : what actions leave as it was, and what they only add to;
* `exists_run` : an effect on an element that is there succeeds;
* `run_search` : what a lookup within the budget goes on with.
-/
import FormRehearsal.Page.Basic
import FormRehearsal.Proofs.Run.Frame
import Mathlib.Data.Nat.Find

namespace FormRehearsal.Page

/-! ## Searches -/

/-- An element that a selector names is visible at an instant. -/
def Shows (p : Page) (selector : String) (t : Nat) : Prop :=
  ∃ e ∈ p.elements, e.visibleFrom ≤ t ∧ e.selector ∈ alternatives selector

/-- A search finds an element after a delay: it is the least multiple of the pace below the budget
after which an element is visible. -/
def FoundAfter (p : Page) (selector : String) (since pace budget delay : Nat) : Prop :=
  ∃ q, delay = q * pace ∧ delay < budget ∧ p.Shows selector (since + delay) ∧
    ∀ r < q, ¬ p.Shows selector (since + r * pace)

/-- A search finds no element: none is visible after any multiple of the pace below the budget. -/
def NeverFound (p : Page) (selector : String) (since pace budget : Nat) : Prop :=
  ∀ q, q * pace < budget → ¬ p.Shows selector (since + q * pace)

/-- A lookup finds an element if one shows. -/
theorem isSome_lookup {p : Page} {selector : String} {t : Nat} :
    (p.lookup t selector).isSome ↔ p.Shows selector t := by
  simp [lookup, Element.matches, Shows]

theorem lookup_eq_none {p : Page} {selector : String} {t : Nat} (h : ¬ p.Shows selector t) :
    p.lookup t selector = none := by
  rwa [← isSome_lookup, Option.not_isSome_iff_eq_none] at h

/-- The element that a lookup finds is there. -/
theorem isSome_find?_of_lookup {p : Page} {selector : String} {t : Nat} {e : Element}
    (h : p.lookup t selector = some e) : (p.find? e.id).isSome := by
  rw [find?, List.find?_isSome]
  exact ⟨e, List.mem_of_find?_eq_some h, by simp⟩

/-- A search finds an element after some delay, or never. -/
theorem foundAfter_or_neverFound (p : Page) (selector : String) (since pace budget : Nat) :
    (∃ delay, p.FoundAfter selector since pace budget delay) ∨
      p.NeverFound selector since pace budget := by
  classical
  by_cases h : ∃ q, q * pace < budget ∧ p.Shows selector (since + q * pace)
  · obtain ⟨hlt, hshows⟩ := Nat.find_spec h
    refine .inl ⟨_, Nat.find h, rfl, hlt, hshows, fun r hr hs => Nat.find_min h hr ⟨?_, hs⟩⟩
    exact Nat.lt_of_le_of_lt (Nat.mul_le_mul_right _ (Nat.le_of_lt hr)) hlt
  · exact .inr fun q hq hs => h ⟨q, hq, hs⟩

/-! ## What actions do to a page -/

/-- The elements of a page without their values. -/
def layout (p : Page) : List (ElementId × String × Nat) :=
  p.elements.map fun e => (e.id, e.selector, e.visibleFrom)

/-- The handles of the elements that are there. -/
def ids (p : Page) : List ElementId := p.elements.map (·.id)

/-- What shows on a page depends on its layout. -/
theorem shows_congr {p q : Page} (h : p.layout = q.layout) (selector : String) (t : Nat) :
    p.Shows selector t ↔ q.Shows selector t := by
  have mem : ∀ p : Page, p.Shows selector t ↔
      ∃ x ∈ p.layout, x.2.2 ≤ t ∧ x.2.1 ∈ alternatives selector := by
    intro p
    simp [Shows, layout]
  rw [mem, mem, h]

theorem foundAfter_congr {p q : Page} (h : p.layout = q.layout) {selector : String}
    {since pace budget delay : Nat} :
    p.FoundAfter selector since pace budget delay ↔
      q.FoundAfter selector since pace budget delay := by
  simp only [FoundAfter, shows_congr h]

theorem neverFound_congr {p q : Page} (h : p.layout = q.layout) {selector : String}
    {since pace budget : Nat} :
    p.NeverFound selector since pace budget ↔ q.NeverFound selector since pace budget := by
  simp only [NeverFound, shows_congr h]

/-- A new value changes nothing else of an element. -/
theorem layout_edit (id : ElementId) (text : String) (es : List Element) :
    (edit id (fun e => { e with value := text }) es).map
        (fun e => (e.id, e.selector, e.visibleFrom)) =
      es.map fun e => (e.id, e.selector, e.visibleFrom) := by
  induction es with
  | nil => rfl
  | cons e es ih =>
    rw [edit]
    split
    · rfl
    · rw [List.map_cons, List.map_cons, ih]

/-- An effect on an element that is there keeps a relation also if the element may be gone. -/
theorem keeps_onElement {α : Type} {R : Page → Page → Prop} (hrefl : ∀ p, R p p) {id : ElementId}
    {effect : Element → Page → α × Page}
    (h : ∀ e p, p.find? id = some e → R p (effect e p).2) :
    Capability.Keeps R (onElement id effect) := by
  intro p
  unfold onElement
  split
  · exact hrefl p
  · rename_i e he
    exact h e p he

/-- Actions change no layout. -/
theorem keeps_layout : Surface.Keeps fun p q : Page => p.layout = q.layout := by
  have refl : ∀ p : Page, p.layout = p.layout := fun _ => rfl
  constructor
  case refl => exact refl
  case trans => exact fun h h' => h.trans h'
  case query => exact fun _ _ p => refl p
  case active => exact refl
  case click => exact fun _ => keeps_onElement refl fun _ p _ => refl p
  case focus => exact fun _ => keeps_onElement refl fun _ p _ => refl p
  case read => exact fun _ => keeps_onElement refl fun _ p _ => refl p
  case write =>
    exact fun id text => keeps_onElement refl fun _ p _ => (layout_edit id text p.elements).symm
  case key => exact fun _ _ _ => keeps_onElement refl fun _ p _ => refl p
  case scroll => exact fun _ _ _ p => refl p
  case highlight => exact fun _ _ => keeps_onElement refl fun _ p _ => refl p

/-- An element is found by its handle if it is there. -/
theorem isSome_find?_iff {p : Page} {id : ElementId} : (p.find? id).isSome ↔ id ∈ p.ids := by
  simp [find?, ids]

/-- The element that is found by a handle is there and has this handle. -/
theorem mem_of_find? {p : Page} {id : ElementId} {e : Element} (h : p.find? id = some e) :
    e ∈ p.elements ∧ e.id = id :=
  ⟨List.mem_of_find?_eq_some h, by simpa using List.find?_some h⟩

/-- The handles of the elements depend on the layout. -/
theorem ids_congr {p q : Page} (h : p.layout = q.layout) : p.ids = q.ids := by
  have ids_eq : ∀ p : Page, p.ids = p.layout.map (·.1) := by
    intro p
    rw [ids, layout, List.map_map]
    rfl
  rw [ids_eq, ids_eq, h]

/-- An effect on an element that is there. -/
theorem run_onElement {α : Type} {p : Page} {id : ElementId} {e : Element}
    (effect : Element → Page → α × Page) (he : p.find? id = some e) :
    (Act.call (onElement id effect)).run p = (.ok (effect e p).1, (effect e p).2) := by
  rw [Act.run_call, onElement, he]

/-- An effect on an element that is gone. -/
theorem run_onElement_of_none {α : Type} {p : Page} {id : ElementId}
    (effect : Element → Page → α × Page) (hn : p.find? id = none) :
    (Act.call (onElement id effect)).run p = (.error (.surface (.detached id.text)), p) := by
  rw [Act.run_call, onElement, hn]

/-- A key goes down and comes up on an element that is there. -/
theorem run_stroke {p : Page} {id : ElementId} {e : Element} (he : p.find? id = some e)
    (name : String) :
    (stroke id name).run p =
      (.ok (), (p.record (.key e.selector name .down)).record (.key e.selector name .up)) := by
  have hdown : (Act.call (Surface.key id name .down)).run p =
      (.ok (), p.record (.key e.selector name .down)) := run_onElement _ he
  rw [stroke, Act.run_bind, hdown]
  exact run_onElement _ he

/-- No key goes down on an element that is gone. -/
theorem run_stroke_of_none {p : Page} {id : ElementId} (hn : p.find? id = none) (name : String) :
    (stroke id name).run p = (.error (.surface (.detached id.text)), p) := by
  have hdown : (Act.call (Surface.key id name .down)).run p =
      (.error (.surface (.detached id.text)), p) := run_onElement_of_none _ hn
  rw [stroke, Act.run_bind, hdown]

/-- An effect on an element that is there succeeds, and the element stays there. -/
theorem exists_run {α : Type} {capability : Capability Page α} {p : Page} {id : ElementId}
    (hk : Capability.Keeps (fun p q => p.layout = q.layout) capability)
    (hc : ∃ effect, capability = onElement id effect) (h : (p.find? id).isSome) :
    ∃ a q, (Act.call capability).run p = (.ok a, q) ∧ (q.find? id).isSome := by
  obtain ⟨effect, rfl⟩ := hc
  obtain ⟨e, he⟩ := Option.isSome_iff_exists.1 h
  have hq := hk p
  rw [onElement, he] at hq
  have hids : p.ids = (effect e p).2.ids := ids_congr hq
  refine ⟨(effect e p).1, (effect e p).2, run_onElement effect he, ?_⟩
  rwa [isSome_find?_iff, ← hids, ← isSome_find?_iff]

/-- A lookup within the budget goes on with the element that it finds; without one, the search
waits. No page refuses a lookup, so none is repeated at once. -/
theorem run_search {m : Moment} {l : Lookup} (hb : m.now - l.since < l.budget) (deed : Deed)
    (p : Page) :
    (l.ask m deed).run p =
      match p.lookup m.now l.selector with
      | some e => (deed.perform m e.id).run { p with queries := p.queries + 1 }
      | none => (m.suspend m.policy.pollStep (.looking l deed)).run
          { p with queries := p.queries + 1 } := by
  have hrepeats : m.policy.repeats p = 0 := by
    unfold Policy.repeats
    split <;> rfl
  have hquery : (Act.call (Surface.query m.now l.selector)).run p =
      (.ok ((p.lookup m.now l.selector).map (·.id)), { p with queries := p.queries + 1 }) := rfl
  simp only [Lookup.ask, if_pos hb, Act.run_bind, Act.run_look, hrepeats, Lookup.retry, hquery]
  cases p.lookup m.now l.selector <;> rfl

/-- Actions take nothing out of the journal. -/
theorem keeps_journal : Surface.Keeps fun p q : Page => p.journal <+: q.journal := by
  have record : ∀ (p : Page) event, p.journal <+: (p.record event).journal :=
    fun _ _ => List.prefix_append _ _
  have refl : ∀ p : Page, p.journal <+: p.journal := fun _ => List.prefix_refl _
  constructor
  case refl => exact refl
  case trans => exact fun h h' => h.trans h'
  case query => exact fun _ _ p => refl p
  case active => exact refl
  case click => exact fun _ => keeps_onElement refl fun _ p _ => record p _
  case focus => exact fun _ => keeps_onElement refl fun _ p _ => record p _
  case read => exact fun _ => keeps_onElement refl fun _ p _ => refl p
  case write => exact fun _ _ => keeps_onElement refl fun _ p _ => record p _
  case key => exact fun _ _ _ => keeps_onElement refl fun _ p _ => record p _
  case scroll => exact fun _ _ _ p => record p _
  case highlight => exact fun _ _ => keeps_onElement refl fun _ p _ => record p _

end FormRehearsal.Page
