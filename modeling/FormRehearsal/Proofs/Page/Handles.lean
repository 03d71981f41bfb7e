/-
# Handles

A page begins empty. Its elements are added and removed and its focus is moved from outside, and
actions use its capabilities, with handles of whatever origin. On every page that is reached like
this, the handles are distinct and were handed out one after another, and the focus is on an element
that is there. What a handle was handed out for does not change: the element may be removed, but no
other one gets its handle.

* `idOf_inj` : different numbers give different handles;
* `keeps_acted` : what actions leave as it was;
* `Reachable.sound` : the handles and the focus of the pages that are reached;
* `Knows.apply`, `Knows.acted` : a handle stays that of its element.
-/
import FormRehearsal.Page.Fixture
import FormRehearsal.Proofs.Page.Appearance
import FormRehearsal.Text.Numeral
import Mathlib.Data.List.Nodup

namespace FormRehearsal

/-! ## Pages that are reached -/

/-- The capabilities that a surface offers. -/
inductive Surface.Offers {σ : Type} [Surface σ] : {α : Type} → Capability σ α → Prop where
  | query (now : Nat) (selector : String) : Offers (Surface.query now selector)
  | active : Offers Surface.active
  | click (element : ElementId) : Offers (Surface.click element)
  | focus (element : ElementId) : Offers (Surface.focus element)
  | read (element : ElementId) : Offers (Surface.read element)
  | write (element : ElementId) (text : String) : Offers (Surface.write element text)
  | key (element : ElementId) (name : String) (phase : KeyPhase) :
    Offers (Surface.key element name phase)
  | scroll (x y : Float) (behavior : ScrollBehavior) : Offers (Surface.scroll x y behavior)
  | highlight (element : ElementId) (duration : Nat) : Offers (Surface.highlight element duration)

/-- What every capability keeps, each of them does. -/
theorem Surface.Keeps.offered {σ α : Type} [Surface σ] {R : σ → σ → Prop} (hR : Surface.Keeps R)
    {capability : Capability σ α} (h : Surface.Offers capability) :
    Capability.Keeps R capability := by
  cases h with
  | query now selector => exact hR.query now selector
  | active => exact hR.active
  | click element => exact hR.click element
  | focus element => exact hR.focus element
  | read element => exact hR.read element
  | write element text => exact hR.write element text
  | key element name phase => exact hR.key element name phase
  | scroll x y behavior => exact hR.scroll x y behavior
  | highlight element duration => exact hR.highlight element duration

namespace Page

/-- A change of a page from outside. -/
inductive Change where
  | add (selector value : String) (visibleFrom : Nat)
  | remove (selector : String)
  | setFocused (selector : String)
  deriving DecidableEq, Repr

/-- The page after a change from outside. -/
def Change.apply (p : Page) : Change → Page
  | add selector value visibleFrom => (p.add selector value visibleFrom).2
  | remove selector => p.remove selector
  | setFocused selector => p.setFocused selector

/-- Nothing that happens outside is written to the journal. -/
@[simp] theorem Change.journal_apply (p : Page) (change : Change) :
    (change.apply p).journal = p.journal := by
  cases change <;> rfl

/-- A page that comes from an empty one by changes from outside and uses of its capabilities. -/
inductive Reachable : Page → Prop where
  | empty : Reachable {}
  | changed {p : Page} (h : Reachable p) (change : Change) : Reachable (change.apply p)
  | used {p : Page} (h : Reachable p) {α : Type} {capability : Capability Page α}
    (hc : Surface.Offers capability) : Reachable (capability p).2

/-- The page that a description gives is reached. -/
theorem Reachable.fixture (fixture : PageFixture) : fixture.page.Reachable := by
  have added : ∀ (elements : List ElementFixture) (p : Page), p.Reachable →
      (elements.foldl (fun p e => (p.add e.selector e.value e.appearAfter).2) p).Reachable := by
    intro elements
    induction elements with
    | nil => exact fun _ h => h
    | cons e elements ih =>
      exact fun _ h => ih _ (h.changed (.add e.selector e.value e.appearAfter))
  have hadded := added fixture.elements {} .empty
  unfold PageFixture.page
  dsimp only
  split
  · rename_i selector _
    exact hadded.changed (.setFocused selector)
  · exact hadded

/-- Whatever actions do to a page that is reached, they reach a page. -/
theorem keeps_reachable : Surface.Keeps fun p q : Page => p.Reachable → q.Reachable := by
  constructor
  case refl => exact fun _ h => h
  case trans => exact fun h h' hp => h' (h hp)
  case query => exact fun now selector _ h => h.used (.query now selector)
  case active => exact fun _ h => h.used .active
  case click => exact fun element _ h => h.used (.click element)
  case focus => exact fun element _ h => h.used (.focus element)
  case read => exact fun element _ h => h.used (.read element)
  case write => exact fun element text _ h => h.used (.write element text)
  case key => exact fun element name phase _ h => h.used (.key element name phase)
  case scroll => exact fun x y behavior _ h => h.used (.scroll x y behavior)
  case highlight => exact fun element duration _ h => h.used (.highlight element duration)

/-! ## Handles -/

/-- Different numbers give different handles. -/
theorem idOf_inj {m n : Nat} (h : idOf m = idOf n) : m = n := by
  have hdigits : ∀ n : Nat, (toString n).toList = Text.digitsOf n := fun _ => String.toList_ofList
  have htext : "el-" ++ toString m = "el-" ++ toString n := congrArg ElementId.text h
  have hlist := congrArg String.toList ((String.append_right_inj _).1 htext)
  rw [hdigits, hdigits] at hlist
  rw [← Text.numeral_digitsOf m, hlist, Text.numeral_digitsOf]

/-- A handle was handed out: its number is not above the last one. -/
def HandedOut (p : Page) (id : ElementId) : Prop := ∃ n ≤ p.lastId, id = idOf n

/-- The handle of the next element was not handed out. -/
theorem not_handedOut_next (p : Page) : ¬ p.HandedOut (idOf (p.lastId + 1)) := by
  rintro ⟨n, hn, hid⟩
  have := idOf_inj hid
  omega

/-- What was handed out once is handed out ever after. -/
theorem HandedOut.mono {p q : Page} {id : ElementId} (h : p.HandedOut id)
    (hle : p.lastId ≤ q.lastId) : q.HandedOut id := by
  obtain ⟨n, hn, rfl⟩ := h
  exact ⟨n, Nat.le_trans hn hle, rfl⟩

/-- The last number only grows. -/
theorem Change.le_lastId_apply (p : Page) (change : Change) :
    p.lastId ≤ (change.apply p).lastId := by
  cases change with
  | add selector value visibleFrom => exact Nat.le_succ _
  | remove selector => exact Nat.le_refl _
  | setFocused selector => exact Nat.le_refl _

/-- The handles of a page are distinct and were handed out, and the focus is on an element that is
there. -/
structure Sound (p : Page) : Prop where
  distinct : p.ids.Nodup
  handedOut : ∀ id ∈ p.ids, p.HandedOut id
  focused : ∀ id, p.active = some id → id ∈ p.ids

theorem sound_empty : Sound {} where
  distinct := List.nodup_nil
  handedOut := fun _ h => absurd h List.not_mem_nil
  focused := fun _ h => by cases h

/-- Changes from outside keep the handles apart and the focus on an element that is there. -/
theorem Sound.apply {p : Page} (h : p.Sound) (change : Change) : (change.apply p).Sound := by
  cases change with
  | add selector value visibleFrom =>
    have hids : (p.add selector value visibleFrom).2.ids = p.ids ++ [idOf (p.lastId + 1)] := by
      rw [ids, elements_add, List.map_append]
      rfl
    constructor
    case distinct =>
      rw [Change.apply, hids]
      refine List.nodup_append.2 ⟨h.distinct, List.nodup_singleton _, fun a ha b hb => ?_⟩
      obtain rfl := List.mem_singleton.1 hb
      rintro rfl
      exact p.not_handedOut_next (h.handedOut _ ha)
    case handedOut =>
      intro id hid
      rw [Change.apply, hids] at hid
      rcases List.mem_append.1 hid with hid | hid
      · exact (h.handedOut id hid).mono (Nat.le_succ _)
      · exact ⟨p.lastId + 1, Nat.le_refl _, List.mem_singleton.1 hid⟩
    case focused =>
      intro id hid
      rw [Change.apply, hids]
      exact List.mem_append_left _ (h.focused id hid)
  | remove selector =>
    have hsub : (p.remove selector).ids.Sublist p.ids := List.filter_sublist.map _
    constructor
    case distinct => exact h.distinct.sublist hsub
    case handedOut => exact fun id hid => h.handedOut id (hsub.subset hid)
    case focused =>
      intro id hid
      -- the focus is lost with its element
      obtain ⟨-, hany⟩ := Option.filter_eq_some_iff.1 hid
      obtain ⟨e, he, hsame⟩ := List.any_eq_true.1 hany
      exact List.mem_map.2 ⟨e, he, of_decide_eq_true hsame⟩
  | setFocused selector =>
    constructor
    case distinct => exact h.distinct
    case handedOut => exact h.handedOut
    case focused =>
      intro id hid
      obtain ⟨e, he, rfl⟩ := Option.map_eq_some_iff.1 hid
      exact List.mem_map_of_mem (List.mem_of_find?_eq_some he)

/-! ## What actions do to handles -/

/-- Actions neither add elements nor take them away, and they move the focus to elements that are
there. -/
structure Acted (p q : Page) : Prop where
  layout : p.layout = q.layout
  lastId : p.lastId = q.lastId
  active : q.active = p.active ∨ ∃ id ∈ p.ids, q.active = some id

/-- What leaves the elements, the last number and the focus alone. -/
theorem Acted.of_eq {p q : Page} (hl : p.layout = q.layout) (hn : p.lastId = q.lastId)
    (ha : q.active = p.active) : Acted p q := ⟨hl, hn, .inl ha⟩

theorem keeps_acted : Surface.Keeps Acted := by
  have refl : ∀ p, Acted p p := fun p => .of_eq rfl rfl rfl
  constructor
  case refl => exact refl
  case trans =>
    intro p q r h h'
    refine ⟨h.layout.trans h'.layout, h.lastId.trans h'.lastId, ?_⟩
    rcases h'.active with ha | ⟨id, hid, ha⟩
    · rw [ha]
      exact h.active
    · exact .inr ⟨id, ids_congr h.layout ▸ hid, ha⟩
  case query => exact fun _ _ p => .of_eq rfl rfl rfl
  case active => exact refl
  case click => exact fun _ => keeps_onElement refl fun _ _ _ => .of_eq rfl rfl rfl
  case focus =>
    exact fun id => keeps_onElement refl fun e p he =>
      ⟨rfl, rfl, .inr ⟨id, isSome_find?_iff.1 (by rw [he]; rfl), rfl⟩⟩
  case read => exact fun _ => keeps_onElement refl fun _ p _ => refl p
  case write =>
    exact fun id text => keeps_onElement refl fun _ p _ =>
      .of_eq (layout_edit id text p.elements).symm rfl rfl
  case key => exact fun _ _ _ => keeps_onElement refl fun _ _ _ => .of_eq rfl rfl rfl
  case scroll => exact fun _ _ _ _ => .of_eq rfl rfl rfl
  case highlight => exact fun _ _ => keeps_onElement refl fun _ _ _ => .of_eq rfl rfl rfl

theorem Sound.acted {p q : Page} (h : p.Sound) (ha : Acted p q) : q.Sound := by
  have hids := ids_congr ha.layout
  constructor
  case distinct => exact hids ▸ h.distinct
  case handedOut => exact fun id hid => (h.handedOut id (hids ▸ hid)).mono (Nat.le_of_eq ha.lastId)
  case focused =>
    intro id hid
    rw [← hids]
    rcases ha.active with hactive | ⟨other, hother, hactive⟩
    · exact h.focused id (hactive ▸ hid)
    · rw [hid] at hactive
      cases hactive
      exact hother

/-- **Handles.** On every page that is reached the handles are distinct and were handed out, and the
focus is on an element that is there. -/
theorem Reachable.sound {p : Page} (h : p.Reachable) : p.Sound := by
  induction h with
  | empty => exact sound_empty
  | changed _ change ih => exact ih.apply change
  | used _ hc ih => exact ih.acted (keeps_acted.offered hc _)

/-- An element that is there is found by its handle. -/
theorem Sound.find?_id {p : Page} (h : p.Sound) {e : Element} (he : e ∈ p.elements) :
    p.find? e.id = some e := by
  obtain ⟨found, hfound⟩ := Option.isSome_iff_exists.1
    (isSome_find?_iff.2 (List.mem_map_of_mem (f := Element.id) he))
  obtain ⟨hmem, hid⟩ := mem_of_find? hfound
  -- handles are distinct, so it is this element that is found
  rw [hfound, List.inj_on_of_nodup_map h.distinct hmem he hid]

/-! ## What a handle was handed out for -/

/-- A handle was handed out for an element of a selector: no other element has it. -/
structure Knows (p : Page) (id : ElementId) (selector : String) : Prop where
  handedOut : p.HandedOut id
  named : ∀ e ∈ p.elements, e.id = id → e.selector = selector

/-- The handle of an element that is there is that of its selector. -/
theorem Sound.knows {p : Page} (h : p.Sound) {e : Element} (he : e ∈ p.elements) :
    p.Knows e.id e.selector where
  handedOut := h.handedOut _ (List.mem_map_of_mem he)
  named := by
    intro other hother hid
    rw [List.inj_on_of_nodup_map h.distinct hother he hid]

namespace Knows

variable {p q : Page} {id : ElementId} {selector : String}

/-- A new element has a handle of its own, and those that are left keep theirs. -/
theorem apply (h : p.Knows id selector) (change : Change) : (change.apply p).Knows id selector := by
  refine ⟨h.handedOut.mono (change.le_lastId_apply p), ?_⟩
  cases change with
  | add other value visibleFrom =>
    intro e he hid
    rcases List.mem_append.1 he with he | he
    · exact h.named e he hid
    · obtain rfl := List.mem_singleton.1 he
      obtain rfl : idOf (p.lastId + 1) = id := hid
      exact absurd h.handedOut p.not_handedOut_next
  | remove other => exact fun e he => h.named e (List.mem_filter.1 he).1
  | setFocused other => exact h.named

/-- Actions keep what handles were handed out for. -/
theorem acted (h : p.Knows id selector) (ha : Acted p q) : q.Knows id selector := by
  refine ⟨h.handedOut.mono (Nat.le_of_eq ha.lastId), fun e he hid => ?_⟩
  have hm : (e.id, e.selector, e.visibleFrom) ∈ p.layout :=
    ha.layout ▸ List.mem_map.2 ⟨e, he, rfl⟩
  obtain ⟨other, hother, hsame⟩ := List.mem_map.1 hm
  obtain ⟨hsameId, hselector, -⟩ : other.id = e.id ∧ other.selector = e.selector ∧ _ := by
    simpa only [Prod.mk.injEq] using hsame
  rw [← hselector]
  exact h.named other hother (hsameId.trans hid)

end Knows

end Page

end FormRehearsal
