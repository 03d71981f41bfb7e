/-
# Pages

A page is an in-memory document: elements in the order in which they were added, the element that
has the focus, the scroll position and a journal. An element is found by the selector under which it
was added; a selector with commas finds the first element that any of its parts names. An element is
visible from a given instant on.

* `elements_add`, `lastId_add` : adding an element;
* `find?_edit_of_ne`, `find?_edit_self` : what a change to one element does to the others.
-/
import FormRehearsal.Page.Journal
import FormRehearsal.Page.Surface
import FormRehearsal.Text.Blank
import FormRehearsal.Text.Split

namespace FormRehearsal

/-- An element of a page. -/
structure Element where
  id : ElementId
  selector : String
  value : String
  visibleFrom : Nat
  deriving DecidableEq, Repr

/-- An in-memory document. -/
structure Page where
  elements : List Element := []
  active : Option ElementId := none
  scroll : Float × Float := (0, 0)
  journal : List PageEvent := []
  queries : Nat := 0
  lastId : Nat := 0
  deriving Repr

namespace Page

/-! ## Looking at a page -/

/-- The element of a handle. -/
def find? (p : Page) (id : ElementId) : Option Element := p.elements.find? (·.id = id)

/-- The first element that was added under a selector. -/
def named? (p : Page) (selector : String) : Option Element :=
  p.elements.find? (·.selector = selector)

/-- The value of the first element that was added under a selector. -/
def valueOf (p : Page) (selector : String) : Option String := (p.named? selector).map (·.value)

/-- The selector of an element. -/
def selectorOf (p : Page) (id : ElementId) : Option String := (p.find? id).map (·.selector)

/-- The selector of the element that has the focus. -/
def focusedSelector (p : Page) : Option String := p.active.bind p.selectorOf

/-- The parts of a selector, any of which may name the element. -/
def alternatives (selector : String) : List String :=
  (Text.splitAt (· == ',') selector.toList).map fun part => String.ofList (Text.trim part)

/-- Whether an element can be found by a selector at an instant. -/
def Element.matches (e : Element) (selector : String) (now : Nat) : Bool :=
  e.visibleFrom ≤ now && (alternatives selector).contains e.selector

/-- The element that a selector finds at an instant. -/
def lookup (p : Page) (now : Nat) (selector : String) : Option Element :=
  p.elements.find? (Element.matches · selector now)

/-! ## Changing a page from outside -/

/-- The handle with this number. -/
def idOf (n : Nat) : ElementId := ⟨"el-" ++ toString n⟩

/-- The page with one more element, which is visible from an instant on, and its handle. -/
def add (p : Page) (selector value : String) (visibleFrom : Nat) : ElementId × Page :=
  let id := idOf (p.lastId + 1)
  (id, { p with elements := p.elements ++ [⟨id, selector, value, visibleFrom⟩],
                lastId := p.lastId + 1 })

/-- The page without the elements of a selector; the focus is lost with its element. -/
def remove (p : Page) (selector : String) : Page :=
  let elements := p.elements.filter (·.selector ≠ selector)
  { p with elements := elements,
           active := p.active.filter fun id => elements.any (·.id = id) }

/-- The page with the focus on the first element of a selector, or on none. -/
def setFocused (p : Page) (selector : String) : Page :=
  { p with active := (p.named? selector).map (·.id) }

/-! ## Capabilities -/

/-- The elements with one of them changed. -/
def edit (id : ElementId) (f : Element → Element) : List Element → List Element
  | [] => []
  | e :: r => if e.id = id then f e :: r else e :: edit id f r

/-- The page with one more entry in its journal. -/
def record (p : Page) (event : PageEvent) : Page := { p with journal := p.journal ++ [event] }

/-- Carries out an effect on an element, or says that it is no longer there. -/
def onElement {α : Type} (id : ElementId) (effect : Element → Page → α × Page) :
    Capability Page α := fun p =>
  match p.find? id with
  | none => (.error (.detached id.text), p)
  | some e => let (a, p) := effect e p; (.ok a, p)

instance : Surface Page where
  query now selector := fun p =>
    (.ok ((p.lookup now selector).map (·.id)), { p with queries := p.queries + 1 })
  lookupsLeft _ := none
  active := fun p => (.ok p.active, p)
  click id := onElement id fun e p => ((), p.record (.click e.selector))
  focus id := onElement id fun e p =>
    ((), { p with active := some id }.record (.focus e.selector))
  read id := onElement id fun e p => (e.value, p)
  write id text := onElement id fun e p =>
    ((), { p with elements := edit id (fun e => { e with value := text }) p.elements }.record
      (.write e.selector text))
  key id key phase := onElement id fun e p => ((), p.record (.key e.selector key phase))
  scroll x y behavior := fun p =>
    (.ok (), { p with scroll := (p.scroll.1 + x, p.scroll.2 + y) }.record (.scroll x y behavior))
  highlight id duration := onElement id fun e p =>
    ((), p.record (.highlight e.selector duration))

/-! ## Facts about pages -/

@[simp] theorem elements_add (p : Page) (selector value : String) (t : Nat) :
    (p.add selector value t).2.elements =
      p.elements ++ [⟨idOf (p.lastId + 1), selector, value, t⟩] := rfl

@[simp] theorem lastId_add (p : Page) (selector value : String) (t : Nat) :
    (p.add selector value t).2.lastId = p.lastId + 1 := rfl

/-- A change that keeps handles leaves the other elements alone. -/
theorem find?_edit_of_ne {id other : ElementId} {f : Element → Element}
    (hf : ∀ e, (f e).id = e.id) (h : other ≠ id) (es : List Element) :
    (edit id f es).find? (·.id = other) = es.find? (·.id = other) := by
  induction es with
  | nil => rfl
  | cons e r ih =>
    by_cases he : e.id = id
    · simp [edit, he, hf, Ne.symm h]
    · simp only [edit, if_neg he, List.find?_cons, ih]

/-- A change reaches the element of the handle. -/
theorem find?_edit_self {id : ElementId} {f : Element → Element}
    (hf : ∀ e, (f e).id = e.id) (es : List Element) :
    (edit id f es).find? (·.id = id) = (es.find? (·.id = id)).map f := by
  induction es with
  | nil => rfl
  | cons e r ih =>
    by_cases he : e.id = id
    · simp [edit, he, hf]
    · simpa [edit, he] using ih

end Page

end FormRehearsal
