/-
# Page descriptions

What a page holds at the start: its elements, each with the time after which it appears, and the
selector of the element that has the focus.
-/
import FormRehearsal.Json.Shape
import FormRehearsal.Page.Basic

namespace FormRehearsal

/-- The description of an element. -/
structure ElementFixture where
  selector : String
  value : String := ""
  appearAfter : Nat := 0
  deriving DecidableEq, Repr

/-- The description of a page. -/
structure PageFixture where
  elements : List ElementFixture := []
  focused : Option String := none
  deriving DecidableEq, Repr

/-- The element that a value describes. -/
def ElementFixture.ofJson? (v : Json) : Option ElementFixture :=
  match v.parts? ["selector", "value", "appear_after_ms"] with
  | some [some (.string selector), value, appearAfter] => do
    return { selector
             value := ← Json.partOr "" Json.toString? value
             appearAfter := ← Json.partOr 0 Json.toWord? appearAfter }
  | _ => none

namespace PageFixture

/-- The page that a value describes. -/
def ofJson? (v : Json) : Option PageFixture :=
  match v.parts? ["elements", "focused"] with
  | some [elements, focused] => do
    let items ← Json.partOr [] Json.toItems? elements
    return { elements := ← items.mapM ElementFixture.ofJson?
             focused := ← Json.partOr none Json.toOptionalText? focused }
  | _ => none

/-- The page at the start, at the instant zero. -/
def page (fixture : PageFixture) : Page :=
  let page := fixture.elements.foldl (fun p e => (p.add e.selector e.value e.appearAfter).2) {}
  match fixture.focused with
  | some selector => page.setFocused selector
  | none => page

end PageFixture

end FormRehearsal
