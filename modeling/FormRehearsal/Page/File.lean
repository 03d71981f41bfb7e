/-
# Pages in a file

A page is described by a document with its `elements` and the selector that has the focus. Entries of
other names are passed over.
-/
import FormRehearsal.Page.Fixture
import FormRehearsal.Yaml.Reader

namespace FormRehearsal

/-- The description of an element in a document. -/
def ElementFixture.ofYaml? (v : Yaml) : Option ElementFixture := do
  let entries ← v.toEntries?
  return { selector := ← Yaml.entry? "selector" Yaml.toText? entries
           value := ← Yaml.entryOr "value" "" Yaml.toText? entries
           appearAfter := ← Yaml.entryOr "appear_after_ms" 0 Yaml.toWord? entries }

namespace PageFixture

/-- The elements of a document. -/
def elementsOf? (v : Yaml) : Option (List ElementFixture) :=
  v.toItems?.bind (·.mapM ElementFixture.ofYaml?)

/-- The page that a document describes. -/
def ofYaml? (v : Yaml) : Option PageFixture := do
  let entries ← v.toEntries?
  return { elements := ← Yaml.entryOr "elements" [] elementsOf? entries
           focused := ← Yaml.entryOr "focused" none Yaml.toOptionalText? entries }

/-- The page that a file describes. -/
def parse (text : String) : Option PageFixture := (Yaml.parse text).bind ofYaml?

end PageFixture

end FormRehearsal
