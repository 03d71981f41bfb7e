/-
# Settings in a file

A settings file is a document with a mapping `automation`. What is missing in it keeps the value from
the start; entries of other names are passed over.
-/
import FormRehearsal.Settings.Basic
import FormRehearsal.Yaml.Reader

namespace FormRehearsal.Settings

/-- The settings of the entries about runs. -/
def ofEntries? (entries : List (String × Yaml)) : Option Settings := do
  let standard : Settings := {}
  return { pollInterval :=
             ← Yaml.entryOr "poll_interval_ms" standard.pollInterval Yaml.toWord? entries
           lookupBudget :=
             ← Yaml.entryOr "lookup_timeout_ms" standard.lookupBudget Yaml.toWord? entries
           scrollSettle :=
             ← Yaml.entryOr "scroll_settle_ms" standard.scrollSettle Yaml.toWord? entries
           interruptible :=
             ← Yaml.entryOr "interrupt_waits_on_stop" standard.interruptible Yaml.toBool? entries
           statusCapacity :=
             ← Yaml.entryOr "status_capacity" standard.statusCapacity Yaml.toWord? entries }

/-- The settings of a document. -/
def ofYaml? (v : Yaml) : Option Settings := do
  Yaml.entryOr "automation" {} (fun v => v.toEntries?.bind ofEntries?) (← v.toEntries?)

/-- The settings of a file. -/
def parse (text : String) : Option Settings := (Yaml.parse text).bind ofYaml?

end FormRehearsal.Settings
