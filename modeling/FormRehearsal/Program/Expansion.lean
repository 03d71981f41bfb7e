/-
# Laying out a program over rows

Every row has its own copy of the program with the placeholders filled, and the copy is repeated
back to back before the next row starts. Without rows there is one copy, filled from the synthetic
context.
-/
import FormRehearsal.Program.Basic
import FormRehearsal.Program.RepeatCount
import FormRehearsal.Program.Template

namespace FormRehearsal.Program

/-- The step with the texts of its values filled. -/
def fillStep (context : Template.Context) (step : Instruction) : Instruction :=
  Template.fillFields context step

/-- The contexts of some rows, the first of which has the given ordinal. -/
def contextsFrom (ordinal : Nat) : List Row → List Template.Context
  | [] => []
  | row :: r => .ofRow ordinal row :: contextsFrom (ordinal + 1) r

/-- The contexts that a program is filled from. -/
def contexts : List Row → List Template.Context
  | [] => [.synthetic]
  | rows => contextsFrom 1 rows

/-- The stream of steps: for every context the filled program, repeated. The room that is set aside
for the stream beforehand is left out: it is the product of the numbers of contexts, of repeats and
of steps in a machine word, and where that does not fit, or no vector could hold as many steps, the
program may break off. -/
def expand (program : Program) (rows : List Row) (repeats : RepeatCount) : Program :=
  (contexts rows).flatMap fun context =>
    (List.replicate repeats.times (program.map (fillStep context))).flatten

end FormRehearsal.Program
