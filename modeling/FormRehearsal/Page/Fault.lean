/-
# Faults

A surface can be told to fail. A fault names a capability and an error; after the calls that it lets
pass, every further call of that capability fails with the error before it reaches the surface.
Faults are looked at in the order in which they were added.
-/
import FormRehearsal.Page.Surface

namespace FormRehearsal

/-- The capabilities of a surface by name. -/
inductive CapabilityName where
  | query
  | active
  | click
  | focus
  | read
  | write
  | key
  | scroll
  | highlight
  deriving DecidableEq, Repr

/-- A failure that a surface is told to show. -/
structure Fault where
  capability : CapabilityName
  error : SurfaceError
  /-- the number of calls that still pass -/
  passes : Nat
  deriving DecidableEq, Repr

/-- A surface with faults. -/
structure Faulty (σ : Type) where
  surface : σ
  faults : List Fault := []

namespace Fault

/-- The error that a call meets, if any, and the faults after the call. -/
def meet (capability : CapabilityName) : List Fault → Option SurfaceError × List Fault
  | [] => (none, [])
  | f :: r =>
    if f.capability = capability then
      if f.passes = 0 then (some f.error, f :: r)
      else
        let (e, r) := meet capability r
        (e, { f with passes := f.passes - 1 } :: r)
    else
      let (e, r) := meet capability r
      (e, f :: r)

/-- How many calls of a capability the faults let pass, if they will not let all of them. -/
def passesLeft (capability : CapabilityName) (faults : List Fault) : Option Nat :=
  ((faults.filter (·.capability = capability)).map (·.passes)).min?

/-- A capability behind the faults. -/
def guard {σ α : Type} (name : CapabilityName) (capability : Capability σ α) :
    Capability (Faulty σ) α := fun s =>
  match meet name s.faults with
  | (some e, faults) => (.error e, { s with faults })
  | (none, faults) =>
    let (a, surface) := capability s.surface
    (a, { surface, faults })

end Fault

instance {σ : Type} [Surface σ] : Surface (Faulty σ) where
  query now selector := Fault.guard .query (Surface.query now selector)
  lookupsLeft s := (Fault.passesLeft .query s.faults).merge min (Surface.lookupsLeft s.surface)
  active := Fault.guard .active Surface.active
  click id := Fault.guard .click (Surface.click id)
  focus id := Fault.guard .focus (Surface.focus id)
  read id := Fault.guard .read (Surface.read id)
  write id text := Fault.guard .write (Surface.write id text)
  key id key phase := Fault.guard .key (Surface.key id key phase)
  scroll x y behavior := Fault.guard .scroll (Surface.scroll x y behavior)
  highlight id duration := Fault.guard .highlight (Surface.highlight id duration)

end FormRehearsal
