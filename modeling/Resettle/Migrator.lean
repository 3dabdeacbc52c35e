import Resettle.Conversion
import Resettle.Inventory.Analysis

/-!
# Migrators

A registry holds analyzers and converters, a migrator runs those of one generation, and a
dispatcher chooses among migrators.
-/

namespace Resettle

/-- Something that takes the inventory of projects.  It changes nothing. -/
structure Analyzer where
  supports : Generation → Bool
  analyze : Project → Disk → Except Error Inventory

structure Converter where
  supports : Generation → Bool
  convert : Project → Action Bool

namespace Analyzer

def ofGeneration (m : Mode) (g : Generation) : Analyzer where
  supports := fun other => other == g
  analyze := Inventory.ofProject m g

end Analyzer

namespace Converter

def ofGeneration (s : Settings) (g : Generation) : Converter where
  supports := fun other => other == g
  convert := Conversion.run s g

end Converter

structure Registry where
  analyzers : List Analyzer
  converters : List Converter

namespace Registry

/-- An analyzer and a converter for each generation that can be worked on. -/
def standard (m : Mode) (s : Settings) : Registry where
  analyzers := Generation.supported.map (Analyzer.ofGeneration m)
  converters := Generation.supported.map (Converter.ofGeneration s)

def analyzer? (r : Registry) (g : Generation) : Option Analyzer :=
  r.analyzers.find? fun a => a.supports g

def converter? (r : Registry) (g : Generation) : Option Converter :=
  r.converters.find? fun c => c.supports g

end Registry

namespace Section

variable {α : Type}

def ofResult : Except Error α → Section α
  | .ok value => completed value
  | .error e => failure e.message

end Section

structure Migrator where
  supports : Generation → Bool
  execute : Project → StateM Disk Migration

namespace Migrator

def analysis (g : Generation) (a? : Option Analyzer) (p : Project) (d : Disk) :
    Section Inventory :=
  match a? with
  | some a => Section.ofResult (a.analyze p d)
  | none => Section.failure s!"No analyzer found for {g.label}"

def conversion (g : Generation) (c? : Option Converter) (p : Project) :
    StateM Disk (Section Bool) := do
  match c? with
  | some c => return Section.ofResult (← (c.convert p).finish)
  | none => return Section.failure s!"No converter found for {g.label}"

/-- The migrator of a generation.  The conversion does not depend on the analysis. -/
def ofGeneration (g : Generation) (r : Registry) : Migrator where
  supports := fun other => other == g
  execute := fun p => do
    let analysis := analysis g (r.analyzer? g) p (← get)
    let conversion ← conversion g (r.converter? g) p
    return ⟨some analysis, some conversion⟩

end Migrator

/-- Migrators, and the one that was chosen last. -/
structure Dispatcher where
  migrators : List Migrator
  current : Option Nat := none

namespace Dispatcher

/-- A migrator for each generation that can be worked on. -/
def ofRegistry (r : Registry) : Dispatcher where
  migrators := Generation.supported.map fun g => Migrator.ofGeneration g r

/-- Chooses the first migrator for a generation, and answers whether there is one.  If there is
none the choice stays. -/
def choose (x : Dispatcher) (g : Generation) : Bool × Dispatcher :=
  match x.migrators.findIdx? fun c => c.supports g with
  | some i => (true, { x with current := some i })
  | none => (false, x)

def hasCurrent (x : Dispatcher) : Bool :=
  x.current.isSome

def chosen? (x : Dispatcher) : Option Migrator :=
  x.current.bind fun i => x.migrators[i]?

/-- Lets the chosen migrator migrate a project; without one nothing is done. -/
def execute (x : Dispatcher) (p : Project) : StateM Disk Migration :=
  match x.chosen? with
  | some c => c.execute p
  | none => return .empty

end Dispatcher

end Resettle
