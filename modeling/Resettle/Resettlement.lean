import Resettle.Detection
import Resettle.Migrator
import Resettle.Scaffolding

/-!
# The resettlement of a project

Its generation is told, its target is scaffolded, and it is migrated.  Whatever goes wrong is part
of the outcome.
-/

namespace Resettle

structure Resettlement where
  dispatcher : Dispatcher
  scaffolder : Scaffolder
  options : ScaffoldOptions

namespace Resettlement

def standard (scaffolder : Scaffolder) (options : ScaffoldOptions) (m : Mode) (s : Settings) :
    Resettlement :=
  ⟨.ofRegistry (.standard m s), scaffolder, options⟩

def stopped (g : Generation) (message : String) : Outcome :=
  ⟨false, message, g, none⟩

def outcome (g : Generation) (target : Path) (m : Migration) : Outcome :=
  match m.conversion.bind Section.reason? with
  | some reason => ⟨false, s!"Conversion failed: {reason}", g, some m⟩
  | none =>
      ⟨m.conversionSucceeded,
        if m.conversionSucceeded then s!"Migrated {g.label} project into {target.text}"
        else "Conversion finished without applying changes",
        g, some m⟩

def run (x : Resettlement) (p : Project) : StateM Disk Outcome := do
  let g := p.generation (← get)
  if !g.isKnown then
    return stopped g s!"Unsupported CodeIgniter version detected in {p.source.text}"
  else
    let (supported, dispatcher) := x.dispatcher.choose g
    if !supported then
      return stopped g s!"No migration coordinator for {g.label}"
    else
      let p := p.withGeneration g
      match ← (x.scaffolder p x.options).finish with
      | .error e => return stopped g e.message
      | .ok () => return outcome g p.target (← dispatcher.execute p)

end Resettlement

end Resettle
