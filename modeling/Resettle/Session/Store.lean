import Resettle.Resettlement
import Resettle.Session.Id
import Resettle.Session.Request

/-!
# Sessions

A source project is registered first and migrated later, by the name of its session.  A session
can be started once, and what is migrated is what was registered.
-/

namespace Resettle

/-- A project that was registered and not started yet. -/
structure PendingMigration where
  source : Path
  generation : Generation
deriving DecidableEq, Repr

/-- The sessions that wait to be started, and what their migrations are run with. -/
structure Sessions where
  pending : Dictionary SessionId PendingMigration
  mode : Mode
  settings : Settings

namespace Sessions

def empty (mode : Mode) (settings : Settings) : Sessions :=
  ⟨.empty, mode, settings⟩

def size (x : Sessions) : Nat :=
  x.pending.size

/-- Registers a source project as the session of a fresh number, and answers its generation. -/
def register (x : Sessions) (fresh : SessionId) (source : Path) (d : Disk) :
    Except Error (Generation × Sessions) :=
  let g := Generation.detect d source
  if g.isKnown then .ok (g, { x with pending := x.pending.insert fresh ⟨source, g⟩ })
  else .error (.unsupportedGeneration g)

def migratedDirectory (source : Path) : Path :=
  (source.parent?.getD source).join "migrated"

/-- Takes a session out of the store, unless the request is refused or the session does not
wait. -/
def take (x : Sessions) (id : String) (r : StartRequest) :
    Except Error (PendingMigration × Sessions) :=
  match r.refusal? with
  | some e => .error e
  | none =>
      match SessionId.ofText? id with
      | none => .error (.sessionNotFound id)
      | some key =>
          match x.pending.get? key with
          | none => .error (.sessionNotFound id)
          | some m => .ok (m, { x with pending := x.pending.erase key })

def migrate (x : Sessions) (m : PendingMigration) (r : StartRequest) (scaffolder : Scaffolder) :
    Action Outcome := do
  let output ← Action.freshDirectory (migratedDirectory m.source)
  let project := (Project.create m.source output r.projectName).withGeneration m.generation
  ExceptT.lift ((Resettlement.standard scaffolder r.options x.mode x.settings).run project)

/-- Starts a session, which is taken out of the store even if its migration fails. -/
def start (x : Sessions) (id : String) (r : StartRequest) (scaffolder : Scaffolder) :
    StateM Disk (Except Error Outcome × Sessions) := do
  match x.take id r with
  | .error e => return (.error e, x)
  | .ok (m, rest) => return (← (x.migrate m r scaffolder).finish, rest)

end Sessions

end Resettle
