import Resettle.Action
import Resettle.Inventory.Collector
import Resettle.PathMap
import Resettle.Php.Grammar.Statement

/-!
# Collecting from files

A collector is run over one file, or over each of a list of files.  In a list every file stands
for itself: one that cannot be read or parsed is noted with its message, and the others are
collected from as if it were not there.
-/

namespace Resettle

variable {σ α : Type}

namespace Php

def ofText (p : Path) (source : String) : Except Error (List Node) :=
  match parse? source with
  | some nodes => .ok nodes
  | none => .error (.parse p)

def ofFile (d : Disk) (p : Path) : Except Error (List Node) := do
  ofText p (← d.readText p)

end Php

namespace Collector

def ofFile (c : Collector σ α) (d : Disk) (p : Path) : Except Error α := do
  return c.collect (← Php.ofFile d p)

end Collector

structure Batch (α : Type) where
  success : PathMap α
  errors : PathMap String

namespace Batch

def empty : Batch α :=
  ⟨.empty, .empty⟩

instance : Inhabited (Batch α) :=
  ⟨empty⟩

def size (b : Batch α) : Nat :=
  b.success.size + b.errors.size

def isEmpty (b : Batch α) : Bool :=
  b.size == 0

def add (b : Batch α) (p : Path) : Except Error α → Batch α
  | .ok a => { b with success := b.success.insert p a }
  | .error e => { b with errors := b.errors.insert p e.message }

def ofResults (results : List (Path × Except Error α)) : Batch α :=
  results.foldl (fun b r => b.add r.1 r.2) empty

end Batch

inductive Mode where
  /-- One after the other. -/
  | sequential
  /-- Half of them beside the other half, and so on. -/
  | parallel
deriving DecidableEq, Repr

namespace Mode

/-- Works on the halves of a list apart, until one member is left, and puts the results side by
side; at most `fuel` halvings. -/
def halve {β : Type} (f : β → α) : Nat → List β → List α
  | 0, xs => xs.map f
  | fuel + 1, xs =>
      if xs.length ≤ 1 then xs.map f
      else
        halve f fuel (xs.take (xs.length / 2)) ++ halve f fuel (xs.drop (xs.length / 2))

def run {β : Type} (m : Mode) (f : β → α) (xs : List β) : List α :=
  match m with
  | sequential => xs.map f
  | parallel => halve f xs.length xs

theorem halve_eq_map {β : Type} (f : β → α) (fuel : Nat) (xs : List β) :
    halve f fuel xs = xs.map f := by
  induction fuel generalizing xs with
  | zero => rfl
  | succ fuel ih =>
      simp only [halve]
      split
      · rfl
      · rw [ih, ih, ← List.map_append, List.take_append_drop]

/-- The order of work does not show. -/
theorem run_eq_map {β : Type} (m : Mode) (f : β → α) (xs : List β) : m.run f xs = xs.map f := by
  cases m with
  | sequential => rfl
  | parallel => exact halve_eq_map f _ xs

end Mode

namespace Batch

/-- Collects from each of some files, and keeps what `keep` makes of the path of a file and of what
was collected from it. -/
def mapFiles {β : Type} (m : Mode) (c : Collector σ β) (keep : Path → β → α) (d : Disk)
    (paths : List Path) : Batch α :=
  ofResults (m.run (fun p => (p, (c.ofFile d p).map (keep p))) paths)

def ofFiles (m : Mode) (c : Collector σ α) (d : Disk) (paths : List Path) : Batch α :=
  mapFiles m c (fun _ a => a) d paths

end Batch

end Resettle
