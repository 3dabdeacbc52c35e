import Resettle.Path

/-!
# Entries under paths

Two spellings of one place are one key: the entry keeps the spelling that came first, and its
place among the entries, when it gets another value.
-/

namespace Resettle

/-- Values under paths in order of insertion, no two under spellings of one place. -/
structure PathMap (α : Type) where
  /-- The entries, first inserted first. -/
  entries : List (Path × α)
  /-- Each place occurs once. -/
  nodup : (entries.map fun e => e.1.place).Nodup
deriving DecidableEq, Repr

namespace PathMap

variable {α : Type}

def empty : PathMap α where
  entries := []
  nodup := List.nodup_nil

instance : Inhabited (PathMap α) :=
  ⟨empty⟩

/-- The keys as they were first spelled. -/
def keys (m : PathMap α) : List Path :=
  m.entries.map Prod.fst

def places (m : PathMap α) : List (List String) :=
  m.entries.map fun e => e.1.place

def size (m : PathMap α) : Nat :=
  m.entries.length

def isEmpty (m : PathMap α) : Bool :=
  m.entries.isEmpty

def get? (m : PathMap α) (path : Path) : Option α :=
  (m.entries.find? fun e => e.1.place == path.place).map Prod.snd

def contains (m : PathMap α) (path : Path) : Bool :=
  m.places.contains path.place

def replace (path : Path) (value : α) (es : List (Path × α)) : List (Path × α) :=
  es.map fun e => if e.1.place = path.place then (e.1, value) else e

theorem places_replace (path : Path) (value : α) (es : List (Path × α)) :
    (replace path value es).map (fun e => e.1.place) = es.map fun e => e.1.place := by
  simp only [replace, List.map_map, Function.comp_def]
  refine List.map_congr_left fun e _ => ?_
  split <;> rfl

theorem nodup_append_place {path : Path} {value : α} {es : List (Path × α)}
    (h : (es.map fun e => e.1.place).Nodup)
    (hp : path.place ∉ es.map fun e => e.1.place) :
    ((es ++ [(path, value)]).map fun e => e.1.place).Nodup := by
  rw [List.map_append, List.nodup_append]
  refine ⟨h, by simp, ?_⟩
  intro a ha b hb
  simp only [List.map_cons, List.map_nil, List.mem_singleton] at hb
  subst hb
  exact fun e => hp (e ▸ ha)

/-- The map with `value` at the place of `path`. -/
def insert (m : PathMap α) (path : Path) (value : α) : PathMap α :=
  if h : path.place ∈ m.places then
    ⟨replace path value m.entries, by rw [places_replace]; exact m.nodup⟩
  else
    ⟨m.entries ++ [(path, value)], nodup_append_place m.nodup h⟩

def insertMany (m : PathMap α) (es : List (Path × α)) : PathMap α :=
  es.foldl (fun m e => m.insert e.1 e.2) m

def ofList (es : List (Path × α)) : PathMap α :=
  empty.insertMany es

theorem places_insert (m : PathMap α) (path : Path) (value : α) :
    (m.insert path value).places =
      if path.place ∈ m.places then m.places else m.places ++ [path.place] := by
  unfold insert
  split
  · next h => simp [places, places_replace]
  · next h => simp [places]

end PathMap

end Resettle
