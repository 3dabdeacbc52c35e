import Resettle.Dictionary
import Resettle.Json

/-!
# Reading records off JSON values

A record is an object with members of known names, or an array of its members in their order.
Unknown members are passed over, and a known one may not be given twice.  A member that is missing
is an error, or is nothing, or has a default; in the array form it may be missing only if it has
a default.
-/

namespace Resettle.Json

structure Record where
  /-- Whether the members were named. -/
  named : Bool
  members : List (String × Json)

namespace Record

/-- The members of an object that are known, if no name is unreadable and no known one repeated. -/
def ofMembers? (names : List String) : List (Option String × Json) → Option (List (String × Json))
  | [] => some []
  | (none, _) :: _ => none
  | (some name, j) :: rest =>
      match ofMembers? names rest with
      | none => none
      | some known =>
          if name ∉ names then some known
          else if name ∈ known.map Prod.fst then none
          else some ((name, j) :: known)

/-- The record with members of the given names, in this order in the array form. -/
def ofJson? (names : List String) : Json → Option Record
  | object members => (ofMembers? names members).map fun known => ⟨true, known⟩
  | array items =>
      if items.length ≤ names.length then some ⟨false, names.zip items⟩ else none
  | _ => none

def find? (r : Record) (name : String) : Option Json :=
  Dictionary.find? name r.members

variable {α : Type}

def required? (r : Record) (name : String) (read? : Json → Option α) : Option α :=
  (r.find? name).bind read?

/-- A value that may be null. -/
def nullable? (read? : Json → Option α) : Json → Option (Option α)
  | null => some none
  | j => (read? j).map some

/-- A member that may be null or, if members are named, missing. -/
def optional? (r : Record) (name : String) (read? : Json → Option α) : Option (Option α) :=
  match r.find? name with
  | some j => nullable? read? j
  | none => if r.named then some none else none

def withDefault? (r : Record) (name : String) (fallback : α) (read? : Json → Option α) :
    Option α :=
  match r.find? name with
  | some j => read? j
  | none => some fallback

end Record

def asList? {α : Type} (read? : Json → Option α) : Json → Option (List α)
  | array items => items.mapM read?
  | _ => none

def asMembers? {α : Type} (read? : Json → Option α) : Json → Option (List (String × α))
  | object members => members.mapM fun m =>
      match m.1, read? m.2 with
      | some name, some a => some (name, a)
      | _, _ => none
  | _ => none

/-- The member of a family of names that a value gives: the name itself, or an object in which the
name alone has the value null. -/
def asName? {α : Type} (ofName? : String → Option α) : Json → Option α
  | string (some name) => ofName? name
  | object [(some name, null)] => ofName? name
  | _ => none

end Resettle.Json
