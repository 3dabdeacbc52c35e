/-!
# TOML values and tables

A TOML document is a table, and how a table came about decides what may still be added to it.
`define?` adds a key that may be dotted, `openTable?` and `openItem?` act on the table under a
header.  All answer `none` where a document would define something twice.
-/

namespace Resettle.Toml

/-- How a table came about. -/
inductive Origin where
  /-- A header names it. -/
  | header
  /-- A longer header passes through it. -/
  | implied
  /-- A dotted key passes through it. -/
  | dotted
  /-- It stands between braces, and nothing can be added to it. -/
  | closed
deriving DecidableEq, Repr

/-- A value of a document.  Numbers and dates are kept as they were spelled. -/
inductive Value where
  | text (s : List Char)
  | bool (b : Bool)
  | number (spelling : List Char)
  | date (spelling : List Char)
  | array (items : List Value)
  /-- The tables of an array header, last first. -/
  | tables (items : List (List (List Char × Value)))
  | table (origin : Origin) (entries : List (List Char × Value))
deriving Repr

/-- The keys and values of a table. -/
abbrev Entries :=
  List (List Char × Value)

namespace Entries

def get? (entries : Entries) (key : List Char) : Option Value :=
  (entries.find? fun e => e.1 == key).map Prod.snd

def put (entries : Entries) (key : List Char) (value : Value) : Entries :=
  match entries with
  | [] => [(key, value)]
  | e :: rest => if e.1 = key then (key, value) :: rest else e :: put rest key value

/-- The entries with one more key, unless it is there already. -/
def add? (entries : Entries) (key : List Char) (value : Value) : Option Entries :=
  match entries.get? key with
  | some _ => none
  | none => some (entries ++ [(key, value)])

/-- Adds a value under a dotted key.  The key may pass through tables that nothing but longer
headers or dotted keys made, and its last table must be one that dotted keys made. -/
def define? (value : Value) (entries : Entries) : List (List Char) → Option Entries
  | [] => none
  | [key] => entries.add? key value
  | key :: rest =>
      match entries.get? key with
      | none => (define? value [] rest).map fun inner => entries.put key (.table .dotted inner)
      | some (.table origin inner) =>
          if origin = .dotted ∨ (origin = .implied ∧ rest.length ≠ 1) then
            (define? value inner rest).map fun inner => entries.put key (.table origin inner)
          else none
      | some _ => none

/-- Acts on the table that holds the last key of a header.  The header passes through tables
that are open and through the last table of an array header. -/
def under? (act : Entries → List Char → Option Entries) (entries : Entries) :
    List (List Char) → Option Entries
  | [] => none
  | [key] => act entries key
  | key :: rest =>
      match entries.get? key with
      | none => (under? act [] rest).map fun inner => entries.put key (.table .implied inner)
      | some (.table origin inner) =>
          if origin = .closed then none
          else (under? act inner rest).map fun inner => entries.put key (.table origin inner)
      | some (.tables (last :: items)) =>
          (under? act last rest).map fun inner => entries.put key (.tables (inner :: items))
      | some _ => none

/-- Acts on the table that a header names; only a longer header may have named it before. -/
def openTable? (fill : Entries → Option Entries) (entries : Entries) (path : List (List Char)) :
    Option Entries :=
  under? (fun holder key =>
    match holder.get? key with
    | none => (fill []).map fun inner => holder.put key (.table .header inner)
    | some (.table .implied inner) =>
        (fill inner).map fun inner => holder.put key (.table .header inner)
    | some _ => none) entries path

def openItem? (fill : Entries → Option Entries) (entries : Entries) (path : List (List Char)) :
    Option Entries :=
  under? (fun holder key =>
    match holder.get? key with
    | none => (fill []).map fun inner => holder.put key (.tables [inner])
    | some (.tables items) => (fill []).map fun inner => holder.put key (.tables (inner :: items))
    | some _ => none) entries path

end Entries

end Resettle.Toml
