import Resettle.Json.Numeral

/-!
# JSON values

A JSON value as its text gives it: members of an object keep their order and may repeat a name,
numerals are not yet valued, and a string may turn out to name no text.  `isSound` tells whether
all strings are texts and all numerals have a value, `depth` how deep containers are nested.
-/

namespace Resettle

inductive Json where
  | null
  | bool (b : Bool)
  | number (n : Json.Numeral)
  /-- A string; `none` if an escape in it names half of a surrogate pair. -/
  | string (s : Option String)
  | array (items : List Json)
  | object (members : List (Option String × Json))
deriving Repr

namespace Json

instance : Inhabited Json :=
  ⟨null⟩

def text (s : String) : Json :=
  string (some s)

def record (members : List (String × Json)) : Json :=
  object (members.map fun m => (some m.1, m.2))

mutual

/-- Whether every string in a value is a text and every numeral has a value. -/
def isSound : Json → Bool
  | null => true
  | bool _ => true
  | number n => n.value?.isSome
  | string s => s.isSome
  | array items => allSound items
  | object members => membersSound members

def allSound : List Json → Bool
  | [] => true
  | j :: rest => isSound j && allSound rest

def membersSound : List (Option String × Json) → Bool
  | [] => true
  | (name, j) :: rest => name.isSome && isSound j && membersSound rest

end

mutual

/-- How many containers lie around the innermost value. -/
def depth : Json → Nat
  | array items => maxDepth items + 1
  | object members => membersDepth members + 1
  | _ => 0

def maxDepth : List Json → Nat
  | [] => 0
  | j :: rest => max (depth j) (maxDepth rest)

def membersDepth : List (Option String × Json) → Nat
  | [] => 0
  | (_, j) :: rest => max (depth j) (membersDepth rest)

end

def asText? : Json → Option String
  | string s => s
  | _ => none

def asBool? : Json → Option Bool
  | bool b => some b
  | _ => none

end Json

end Resettle
