/-!
# CodeIgniter generations

The three generations of CodeIgniter that can be told apart, and the answer that a project
belongs to none of them.
-/

namespace Resettle

/-- The generation of CodeIgniter that a project is written for. -/
inductive Generation where
  | ci2
  | ci3
  | ci4
  | unknown
deriving DecidableEq, Repr

namespace Generation

instance : Inhabited Generation :=
  ⟨unknown⟩

def supported : List Generation :=
  [ci2, ci3, ci4]

def name : Generation → String
  | ci2 => "ci2"
  | ci3 => "ci3"
  | ci4 => "ci4"
  | unknown => "unknown"

def label : Generation → String
  | ci2 => "CodeIgniter 2"
  | ci3 => "CodeIgniter 3"
  | ci4 => "CodeIgniter 4"
  | unknown => "Unknown CodeIgniter version"

def shortLabel : Generation → String
  | ci2 => "CI2"
  | ci3 => "CI3"
  | ci4 => "CI4"
  | unknown => "UNKNOWN"

/-- Whether a generation has been told. -/
def isKnown (g : Generation) : Bool :=
  g != unknown

/-- The generation with a short or long name, in any letter case. -/
def ofName? (s : String) : Option Generation :=
  match String.ofList (s.toList.map Char.toLower) with
  | "ci2" | "codeigniter2" => some ci2
  | "ci3" | "codeigniter3" => some ci3
  | "ci4" | "codeigniter4" => some ci4
  | "unknown" => some unknown
  | _ => none

theorem mem_supported_iff (g : Generation) : g ∈ supported ↔ g.isKnown = true := by
  cases g <;> decide

end Generation

end Resettle
