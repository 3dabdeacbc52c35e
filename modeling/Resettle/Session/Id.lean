import Resettle.Text.Hex

/-!
# Names of sessions

A session has a number of 128 bits.  It is written as 32 hexadecimal digits in groups, and read
with or without the hyphens between the groups, in braces, or behind `urn:uuid:`.
-/

namespace Resettle

structure SessionId where
  bits : BitVec 128
deriving DecidableEq, Repr

namespace SessionId

def groups : List Nat :=
  [8, 4, 4, 4, 12]

def digits (id : SessionId) : List Char :=
  Text.Hex.ofNat 32 id.bits.toNat

def group : List Nat → List Char → List Char
  | [], cs => cs
  | [_], cs => cs
  | n :: ns, cs => cs.take n ++ '-' :: group ns (cs.drop n)

def text (id : SessionId) : String :=
  String.ofList (group groups id.digits)

/-- The digits of a text in groups, if there is a hyphen behind each group but the last. -/
def ungroup? : List Nat → List Char → Option (List Char)
  | [], cs => some cs
  | [_], cs => some cs
  | n :: ns, cs =>
      match cs.drop n with
      | '-' :: rest => (ungroup? ns rest).map (cs.take n ++ ·)
      | _ => none

def ofDigits? (cs : List Char) : Option SessionId :=
  if cs.length = 32 then (Text.Hex.toNat? cs).map fun n => ⟨BitVec.ofNat 128 n⟩ else none

def ofGroups? (cs : List Char) : Option SessionId :=
  (ungroup? groups cs).bind ofDigits?

def ofText? (s : String) : Option SessionId :=
  let cs := s.toList
  match cs with
  | '{' :: rest =>
      if rest.getLast? = some '}' then ofGroups? rest.dropLast else none
  | 'u' :: 'r' :: 'n' :: ':' :: 'u' :: 'u' :: 'i' :: 'd' :: ':' :: rest => ofGroups? rest
  | _ => if cs.length = 32 then ofDigits? cs else ofGroups? cs

end SessionId

end Resettle
