import Resettle.Number.Decimal

/-!
# Hexadecimal text

Numbers with a fixed count of digits, and bytes with two digits each.
-/

namespace Resettle.Text.Hex

/-- A number with at least `width` digits, zeros filling the front. -/
def ofNat (width n : Nat) : List Char :=
  let digits := Nat.toDigits 16 n
  List.replicate (width - digits.length) '0' ++ digits

def toNat? (cs : List Char) : Option Nat :=
  digitsValue? 16 0 cs

/-- Bytes, two digits each. -/
def ofBytes (bytes : List UInt8) : List Char :=
  bytes.flatMap fun b => ofNat 2 b.toNat

def toBytes? : List Char → Option (List UInt8)
  | [] => some []
  | [_] => none
  | a :: b :: rest => do
      let n ← toNat? [a, b]
      return UInt8.ofNat n :: (← toBytes? rest)

end Resettle.Text.Hex
