/-
  Integers in decimal notation: no leading zeros, a minus sign before a negative number.
-/
import BraceBalance.Text.Utf8

set_option autoImplicit false

namespace BraceBalance.Decimal

/-- The decimal digit of a number below 10. -/
def digit (n : Nat) : UInt8 := 0x30 + n.toUInt8

/-- The decimal digits of a natural number. -/
def ofNat (n : Nat) : Bytes :=
  if n < 10 then [digit n] else ofNat (n / 10) ++ [digit (n % 10)]
termination_by n
decreasing_by omega

/-- The decimal notation of an integer. -/
def ofInt (n : Int) : Bytes :=
  if n < 0 then 0x2D :: ofNat n.natAbs else ofNat n.natAbs

end BraceBalance.Decimal
