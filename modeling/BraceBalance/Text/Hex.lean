/-
  Numbers in lower-case hexadecimal notation of a fixed width.
-/
set_option autoImplicit false

namespace BraceBalance.Hex

/-- The hexadecimal digit of a number below 16. -/
def digit (n : Nat) : Char :=
  if n < 10 then Char.ofNat (0x30 + n) else Char.ofNat (0x57 + n)

/-- The last `width` hexadecimal digits of a number. -/
def ofNat : Nat → Nat → List Char
  | 0, _ => []
  | width + 1, n => ofNat width (n / 16) ++ [digit (n % 16)]

end BraceBalance.Hex
