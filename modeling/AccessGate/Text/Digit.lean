/-!
# Decimal digits of every script

The digits of a script stand in one row from its zero.

* `AccessGate.Text.digit?` – the **value of a digit** of any script;
* `AccessGate.Text.asciiDigit?` – the same for the digits `0` to `9` alone.
-/

namespace AccessGate.Text

/-- The zeros of all scripts. -/
def zeros : List Nat := [
  48, 1632, 1776, 1984, 2406, 2534, 2662, 2790, 2918, 3046, 3174, 3302, 3430, 3558, 3664, 3792,
  3872, 4160, 4240, 6112, 6160, 6470, 6608, 6784, 6800, 6992, 7088, 7232, 7248, 42528, 43216,
  43264, 43472, 43504, 43600, 44016, 65296, 66720, 68912, 69734, 69872, 69942, 70096, 70384,
  70736, 70864, 71248, 71360, 71472, 71904, 72016, 72784, 73040, 73120, 92768, 92864, 93008,
  120782, 120792, 120802, 120812, 120822, 123200, 123632, 125264, 130032]

/-- The value of a decimal digit. -/
def digit? (c : Char) : Option Nat :=
  (zeros.find? fun first => decide (first ≤ c.toNat) && decide (c.toNat < first + 10)).map
    (c.toNat - ·)

/-- The value of one of the digits `0` to `9`. -/
def asciiDigit? (c : Char) : Option Nat :=
  if '0' ≤ c ∧ c ≤ '9' then some (c.toNat - 48) else none

/-- The number that a row of digit values stands for. -/
def ofDigits (ds : List Nat) : Nat := ds.foldl (fun n d => 10 * n + d) 0

end AccessGate.Text
