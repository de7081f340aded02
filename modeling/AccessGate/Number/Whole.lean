import AccessGate.Text.Digit

/-!
# Whole numbers in base ten

A whole number becomes a text, and a text a whole number, only if it has few enough digits. The sign
is no digit, and zeros in front are digits like all others. Other bases know no such limit.

* `AccessGate.Whole.mostDigits` – the **most digits** of a number that is read or written;
* `AccessGate.Whole.text?` – the **text** of a whole number;
* `AccessGate.Whole.ofDigits?` – the **number** of a row of digits.
-/

namespace AccessGate.Whole

/-- The most digits of a number in base ten. -/
def mostDigits : Nat := 4300

/-- Has the number few enough digits to be written in base ten? -/
def isShort (n : Int) : Bool := decide ((Nat.toDigits 10 n.natAbs).length ≤ mostDigits)

/-- The text of a whole number, if that is not too long. -/
def text? (n : Int) : Option String := if isShort n then some (toString n) else none

/-- The number that a row of digit values stands for, if there are not too many of them. -/
def ofDigits? (ds : List Nat) : Option Nat :=
  if ds.length ≤ mostDigits then some (Text.ofDigits ds) else none

end AccessGate.Whole
