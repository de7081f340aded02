/-!
# Character classes as tables

A class of characters is a table of ranges of code points, ends included.

* `AccessGate.Text.within` – is a code point **in one of the ranges**?
-/

namespace AccessGate.Text

/-- Is `n` in one of the ranges of the table? -/
def within (table : List (Nat × Nat)) (n : Nat) : Bool :=
  table.any fun range => decide (range.1 ≤ n) && decide (n ≤ range.2)

end AccessGate.Text
