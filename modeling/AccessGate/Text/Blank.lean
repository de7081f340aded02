import AccessGate.Text.Ranges

/-!
# Blank characters

White space of every script, and the four information separators of ASCII.

* `AccessGate.Text.isBlank` – the **test**;
* `AccessGate.Text.isSpace` – the same **without the separators**, as numerals have it around them;
* `AccessGate.Text.trimmed` – a row of characters **without those of a class at its ends**;
* `AccessGate.Text.strip` – a text **without the blanks at its ends**.
-/

namespace AccessGate.Text

/-- The blank code points. -/
def blanks : List (Nat × Nat) := [(9, 13), (28, 32), (133, 133), (160, 160), (5760, 5760),
  (8192, 8202), (8232, 8233), (8239, 8239), (8287, 8287), (12288, 12288)]

def isBlank (c : Char) : Bool := within blanks c.toNat

/-- The information separators: of files, groups, records and units. -/
def isSeparator (c : Char) : Bool := within [(28, 31)] c.toNat

/-- White space proper. -/
def isSpace (c : Char) : Bool := isBlank c && !isSeparator c

/-- The characters from the first that is not blank. -/
def dropBlanks (cs : List Char) : List Char := cs.dropWhile isBlank

/-- The characters between those of a class at either end. -/
def trimmed (p : Char → Bool) (cs : List Char) : List Char :=
  ((cs.dropWhile p).reverse.dropWhile p).reverse

/-- The characters between the blanks at either end. -/
def stripped (cs : List Char) : List Char := trimmed isBlank cs

/-- The text without the blanks at its ends. -/
def strip (s : String) : String := String.ofList (stripped s.toList)

end AccessGate.Text
