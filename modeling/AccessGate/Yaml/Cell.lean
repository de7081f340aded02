import AccessGate.Text.Split

/-!
# Characters in their places

What a character means in YAML depends on where it stands: blocks are made of columns, and a key has
to be near its colon on one line.

* `AccessGate.Yaml.Cell` – a **character with its place**, and `AccessGate.Yaml.Cell.ofChars`, the
  cells of a text;
* `AccessGate.Yaml.Cell.next` – the cells **from the next token on**;
* `AccessGate.Yaml.Cell.isMarker` – does a line start with the **marker between documents**?
* `AccessGate.Yaml.Flaw` – why a text is **no document**.

Lines end in any of the usual ways, which are all one; the two separators of Unicode end a line too,
and stay what they are.
-/

namespace AccessGate.Yaml

/-- Why a text is no document: it is not written like one, a number in it has no digits or too many
of them, or a character is asked for by a number that none has. -/
inductive Flaw where
  | malformed
  | noDigits
  | tooManyDigits
  | noCharacter
  | numberTooLarge
deriving DecidableEq, Repr

/-- A character, the number of characters before it, and its line and column. -/
structure Cell where
  char : Char
  index : Nat
  line : Nat
  column : Nat
deriving DecidableEq, Repr

namespace Cell

/-! ### Characters -/

/-- Does the character end a line? -/
def isBreak (c : Char) : Bool := c == '\n' || c == '\u2028' || c == '\u2029'

/-- Can the character stand in a document? -/
def isAllowed (c : Char) : Bool :=
  let n := c.toNat
  n == 9 || n == 10 || n == 13 || (decide (32 ≤ n) && decide (n ≤ 126)) || n == 0x85 ||
    (decide (0xA0 ≤ n) && n != 0xFFFE && n != 0xFFFF)

/-- The characters with all ends of lines written alike. -/
def lines : List Char → List Char
  | [] => []
  | '\r' :: '\n' :: rest => '\n' :: lines rest
  | c :: rest => (if c = '\r' ∨ c = '\u0085' then '\n' else c) :: lines rest

/-- The cells of characters, the first of which stands in the given place. A byte order mark takes
no column. -/
def ofLines (index line column : Nat) : List Char → List Cell
  | [] => []
  | c :: rest =>
      ⟨c, index, line, column⟩ ::
        if isBreak c then ofLines (index + 1) (line + 1) 0 rest
        else ofLines (index + 1) line (if c = '\ufeff' then column else column + 1) rest

/-- The cells of a text. -/
def ofChars (cs : List Char) : List Cell := ofLines 0 0 0 (lines cs)

/-! ### Rows of cells -/

/-- Do the cells start with a blank, or are there none? -/
def isGap : List Cell → Bool
  | [] => true
  | cell :: _ => cell.char == ' ' || cell.char == '\t' || isBreak cell.char

/-- Do the cells start with one of the given characters? -/
def startsWith (options : List Char) : List Cell → Bool
  | [] => false
  | cell :: _ => options.contains cell.char

/-- Is there a marker of three equal characters here? Nothing may stand before it on its line. -/
def isMark (mark : Char) : List Cell → Bool
  | a :: b :: c :: rest =>
      a.column == 0 && a.char == mark && b.char == mark && c.char == mark && isGap rest
  | _ => false

/-- Is there a marker between documents here? -/
def isMarker (cs : List Cell) : Bool := isMark '-' cs || isMark '.' cs

/-- The cells from the next token on, and whether a line ended before it. Spaces, ends of lines and
comments are passed. -/
def next (inComment passed : Bool) : List Cell → List Cell × Bool
  | [] => ([], passed)
  | cell :: rest =>
      if isBreak cell.char then next false true rest
      else if inComment then next true passed rest
      else if cell.char = ' ' then next false passed rest
      else if cell.char = '#' then next true passed rest
      else (cell :: rest, passed)

/-! ### Folding -/

/-- What the ends of lines inside a scalar become, the first one and the others: a single usual one
is a space, and beside others it does not count. -/
def folded (first : Char) (others : List Char) : List Char :=
  if first ≠ '\n' then first :: others
  else if others.isEmpty then [' ']
  else others

end Cell

end AccessGate.Yaml
