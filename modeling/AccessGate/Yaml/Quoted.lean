import AccessGate.Text.Encoding
import AccessGate.Yaml.Scalar

/-!
# Scalars in quotes

* `AccessGate.Yaml.Quoted.single` – a scalar in **single quotes**, where a quote is written twice
  and all else is what it is;
* `AccessGate.Yaml.Quoted.double` – a scalar in **double quotes**, where a backslash starts the name
  of a character.

Either may go on over lines, however they are indented, but not beyond a marker between documents.
-/

namespace AccessGate.Yaml.Quoted

open Cell (isBreak isMarker)

/-- A scalar, or its part up to some place, and what follows. -/
abbrev Read := Except Flaw (List Char × List Cell)

/-! ### Blanks -/

/-- The ends of lines before the next character that is no blank. -/
def breaks (atStart : Bool) : List Cell → Read
  | [] => .ok ([], [])
  | cell :: rest =>
      if atStart && isMarker (cell :: rest) then .error .malformed
      else if cell.char = ' ' ∨ cell.char = '\t' then breaks false rest
      else if isBreak cell.char then
        (breaks true rest).map fun (more, after) => (cell.char :: more, after)
      else .ok ([], cell :: rest)

/-- What the blanks at the front become, after the given ones. At the end of a line they do not
count. -/
def gap (blanks : List Char) : List Cell → Read
  | [] => .error .malformed
  | cell :: rest =>
      if cell.char = ' ' ∨ cell.char = '\t' then gap (cell.char :: blanks) rest
      else if isBreak cell.char then
        (breaks true rest).map fun (more, after) => (Cell.folded cell.char more, after)
      else .ok (blanks.reverse, cell :: rest)

/-! ### Single quotes -/

/-- A scalar in single quotes after the opening one, in at most so many steps. -/
def singleUpTo : Nat → List Cell → Read
  | 0, _ => .error .malformed
  | _, [] => .error .malformed
  | steps + 1, cell :: rest =>
      if cell.char = '\'' then
        match rest with
        | ⟨'\'', _, _, _⟩ :: more =>
            (singleUpTo steps more).map fun (s, after) => ('\'' :: s, after)
        | _ => .ok ([], rest)
      else if Cell.isGap [cell] then do
        let (text, more) ← gap [] (cell :: rest)
        let (s, after) ← singleUpTo steps more
        return (text ++ s, after)
      else (singleUpTo steps rest).map fun (s, after) => (cell.char :: s, after)

/-- A scalar in single quotes after the opening one. -/
def single (cs : List Cell) : Read := singleUpTo (cs.length + 1) cs

/-! ### Double quotes -/

/-- The characters of the escapes with one letter. -/
def escapes : List (Char × Char) := [('0', '\x00'), ('a', '\x07'), ('b', '\x08'), ('\t', '\t'),
  ('t', '\t'), ('n', '\n'), ('v', '\x0b'), ('f', '\x0c'), ('r', '\r'), ('e', '\x1b'), (' ', ' '),
  ('"', '"'), ('\\', '\\'), ('/', '/'), ('N', '\u0085'), ('_', '\u00a0'), ('L', '\u2028'),
  ('P', '\u2029')]

/-- The escapes with a number, and how many digits it has. -/
def numbered : List (Char × Nat) := [('x', 2), ('u', 4), ('U', 8)]

/-- The character with the number that digits in base sixteen write. -/
def character (digits : List Nat) : Except Flaw Char :=
  let n := digits.foldl (fun n d => 16 * n + d) 0
  if 0x7FFFFFFF < n then .error .numberTooLarge
  else if 0x10FFFF < n then .error .noCharacter
  else .ok ((Text.char? n).getD '\ufffd')

/-- A character by its number, and what follows. -/
def byNumber (width : Nat) (cs : List Cell) : Read :=
  match (cs.take width).mapM fun cell => digit? 16 cell.char with
  | some digits =>
      if digits.length = width then (character digits).map fun c => ([c], cs.drop width)
      else .error .malformed
  | none => .error .malformed

/-- What stands behind a backslash, and what follows. The end of a line there does not count. -/
def escape : List Cell → Read
  | [] => .error .malformed
  | cell :: rest =>
      match escapes.lookup cell.char, numbered.lookup cell.char with
      | some c, _ => .ok ([c], rest)
      | none, some width => byNumber width rest
      | none, none => if isBreak cell.char then breaks true rest else .error .malformed

/-- A scalar in double quotes after the opening one, in at most so many steps. -/
def doubleUpTo : Nat → List Cell → Read
  | 0, _ => .error .malformed
  | _, [] => .error .malformed
  | steps + 1, cell :: rest =>
      if cell.char = '"' then .ok ([], rest)
      else do
        let (text, more) ←
          if cell.char = '\\' then escape rest
          else if Cell.isGap [cell] then gap [] (cell :: rest)
          else pure ([cell.char], rest)
        let (s, after) ← doubleUpTo steps more
        return (text ++ s, after)

/-- A scalar in double quotes after the opening one. -/
def double (cs : List Cell) : Read := doubleUpTo (cs.length + 1) cs

end AccessGate.Yaml.Quoted
