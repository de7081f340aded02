import AccessGate.Yaml.Cell

/-!
# Scalars without quotes

A plain scalar is made of runs of characters with blanks between them. It may go on over lines, as
long as they are indented, and ends where something else has to begin.

* `AccessGate.Yaml.Plain.starts` – can a plain scalar **start** here?
* `AccessGate.Yaml.Plain.scan` – the **plain scalar** that starts here, and what follows it.
-/

namespace AccessGate.Yaml.Plain

open Cell (isBreak isGap isMarker)

/-- The marks of collections in brackets. -/
def flowMarks : List Char := [',', '[', ']', '\x7b', '\x7d']

/-- The characters that a plain scalar cannot start with, as they mean something else. -/
def marks : List Char := "-?:,[]\x7b\x7d#&*!|>'\"%@\x60".toList

/-- Can a plain scalar start here? -/
def starts (inFlow : Bool) : List Cell → Bool
  | [] => false
  | cell :: rest =>
      let c := cell.char
      if isGap [cell] then false
      else
        !marks.contains c || (!isGap rest && (c == '-' || (!inFlow && (c == '?' || c == ':'))))

/-- Does a run end before this character? -/
def endsRun (inFlow : Bool) (cell : Cell) (rest : List Cell) : Bool :=
  isGap [cell] ||
    (cell.char == ':' && (isGap rest || (inFlow && Cell.startsWith flowMarks rest))) ||
    (inFlow && (cell.char == '?' || flowMarks.contains cell.char))

/-- The run of characters at the front, and what follows it. -/
def run (inFlow : Bool) : List Cell → List Char × List Cell
  | [] => ([], [])
  | cell :: rest =>
      if endsRun inFlow cell rest then ([], cell :: rest)
      else
        let (more, after) := run inFlow rest
        (cell.char :: more, after)

/-- The ends of lines before the next character that is no space, unless a marker stands there. -/
def breaks (atStart : Bool) : List Cell → Option (List Char) × List Cell
  | [] => (some [], [])
  | cell :: rest =>
      if atStart && isMarker (cell :: rest) then (none, cell :: rest)
      else if cell.char = ' ' then breaks false rest
      else if isBreak cell.char then
        let (more, after) := breaks true rest
        (more.map (cell.char :: ·), after)
      else (some [], cell :: rest)

/-- What stands between two runs: the characters it becomes, none if the scalar ends; what follows;
and whether a line ended. -/
structure Gap where
  text : List Char
  rest : List Cell
  broken : Bool

/-- The gap at the front, after the given spaces. -/
def gap (spaces : List Char) : List Cell → Gap
  | [] => ⟨spaces, [], false⟩
  | cell :: rest =>
      if cell.char = ' ' then gap (cell.char :: spaces) rest
      else if isBreak cell.char then
        match breaks true rest with
        | (some more, after) => ⟨Cell.folded cell.char more, after, true⟩
        | (none, after) => ⟨[], after, true⟩
      else ⟨spaces, cell :: rest, false⟩

/-- A scalar that was read: its characters, what follows, and whether a line ended behind it. -/
structure Scanned where
  text : List Char
  rest : List Cell
  broken : Bool

/-- Does a scalar end behind a gap? A comment ends it, and so does a line that is not indented up
to the column `least`. -/
def endsAfter (inFlow : Bool) (least : Nat) (g : Gap) : Bool :=
  g.text.isEmpty || Cell.startsWith ['#'] g.rest ||
    (!inFlow && g.rest.head?.any fun cell => decide (cell.column < least))

/-- At most so many runs of a scalar, the first one after `before`. -/
def runs (inFlow : Bool) (least : Nat) : Nat → Gap → Scanned
  | 0, before => ⟨[], before.rest, before.broken⟩
  | steps + 1, before =>
      match run inFlow before.rest with
      | ([], rest) => ⟨[], rest, before.broken⟩
      | (text, rest) =>
          let after := gap [] rest
          if endsAfter inFlow least after then
            ⟨before.text ++ text, after.rest, after.broken⟩
          else
            let more := runs inFlow least steps after
            ⟨before.text ++ text ++ more.text, more.rest, more.broken⟩

/-- The plain scalar that starts here. Each run takes a character. -/
def scan (inFlow : Bool) (least : Nat) (cs : List Cell) : Scanned :=
  runs inFlow least cs.length ⟨[], cs, false⟩

end AccessGate.Yaml.Plain
