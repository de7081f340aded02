import AccessGate.Yaml.Plain
import AccessGate.Yaml.Quoted

/-!
# Tokens of YAML

Blocks have no brackets: where one starts and ends is told by columns alone, and that a scalar is a
key is told by the colon behind it. The tokens say all this in so many words.

* `AccessGate.Yaml.Token` – a **token**;
* `AccessGate.Yaml.Layout` – what is known **before a token**: the columns of the blocks around it,
  and what may still turn out to be a key;
* `AccessGate.Yaml.Token.ofCells` – the **tokens of a text**.

What may be a key is a scalar, or a collection in brackets, that starts where a key may start. It is
one if its colon follows on the same line within 1024 characters. Where a block of members goes on,
it has to be one.
-/

namespace AccessGate.Yaml

/-- A token. Entries are the dashes of a block. -/
inductive Token where
  | documentStart
  | documentEnd
  | sequenceStart
  | mappingStart
  | blockEnd
  | key
  | value
  | entry
  | openSequence
  | closeSequence
  | openMapping
  | closeMapping
  | comma
  | scalar (isPlain : Bool) (text : String)
deriving DecidableEq, Repr

/-- What may turn out to be a key: how many tokens come before it, where it starts, and whether it
has to be one. -/
structure Candidate where
  place : Nat
  required : Bool
  start : Cell
deriving DecidableEq, Repr

/-- What is known before a token: the tokens so far, the last one first; the columns of the blocks
around it, the innermost first; what may be a key, in the block and in each of the brackets around
it, the innermost first; and whether a key may start here. -/
structure Layout where
  tokens : List Token
  columns : List Nat
  candidates : List (Option Candidate)
  allowsKey : Bool
deriving DecidableEq, Repr

namespace Layout

/-- What is known before the first token. -/
def empty : Layout := ⟨[], [], [none], true⟩

/-- Are there brackets around the next token? -/
def inFlow (s : Layout) : Bool := decide (1 < s.candidates.length)

/-- What is known after one more token. -/
def add (s : Layout) (t : Token) : Layout := { s with tokens := t :: s.tokens }

/-! ### Blocks -/

/-- The blocks that stand in a column behind the given one come to an end. In brackets columns do
not count. -/
def close (s : Layout) (column : Nat) : Layout :=
  if s.inFlow then s
  else
    let inner := s.columns.takeWhile fun k => decide (column < k)
    { s with
      tokens := inner.map (fun _ => Token.blockEnd) ++ s.tokens
      columns := s.columns.drop inner.length }

/-- All blocks come to an end. -/
def closeAll (s : Layout) : Layout :=
  if s.inFlow then s
  else { s with tokens := s.columns.map (fun _ => Token.blockEnd) ++ s.tokens, columns := [] }

/-- Does a block start in a column? It has to stand behind the block around it. -/
def opens (s : Layout) (column : Nat) : Bool := s.columns.head?.all fun k => decide (k < column)

/-- A block starts in a column, if one does. -/
def openBlock (s : Layout) (t : Token) (column : Nat) : Layout :=
  if s.opens column then { s.add t with columns := column :: s.columns } else s

/-! ### Keys -/

/-- A candidate that is too far away by now is no key. -/
def settleOne (here : Cell) : Option Candidate → Except Flaw (Option Candidate)
  | none => .ok none
  | some c =>
      if c.start.line = here.line ∧ here.index - c.start.index ≤ 1024 then .ok (some c)
      else if c.required then .error .malformed
      else .ok none

/-- The candidates that are near enough yet. -/
def settle (s : Layout) (here : Cell) : Except Flaw Layout := do
  let near ← s.candidates.mapM (settleOne here)
  return { s with candidates := near }

/-- The innermost candidate, if there is one. -/
def candidate? (s : Layout) : Option Candidate := (s.candidates.head?).bind id

/-- The innermost candidate is replaced. -/
def withCandidate (s : Layout) (c : Option Candidate) : Layout :=
  { s with candidates := c :: s.candidates.drop 1 }

/-- The innermost candidate is no key. -/
def release (s : Layout) : Except Flaw Layout :=
  if s.candidate?.any Candidate.required then .error .malformed else .ok (s.withCandidate none)

/-- What starts here may be a key, if a key may start here. -/
def propose (s : Layout) (here : Cell) : Except Flaw Layout :=
  if s.allowsKey then do
    let free ← s.release
    let required := !s.inFlow && s.columns.head? == some here.column
    return free.withCandidate (some ⟨s.tokens.length, required, here⟩)
  else .ok s

/-- Tokens put behind the first `place` ones. -/
def insertAt (s : Layout) (place : Nat) (ts : List Token) : Layout :=
  let later := s.tokens.length - place
  { s with tokens := s.tokens.take later ++ ts.reverse ++ s.tokens.drop later }

/-- The candidate is a key, and with it a block of members may start. -/
def accept (s : Layout) (c : Candidate) : Layout :=
  let free := { s.withCandidate none with allowsKey := false }
  if !s.inFlow && s.opens c.start.column then
    { free.insertAt c.place [.mappingStart, .key] with columns := c.start.column :: s.columns }
  else free.insertAt c.place [.key]

/-! ### Marks -/

/-- A mark that starts a block, where a key may start. -/
def blockMark (s : Layout) (start mark : Token) (here : Cell) (keyNext : Bool) :
    Except Flaw Layout := do
  if !s.inFlow && !s.allowsKey then throw .malformed
  let opened := if s.inFlow then s else s.openBlock start here.column
  let free ← opened.release
  return { free.add mark with allowsKey := keyNext }

/-- The colon behind a key, or one without a key in front of it. -/
def colon (s : Layout) (here : Cell) : Except Flaw Layout :=
  match s.candidate? with
  | some c => .ok ((s.accept c).add .value)
  | none => s.blockMark .mappingStart .value here (!s.inFlow)

/-- A marker between documents. -/
def marker (s : Layout) (t : Token) : Except Flaw Layout := do
  let free ← s.closeAll.release
  return { free.add t with allowsKey := false }

/-- An opening bracket. -/
def openFlow (s : Layout) (t : Token) (here : Cell) : Except Flaw Layout := do
  let proposed ← s.propose here
  return { proposed.add t with candidates := none :: proposed.candidates, allowsKey := true }

/-- A closing bracket, which has to close one. -/
def closeFlow (s : Layout) (t : Token) : Except Flaw Layout :=
  if s.inFlow then
    .ok { s.add t with candidates := s.candidates.drop 1, allowsKey := false }
  else .error .malformed

/-- A comma. -/
def comma (s : Layout) : Except Flaw Layout := do
  let free ← s.release
  return { free.add .comma with allowsKey := true }

/-- A scalar. A key may follow it only in a new line. -/
def scalar (s : Layout) (here : Cell) (isPlain : Bool) (text : List Char) (broken : Bool) :
    Except Flaw Layout := do
  let proposed ← s.propose here
  return { proposed.add (.scalar isPlain (String.ofList text)) with allowsKey := broken }

/-- The column that the lines of a scalar have to reach. -/
def least (s : Layout) : Nat := (s.columns.head?.map (· + 1)).getD 0

end Layout

namespace Token

/-- A scalar in quotes, after the opening one. -/
def quoted (s : Layout) (here : Cell) (read : Quoted.Read) : Except Flaw (Layout × List Cell) := do
  let (text, after) ← read
  let more ← s.scalar here false text false
  return (more, after)

/-- What a token is that is no mark. -/
def content (s : Layout) (here : Cell) (rest : List Cell) : Except Flaw (Layout × List Cell) :=
  if here.char = '\'' then quoted s here (Quoted.single rest)
  else if here.char = '"' then quoted s here (Quoted.double rest)
  else if Plain.starts s.inFlow (here :: rest) then do
    let found := Plain.scan s.inFlow s.least (here :: rest)
    let more ← s.scalar here true found.text found.broken
    return (more, found.rest)
  else .error .malformed

/-- The next token, which starts here, and what follows it. -/
def step (s : Layout) (here : Cell) (rest : List Cell) : Except Flaw (Layout × List Cell) :=
  let mark (e : Except Flaw Layout) := e.map fun more => (more, rest)
  let isMark := s.inFlow || Cell.isGap rest
  if Cell.isMark '-' (here :: rest) then
    (s.marker .documentStart).map fun more => (more, rest.drop 2)
  else if Cell.isMark '.' (here :: rest) then
    (s.marker .documentEnd).map fun more => (more, rest.drop 2)
  else if here.char = '[' then mark (s.openFlow .openSequence here)
  else if here.char = '\x7b' then mark (s.openFlow .openMapping here)
  else if here.char = ']' then mark (s.closeFlow .closeSequence)
  else if here.char = '\x7d' then mark (s.closeFlow .closeMapping)
  else if here.char = ',' then mark s.comma
  else if here.char = '-' ∧ Cell.isGap rest then
    mark (s.blockMark .sequenceStart .entry here true)
  else if here.char = '?' ∧ isMark then
    mark (s.blockMark .mappingStart .key here (!s.inFlow))
  else if here.char = ':' ∧ isMark then mark (s.colon here)
  else content s here rest

/-- What is known at the end of a text, where all brackets have to be closed. -/
def finish (s : Layout) : Except Flaw (List Token) := do
  if s.inFlow then throw .malformed
  let free ← s.closeAll.release
  return free.tokens.reverse

/-- At most so many tokens. -/
def upTo : Nat → Layout → List Cell → Except Flaw (List Token)
  | 0, s, _ => finish s
  | steps + 1, s, cs =>
      match Cell.next false false cs with
      | ([], _) => finish s
      | (here :: rest, passed) => do
          let near ← s.settle here
          let fresh := if passed && !s.inFlow then { near with allowsKey := true } else near
          let (more, after) ← step (fresh.close here.column) here rest
          upTo steps more after

/-- The tokens of a text. Each takes a character. -/
def ofCells (cs : List Cell) : Except Flaw (List Token) := upTo (cs.length + 1) .empty cs

end Token

end AccessGate.Yaml
