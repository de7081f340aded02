import AccessGate.Yaml.Token

/-!
# Nodes of a document

* `AccessGate.Yaml.Node` – a **scalar, a sequence or a mapping**, as it is written: keys may be
  anything and may be the same, and what a plain scalar stands for is not looked at yet;
* `AccessGate.Yaml.Node.ofTokens` – the **node of a text**, which holds one document or none.

What is left out where something may stand is a scalar without characters. Every step takes a token
or goes into a part, which bounds their number.
-/

namespace AccessGate.Yaml

/-- A part of a document. -/
inductive Node where
  | scalar (isPlain : Bool) (text : String)
  | sequence (items : List Node)
  | mapping (members : List (Node × Node))
deriving Repr, Inhabited

namespace Node

/-- What stands where nothing is written. -/
def missing : Node := .scalar true ""

/-- Is nothing written before one of the given tokens? -/
def isMissing (ends : List Token) (ts : List Token) : Bool :=
  ts.head?.any fun t => ends.contains t

/-! ### Brackets -/

mutual

/-- A node in brackets, and what follows it. -/
def flow : Nat → List Token → Option (Node × List Token)
  | 0, _ => none
  | steps + 1, ts =>
      match ts with
      | .scalar isPlain text :: rest => some (.scalar isPlain text, rest)
      | .openSequence :: rest =>
          (flowItems steps rest).map fun (xs, after) => (.sequence xs, after)
      | .openMapping :: rest =>
          (flowMembers steps rest).map fun (ms, after) => (.mapping ms, after)
      | _ => none

/-- A node in brackets that may be left out before one of the given tokens. -/
def flowOrMissing (ends : List Token) : Nat → List Token → Option (Node × List Token)
  | 0, _ => none
  | steps + 1, ts => if isMissing ends ts then some (missing, ts) else flow steps ts

/-- The value behind a colon, which may be left out with it. -/
def flowValue (ends : List Token) : Nat → List Token → Option (Node × List Token)
  | 0, _ => none
  | steps + 1, ts =>
      match ts with
      | .value :: rest => flowOrMissing ends steps rest
      | _ => some (missing, ts)

/-- An item of a sequence in brackets, which may be a single member of a mapping. -/
def flowItem : Nat → List Token → Option (Node × List Token)
  | 0, _ => none
  | steps + 1, ts =>
      match ts with
      | .key :: rest => do
          let (k, afterKey) ← flowOrMissing [.value, .comma, .closeSequence] steps rest
          let (v, after) ← flowValue [.comma, .closeSequence] steps afterKey
          return (.mapping [(k, v)], after)
      | _ => flow steps ts

/-- The items of a sequence up to its closing bracket. -/
def flowItems : Nat → List Token → Option (List Node × List Token)
  | 0, _ => none
  | steps + 1, ts =>
      match ts with
      | .closeSequence :: rest => some ([], rest)
      | _ => do
          let (x, after) ← flowItem steps ts
          match after with
          | .closeSequence :: rest => return ([x], rest)
          | .comma :: rest => do
              let (xs, close) ← flowItems steps rest
              return (x :: xs, close)
          | _ => none

/-- A member of a mapping in brackets. Without a mark for its key it has no value. -/
def flowMember : Nat → List Token → Option ((Node × Node) × List Token)
  | 0, _ => none
  | steps + 1, ts =>
      match ts with
      | .key :: rest => do
          let (k, afterKey) ← flowOrMissing [.value, .comma, .closeMapping] steps rest
          let (v, after) ← flowValue [.comma, .closeMapping] steps afterKey
          return ((k, v), after)
      | _ => (flow steps ts).map fun (k, after) => ((k, missing), after)

/-- The members of a mapping up to its closing bracket. -/
def flowMembers : Nat → List Token → Option (List (Node × Node) × List Token)
  | 0, _ => none
  | steps + 1, ts =>
      match ts with
      | .closeMapping :: rest => some ([], rest)
      | _ => do
          let (m, after) ← flowMember steps ts
          match after with
          | .closeMapping :: rest => return ([m], rest)
          | .comma :: rest => do
              let (ms, close) ← flowMembers steps rest
              return (m :: ms, close)
          | _ => none

end

/-! ### Blocks -/

mutual

/-- A node in a block, and what follows it. -/
def block : Nat → List Token → Option (Node × List Token)
  | 0, _ => none
  | steps + 1, ts =>
      match ts with
      | .sequenceStart :: rest => do
          let (xs, after) ← blockItems [.entry, .blockEnd] steps rest
          match after with
          | .blockEnd :: close => return (.sequence xs, close)
          | _ => none
      | .mappingStart :: rest =>
          (blockMembers steps rest).map fun (ms, after) => (.mapping ms, after)
      | _ => flow steps ts

/-- The items of a sequence, where an item may be left out before one of the given tokens. -/
def blockItems (ends : List Token) : Nat → List Token → Option (List Node × List Token)
  | 0, _ => none
  | steps + 1, ts =>
      match ts with
      | .entry :: rest => do
          let (x, after) ← if isMissing ends rest then some (missing, rest) else block steps rest
          let (xs, finish) ← blockItems ends steps after
          return (x :: xs, finish)
      | _ => some ([], ts)

/-- A key or a value in a block, which may be left out. A sequence may stand in the column of the
members around it, and then has no marks of its own. -/
def blockPart : Nat → List Token → Option (Node × List Token)
  | 0, _ => none
  | steps + 1, ts =>
      if isMissing [.key, .value, .blockEnd] ts then some (missing, ts)
      else
        match ts with
        | .entry :: _ =>
            (blockItems [.entry, .key, .value, .blockEnd] steps ts).map fun (xs, after) =>
              (.sequence xs, after)
        | _ => block steps ts

/-- The members of a mapping up to its end. -/
def blockMembers : Nat → List Token → Option (List (Node × Node) × List Token)
  | 0, _ => none
  | steps + 1, ts =>
      match ts with
      | .blockEnd :: rest => some ([], rest)
      | .key :: rest => do
          let (k, afterKey) ← blockPart steps rest
          let (v, after) ←
            match afterKey with
            | .value :: more => blockPart steps more
            | _ => some (missing, afterKey)
          let (ms, close) ← blockMembers steps after
          return ((k, v) :: ms, close)
      | _ => none

end

/-! ### Documents -/

/-- The node of a document behind the marker that starts it. -/
def content (steps : Nat) (ts : List Token) : Option (Node × List Token) :=
  if ts.isEmpty || isMissing [.documentStart, .documentEnd] ts then some (missing, ts)
  else block steps ts

/-- The node of a document that is all there is. -/
def only : Option (Node × List Token) → Except Flaw (Option Node)
  | some (n, rest) =>
      if (rest.dropWhile (· == .documentEnd)).isEmpty then .ok (some n) else .error .malformed
  | none => .error .malformed

/-- The node of a text, if there is one. -/
def ofTokens (ts : List Token) : Except Flaw (Option Node) :=
  let steps := 3 * ts.length + 3
  match ts with
  | [] => .ok none
  | .documentStart :: rest => only (content steps rest)
  | _ => only (block steps ts)

end Node

end AccessGate.Yaml
