import AccessGate.Yaml.Node

/-!
# Documents of YAML

The part of YAML that configuration files are written in: mappings and sequences in blocks and in
brackets, plain and quoted scalars, and comments. There are no anchors, tags, or literal blocks.

* `AccessGate.Yaml.Node.value` – the **value of a node**, or what is wrong with it;
* `AccessGate.Yaml.ofText` – the **value of a document**; an empty document holds nothing.

Of equal keys the last one counts. A mapping may take the members of others over: they come first,
and those that it has itself count more.

A node that is wrong does not keep the others from being looked at. The flaw that is told is the one
that lies least deep: a mapping is put together before what its members hold is looked at.
-/

namespace AccessGate.Yaml

/-! ### Flaws by depth -/

/-- A result, or a flaw and how deep it lies. -/
abbrev Deep (α : Type) := Except (Nat × Flaw) α

namespace Deep

/-- Both results, or the flaw that lies less deep; of two that lie alike the first. -/
def both {α β : Type} (a : Deep α) (b : Deep β) : Deep (α × β) :=
  match a, b with
  | .ok x, .ok y => .ok (x, y)
  | .ok _, .error e => .error e
  | .error e, .ok _ => .error e
  | .error e, .error f => .error (if f.1 < e.1 then f else e)

/-- A result that is found so much deeper. -/
def under {α : Type} (depth : Nat) (a : Deep α) : Deep α :=
  a.mapError fun (n, e) => (n + depth, e)

/-- A result that is found at a depth. -/
def found {α : Type} (depth : Nat) (a : Except Flaw α) : Deep α := a.mapError fun e => (depth, e)

end Deep

/-! ### Members -/

/-- The members with one more. The key that is no number is one key here. -/
def putMember : Members → Value × Value → Members
  | [], m => [m]
  | (k, v) :: rest, m =>
      if k = m.1 || k.equals m.1 then (k, m.2) :: rest else (k, v) :: putMember rest m

/-- The members written one after the other. -/
def membersOf (pairs : List (Value × Value)) : Members := pairs.foldl putMember []

namespace Node

/-- The key that a node is. A collection is none. -/
def key : Node → Except Flaw Value
  | .scalar true text => scalarKey text
  | .scalar false text => .ok (.text text)
  | _ => .error .malformed

/-- Does the key of a member take the members of others over? -/
def isMerge : Node → Bool
  | .scalar isPlain text => isPlain && text == mergeMark
  | _ => false

/-- How much deeper than the collection around it a node is looked at: a scalar is no deeper. -/
def depth : Node → Nat
  | .scalar _ _ => 0
  | _ => 2

mutual

/-- The value of a node. -/
def value : Node → Deep Value
  | .scalar isPlain text => if isPlain then .found 1 (scalarValue text) else .ok (.text text)
  | .sequence xs => (values xs).map .list
  | .mapping ms =>
      (Deep.both (merged ms) (own ms)).map fun (before, after) =>
        .mapping (membersOf (before ++ after))

def values : List Node → Deep (List Value)
  | [] => .ok []
  | x :: xs => (Deep.both ((value x).under x.depth) (values xs)).map fun (v, vs) => v :: vs

/-- The members that a mapping has itself. -/
def own : List (Node × Node) → Deep (List (Value × Value))
  | [] => .ok []
  | (k, v) :: ms =>
      if k.isMerge then own ms
      else
        match k.key with
        | .error e => (Deep.both (.found 1 (.error e : Except Flaw Unit)) (own ms)).map Prod.snd
        | .ok name =>
            (Deep.both ((value v).under v.depth) (own ms)).map fun (x, more) => (name, x) :: more

/-- The members that a mapping takes over. -/
def merged : List (Node × Node) → Deep (List (Value × Value))
  | [] => .ok []
  | (k, v) :: ms =>
      if k.isMerge then (Deep.both (offered v) (merged ms)).map fun (first, more) => first ++ more
      else merged ms

/-- The members that a node offers to others: those of a mapping, or of several, of which the
first counts most. -/
def offered : Node → Deep (List (Value × Value))
  | .scalar _ _ => .found 0 (.error .malformed)
  | .sequence xs => offeredByAll xs
  | .mapping ms =>
      (Deep.both (merged ms) (own ms)).map fun (before, after) => before ++ after

def offeredByAll : List Node → Deep (List (Value × Value))
  | [] => .ok []
  | .mapping ms :: xs =>
      (Deep.both (Deep.both (merged ms) (own ms)) (offeredByAll xs)).map
        fun ((before, after), others) => others ++ (before ++ after)
  | _ :: _ => .found 0 (.error .malformed)

end

end Node

/-- The characters of a document without a byte order mark. -/
def unmarked : List Char → List Char
  | '\ufeff' :: cs => cs
  | cs => cs

/-- The value of a document. -/
def ofText (s : String) : Except Flaw Value := do
  let cs := unmarked s.toList
  if !cs.all Cell.isAllowed then throw .malformed
  let tokens ← Token.ofCells (Cell.ofChars cs)
  match ← Node.ofTokens tokens with
  | some n => n.value.mapError Prod.snd
  | none => return .null

end AccessGate.Yaml
