import AccessGate.Value.Display

/-!
# The order of values

Texts are ordered by code points, numbers by their place on the number line, byte strings byte by
byte, and tuples by the first items that differ. No other two values have an order, so a row of
them cannot always be sorted.

* `AccessGate.Value.before` – does a value come **strictly before** another one?
* `AccessGate.Unordered` – the **kinds of two values** that have no order;
* `AccessGate.Order.sort` – a row of members **sorted by key**, if neighbours have an order.
-/

namespace AccessGate

/-- The kinds of two values that have no order. -/
structure Unordered where
  left : String
  right : String
deriving DecidableEq, Repr

def Unordered.message (e : Unordered) : String :=
  "'<' not supported between instances of '" ++ e.left ++ "' and '" ++ e.right ++ "'"

namespace Value

/-- Two numbers by their place on the number line. One that is no number comes before nothing. -/
def pointBefore (a b : Value) : Except Unordered Bool :=
  if a.isNumber && b.isNumber then
    match a.point?, b.point? with
    | some p, some q => .ok (p.lt q)
    | _, _ => .ok false
  else .error ⟨a.kind, b.kind⟩

mutual

/-- Does a value come strictly before another one? -/
def before : Value → Value → Except Unordered Bool
  | .text s, other =>
      match other with
      | .text t => .ok (decide (s < t))
      | v => .error ⟨(Value.text s).kind, v.kind⟩
  | .bytes as, other =>
      match other with
      | .bytes bs => .ok (decide (as < bs))
      | v => .error ⟨(Value.bytes as).kind, v.kind⟩
  | .tuple xs, other =>
      match other with
      | .tuple ys => rowBefore xs ys
      | v => .error ⟨(Value.tuple xs).kind, v.kind⟩
  | v, other => pointBefore v other
termination_by structural a => a

def rowBefore : List Value → List Value → Except Unordered Bool
  | [], others => .ok (!others.isEmpty)
  | x :: xs, others =>
      match others with
      | [] => .ok false
      | y :: ys => if x.equals y then rowBefore xs ys else before x y
termination_by structural xs => xs

end

end Value

namespace Order

/-- The first two neighbours without an order, as the kinds of the later and the earlier one. -/
def unordered? : List Value → Option Unordered
  | a :: b :: rest =>
      match b.before a with
      | .ok _ => unordered? (b :: rest)
      | .error e => some e
  | _ => none

/-- Does the key of a member come strictly before that of another? -/
def keyBefore {α : Type} (m n : Value × α) : Bool :=
  match m.1.before n.1 with
  | .ok b => b
  | .error _ => false

/-- The member put before the first one whose key comes after its own. -/
def insert {α : Type} (member : Value × α) : List (Value × α) → List (Value × α)
  | [] => [member]
  | other :: rest =>
      if keyBefore member other then member :: other :: rest else other :: insert member rest

/-- The members in the order of their keys, if neighbours have one. -/
def sort {α : Type} (ms : List (Value × α)) : Except Unordered (List (Value × α)) :=
  match unordered? (ms.map Prod.fst) with
  | some e => .error e
  | none => .ok (ms.foldl (fun done m => insert m done) [])

end Order

end AccessGate
