import AccessGate.Value.Display

/-!
# Members from pairs

Members may be given as a mapping, or as pairs one after the other, each pair in anything that can
be gone through.

* `AccessGate.Members.ofValue` – the **members that a value gives**;
* `AccessGate.PairsError` – why a value **gives none**.
-/

namespace AccessGate

/-- Why a value gives no members: it cannot be gone through, one of its items cannot, an item has
not two parts, or the first part is no key. -/
inductive PairsError where
  | notRow (kind : String)
  | notFunction (kind : String)
  | notPair (place : Nat)
  | wrongLength (place length : Nat)
  | notKey (kind : String)
deriving DecidableEq, Repr

def PairsError.message : PairsError → String
  | notRow kind => "'" ++ kind ++ "' object is not iterable"
  | notFunction kind => "'" ++ kind ++ "' object is not callable"
  | notPair place =>
      "cannot convert dictionary update sequence element #" ++ toString place ++ " to a sequence"
  | wrongLength place length =>
      "dictionary update sequence element #" ++ toString place ++ " has length " ++
        toString length ++ "; 2 is required"
  | notKey kind => "unhashable type: '" ++ kind ++ "'"

namespace Members

/-- The members with one more of them, given by a pair at some place of a row. -/
def putPair (ms : Members) (place : Nat) (pair : Value) : Except PairsError Members :=
  match pair.elements? with
  | none => .error (.notPair place)
  | some [key, value] =>
      match key.unkeyed? with
      | none => .ok (ms.put key value)
      | some kind => .error (.notKey kind)
  | some parts => .error (.wrongLength place parts.length)

/-- The members with those of a row of pairs put, the first of which stands at `place`. -/
def putPairs (ms : Members) (place : Nat) : List Value → Except PairsError Members
  | [] => .ok ms
  | pair :: rest => do
      let more ← ms.putPair place pair
      putPairs more (place + 1) rest

/-- The members that a value gives. -/
def ofValue (v : Value) : Except PairsError Members :=
  match v with
  | .mapping ms => .ok ms
  | .object attributes =>
      match attributes.lookup "keys" with
      | some keys => .error (.notFunction keys.kind)
      | none => .error (.notRow v.kind)
  | _ =>
      match v.elements? with
      | some pairs => putPairs [] 0 pairs
      | none => .error (.notRow v.kind)

end Members

end AccessGate
