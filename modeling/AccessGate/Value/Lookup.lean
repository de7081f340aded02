import AccessGate.Error.Fault

/-!
# Looking into a value

A value that may be anything is asked for one of its parts. A mapping has members by key, a row has
items by place, and a text holds its own pieces; what cannot be asked is a fault.

* `AccessGate.Value.holds` – is a part **in a value**?
* `AccessGate.Value.item` – the **part that a value has** under a key or at a place;
* `AccessGate.Value.member?` – both questions one after the other.

The two do not mean the same by a part. A row holds its items and is asked for them by place, so
that an item that is no place is in the row and still cannot be asked for.
-/

namespace AccessGate.Value

/-! ### Rows -/

/-- Does a row stand somewhere in another one, in one piece? -/
def occurs {α : Type} [BEq α] (part : List α) : List α → Bool
  | [] => part.isEmpty
  | x :: xs => part.isPrefixOf (x :: xs) || occurs part xs

/-- The whole number by which a value names a place. -/
def index? : Value → Option Int
  | .bool b => some (if b then 1 else 0)
  | .int n => some n
  | _ => none

/-- The place that a whole number names in a row of some length; below zero it counts from the
end. -/
def placeIn (length : Nat) (n : Int) : Option Nat :=
  let i := if n < 0 then n + length else n
  if 0 ≤ i ∧ i < length then some i.toNat else none

/-! ### Parts -/

/-- Is a byte or a row of bytes in a byte string? A number that is no byte cannot be asked for. -/
def holdsBytes (bs : List UInt8) : Value → Except Fault Bool
  | .bytes part => .ok (occurs part bs)
  | v =>
      match v.index? with
      | some n =>
          if 0 ≤ n ∧ n < 256 then .ok (bs.any fun b => (b.toNat : Int) == n)
          else .error .badValue
      | none => .error .wrongKind

/-- Is a part in a value? -/
def holds (container part : Value) : Except Fault Bool :=
  match container with
  | .mapping ms =>
      if part.isKey then .ok (Members.find? ms part).isSome else .error .wrongKind
  | .list xs => .ok (xs.any (·.equals part))
  | .tuple xs => .ok (xs.any (·.equals part))
  | .text s =>
      match part with
      | .text piece => .ok (occurs piece.toList s.toList)
      | _ => .error .wrongKind
  | .bytes bs => holdsBytes bs part
  | _ => .error .wrongKind

/-- The item of a row at a place. -/
def itemAt (xs : List Value) (n : Int) : Except Fault Value :=
  match (placeIn xs.length n).bind (xs[·]?) with
  | some v => .ok v
  | none => .error .noSuchItem

/-- The part that a value has under a key or at a place. -/
def item (container key : Value) : Except Fault Value :=
  match container with
  | .mapping ms =>
      if key.isKey then
        match Members.find? ms key with
        | some v => .ok v
        | none => .error .noSuchMember
      else .error .wrongKind
  | _ =>
      match container.elements?, key.index? with
      | some xs, some n => itemAt xs n
      | _, _ => .error .wrongKind

/-- The part that a value has under a key, if the key is in it. -/
def member? (container key : Value) : Except Fault (Option Value) := do
  if ← container.holds key then
    let v ← container.item key
    return some v
  else return none

/-- A mapping has the member that is found in it, and no fault but that of a key that is none. -/
theorem member?_mapping {key : Value} (h : key.isKey = true) (ms : Members) :
    (Value.mapping ms).member? key = .ok (Members.find? ms key) := by
  rw [member?, holds, if_pos h]
  cases hf : Members.find? ms key with
  | none => rfl
  | some v =>
    simp only [Option.isSome_some, item, if_pos h, hf]
    rfl

end AccessGate.Value
