import AccessGate.Claim.Nested
import AccessGate.Json.Writer

/-!
# The normal form of a claim

A claim leaves the gateway as one string, whatever shape it had. Only a whole number of too many
digits keeps a claim from it, if it is the claim or one of its items (`AccessGate.Whole.text?`).

* `AccessGate.Claim.normalize` – the **normal form**: a text as it is, a double that is a whole
  number but for an error of the last digits as that whole number, a sequence joined by commas, and
  a mapping as canonical JSON, or empty if it has none;
* `AccessGate.Claim.element` – the form of an **item of a sequence**, which keeps its plain text;
* `AccessGate.Claim.normalized` – the normal form of the claim **under a key**, and whether it was
  there.
-/

namespace AccessGate.Claim

/-- How far from a whole number a double may lie to be taken for it, in quanta: the double written
`0.000001`. -/
def tolerance : Nat := (Double.ofDecimal false 1 (-6)).magnitude.getD 0

/-- The whole number a double is taken for. -/
def wholeNear? (x : Double) : Option Int :=
  match x.quanta, x.round? with
  | some q, some n => if (q - n * quantaPerUnit).natAbs ≤ tolerance then some n else none
  | _, _ => none

/-- A double as the whole number it is taken for, and otherwise with six places. -/
def double (x : Double) : String :=
  match wholeNear? x with
  | some n => toString n
  | none => x.sixPlaces

/-- Canonical JSON; what has none is empty. -/
def json (v : Value) : String :=
  match Json.canonical v with
  | .ok s => s
  | .error _ => ""

/-- A double as an item of a sequence. -/
def doubleItem (x : Double) : String :=
  if x.isWhole then
    match x.truncate? with
    | some n => toString n
    | none => x.text
  else x.text

/-- An item of a sequence. -/
def element : Value → Except Fault String
  | .text s => .ok s
  | .bool b => .ok (if b then "true" else "false")
  | .int n => (Value.int n).toText
  | .float x => .ok (doubleItem x)
  | .null => .ok "null"
  | v => .ok (json v)

/-- Items joined by commas. -/
def joined (xs : List Value) : Except Fault String := (xs.mapM element).map (",".intercalate ·)

/-- The normal form of a claim. -/
def normalize : Value → Except Fault String
  | .text s => .ok s
  | .bool b => .ok (if b then "true" else "false")
  | .int n => (Value.int n).toText
  | .float x => .ok (double x)
  | .list xs => joined xs
  | .tuple xs => joined xs
  | v => .ok (json v)

/-- The normal form of the claim under a key; without such a claim it is empty. -/
def normalized (claims key : Value) : Except Fault (String × Bool) := do
  match ← find claims key with
  | some v => return (← normalize v, true)
  | none => return ("", false)

end AccessGate.Claim
