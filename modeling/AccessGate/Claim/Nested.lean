import AccessGate.Text.Split
import AccessGate.Value.Lookup

/-!
# Claims inside claims

A key with points is a path: each of its segments but the last names a member that is a mapping
again, and the last one names the claim itself.

* `AccessGate.Claim.isPath` – **which keys are paths**. A key that starts with `http` is the name of
  one claim, points and all;
* `AccessGate.Claim.walk` – the mapping **reached by a row of segments**;
* `AccessGate.Claim.resolve` – the last segment of a path and the **mapping that should hold it**;
* `AccessGate.Claim.find` – the claim **under a flat key**;
* `AccessGate.Claim.lookup` – the claim **a key addresses**, nested or not.
-/

namespace AccessGate.Claim

/-! ### Paths -/

/-- Does the key address a claim inside another one? -/
def isPath (key : String) : Bool := key.toList.contains '.' && !Text.startsWith key "http"

/-- The same question about a key of any kind. A key that cannot be searched for a point has no
answer, and neither has a collection that holds one. -/
def isPathKey : Value → Except Fault Bool
  | .text key => .ok (isPath key)
  | v => do if ← v.holds (.text ".") then throw (v.missing "startswith") else return false

/-- The mapping reached from a value by going through the members with the given names. -/
def walk : List String → Value → Option Members
  | [], .mapping ms => some ms
  | name :: rest, .mapping ms => (Members.find? ms (.text name)).bind (walk rest)
  | _, _ => none

/-- The segments of a path. -/
def segments (path : String) : List String := Text.pieces '.' path

/-- The last segment of a path and the mapping reached by the others. Where they reach none, the
path itself and nothing. -/
def resolve (path : String) (claims : Value) : String × Option Members :=
  match walk (segments path).dropLast claims with
  | some ms => ((segments path).getLastD "", some ms)
  | none => (path, none)

/-- The text of a path. What is no text has no segments. -/
def pathText : Value → Except Fault String
  | .text path => .ok path
  | .bytes _ => .error .wrongKind
  | v => .error (v.missing "split")

/-! ### Claims -/

/-- The claim under a flat key. Without claims there is none. -/
def find (claims key : Value) : Except Fault (Option Value) :=
  match claims with
  | .null => .ok none
  | _ => claims.member? key

/-- The claim that a key addresses. -/
def lookup (key : String) (claims : Value) : Except Fault (Option Value) :=
  if isPath key then
    let (name, holder) := resolve key claims
    .ok (holder.bind (·.find? (.text name)))
  else find claims (.text key)

end AccessGate.Claim
