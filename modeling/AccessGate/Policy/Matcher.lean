import AccessGate.Claim.Nested
import AccessGate.Text.Blank
import AccessGate.Text.LowerCase

/-!
# Matchers

Each matcher asks one question about verified claims. An empty requirement always passes, for
nothing was required; a claim that is missing or has an odd shape fails. Claims are never changed.

* `AccessGate.Matcher.holdsRole` – does a **claim's value** hold one of the required roles?
* `AccessGate.Matcher.roles` and `AccessGate.Matcher.nestedRoles` – roles **under a flat key** and
  **under a path**;
* `AccessGate.Matcher.Scopes` – the three ways of **matching scopes**: all of them, any of them, or
  not at all;
* `AccessGate.Matcher.fields` – do all **wanted claims** have their wanted texts?

A requirement is gone through only when there is something to match it with. Until then it may be
anything that is not empty, and so may the claims that are not looked into.
-/

namespace AccessGate.Matcher

/-- Is one of the required values a text among those present? -/
def anyPresent (required present : List Value) : Bool :=
  required.any fun wanted => present.any fun v => v.isText && v.equals wanted

/-- The pieces of a text between single spaces. -/
def words (s : String) : List Value := (Text.pieces ' ' s).map .text

/-- The values that a requirement lists. -/
def listed (required : Value) : Except Fault (List Value) :=
  match required.elements? with
  | some xs => .ok xs
  | none => .error .wrongKind

/-! ### Roles -/

/-- The roles in the value of a claim: the items of a sequence, or the words of a text. -/
def presentRoles? : Value → Option (List Value)
  | .list xs => some xs
  | .tuple xs => some xs
  | .text s => some (words s)
  | _ => none

/-- Does the value of a claim hold one of the required roles? -/
def holdsRole (required v : Value) : Except Fault Bool :=
  match presentRoles? v with
  | some present => (listed required).map (anyPresent · present)
  | none => .ok false

/-- Does the claim under `key` hold one of the required roles? -/
def roles (key claims required : Value) : Except Fault Bool := do
  if !required.isTruthy then return true
  match ← Claim.find claims key with
  | some v => holdsRole required v
  | none => return false

/-- The same for a claim that a path leads to. -/
def nestedRoles (path claims required : Value) : Except Fault Bool := do
  if !required.isTruthy then return true
  match Claim.resolve (← Claim.pathText path) claims with
  | (name, some ms) => roles (.text name) (.mapping ms) required
  | (_, none) => return false

/-! ### Scopes -/

/-- The ways of matching scopes. -/
inductive Scopes where
  | all
  | any
  | disabled
deriving DecidableEq, Repr

/-- The way named by a text; a name that is not known disables the check. -/
def Scopes.ofName (name : String) : Scopes :=
  let plain := Text.lower (Text.strip name)
  if plain = "all" then .all else if plain = "any" then .any else .disabled

/-- The way that a value names. Without a name the check is disabled. -/
def Scopes.ofValue (v : Value) : Except Fault Scopes :=
  if v.isTruthy then
    match v with
    | .text name => .ok (ofName name)
    | .bytes _ => .ok disabled
    | _ => .error (v.missing "strip")
  else .ok disabled

/-- The claim that a key addresses, where the key is a path if it reads as one. -/
def scopeClaim (key claims : Value) : Except Fault (Option Value) := do
  match ← Claim.isPathKey key, key with
  | true, .text path => Claim.lookup path claims
  | _, _ => Claim.find claims key

/-- The scopes in the text that a key addresses, if there is such a text. -/
def presentScopes (key claims : Value) : Except Fault (Option (List Value)) := do
  match ← scopeClaim key claims with
  | some (.text s) => return some (words s)
  | _ => return none

/-- Do the scopes under `key` match the required ones? -/
def Scopes.holds (way : Scopes) (key claims required : Value) : Except Fault Bool :=
  match way with
  | disabled => .ok true
  | _ => do
      if !required.isTruthy then return true
      match ← presentScopes key claims with
      | none => return false
      | some present =>
          let wanted ← listed required
          let has (scope : Value) := present.any (·.equals scope)
          return if way = all then wanted.all has else wanted.any has

/-! ### Wanted claims -/

/-- The claim under the name of a wanted one. -/
def fieldOf (claims name : Value) : Except Fault Value :=
  match claims with
  | .null => .ok .null
  | .mapping ms => .ok ((Members.find? ms name).getD .null)
  | _ => .error (claims.missing "get")

/-- Does every one of the wanted claims have its wanted text? -/
def allFields (claims : Value) : List (Value × Value) → Except Fault Bool
  | [] => .ok true
  | (name, wanted) :: rest => do
      let v ← fieldOf claims name
      if v.isText && v.equals wanted then allFields claims rest else return false

/-- Does every wanted claim have its wanted text? -/
def fields (claims wanted : Value) : Except Fault Bool :=
  if wanted.isTruthy then
    match wanted with
    | .mapping ms => allFields claims ms
    | _ => .error (wanted.missing "items")
  else .ok true

end AccessGate.Matcher
