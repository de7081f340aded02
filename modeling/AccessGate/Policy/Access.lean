import AccessGate.Policy.Matcher
import AccessGate.Setting.Flag
import AccessGate.Value.Texts

/-!
# Access policies

The requirements of one protected route. A request passes when its roles, its scopes and its wanted
claims all match, and a requirement that is empty passes by itself.

* `AccessGate.Policy` – a **policy**;
* `AccessGate.Policy.permits` – its **decision** about verified claims, made of `rolesAllowed`,
  `scopesAllowed` and the wanted claims, in this order;
* `AccessGate.Policy.ofFields` – a policy **of given parts**;
* `AccessGate.Policy.ofData` and `AccessGate.Policy.toMapping` – a policy **from configuration** and
  back.

The parts are values: configuration may hold anything there, and a part of an odd kind shows only
when the policy is asked.
-/

namespace AccessGate

/-- What the claims of a request have to show. -/
structure Policy where
  rolesKey : Value
  rolesKeyIsNested : Value
  roles : List Value
  scopesKey : Value
  scopes : List Value
  scopesMatcher : Value
  wanted : Value
deriving DecidableEq, Repr

namespace Policy

/-- The way scopes are matched unless a policy says otherwise. -/
def defaultMatcher : Value := .text "any"

/-- The policy that requires nothing. -/
def unrestricted : Policy := ⟨.text "", .bool false, [], .text "", [], defaultMatcher, .mapping []⟩

/-- The way in which the policy matches scopes. -/
def matcher (p : Policy) : Except Fault Matcher.Scopes :=
  Matcher.Scopes.ofValue p.scopesMatcher

/-! ### Decisions -/

/-- Do the claims show a required role? The key is a path only if the policy says so and the key
reads as one. -/
def rolesAllowed (p : Policy) (claims : Value) : Except Fault Bool := do
  let nested ← if p.rolesKeyIsNested.isTruthy then Claim.isPathKey p.rolesKey else pure false
  if nested then Matcher.nestedRoles p.rolesKey claims (.tuple p.roles)
  else Matcher.roles p.rolesKey claims (.tuple p.roles)

/-- Do the claims show the required scopes? -/
def scopesAllowed (p : Policy) (claims : Value) : Except Fault Bool := do
  let way ← p.matcher
  way.holds p.scopesKey claims (.tuple p.scopes)

/-- Do the claims satisfy every requirement? -/
def permits (p : Policy) (claims : Value) : Except Fault Bool := do
  if !(← p.rolesAllowed claims) then return false
  if !(← p.scopesAllowed claims) then return false
  Matcher.fields claims p.wanted

/-! ### Parts -/

/-- The policy with one of its parts changed. Other names have no place in it. Roles and scopes are
gone through at once. -/
def put (p : Policy) (name : String) (v : Value) : Except Fault Policy :=
  match name with
  | "roles_key" => .ok { p with rolesKey := v }
  | "roles_key_is_nested" => .ok { p with rolesKeyIsNested := v }
  | "roles" => (Matcher.listed v).map fun xs => { p with roles := xs }
  | "scopes_key" => .ok { p with scopesKey := v }
  | "scopes" => (Matcher.listed v).map fun xs => { p with scopes := xs }
  | "scopes_matcher" => .ok { p with scopesMatcher := v }
  | "custom_fields" => .ok { p with wanted := v }
  | _ => .error .wrongKind

/-- The policy with one part given by a name of any kind. -/
def putMember (p : Policy) : Value × Value → Except Fault Policy
  | (.text name, v) => p.put name v
  | _ => .error .wrongKind

/-- A policy of given parts, which requires nothing beyond them. -/
def ofFields : Value → Except Fault Policy
  | .mapping ms => ms.foldlM putMember unrestricted
  | _ => .error .wrongKind

/-- The policy as a mapping. -/
def toMapping (p : Policy) : Except Fault Members := do
  let wanted ← Members.read p.wanted
  return [(.text "roles_key", p.rolesKey), (.text "roles_key_is_nested", p.rolesKeyIsNested),
    (.text "roles", .list p.roles), (.text "scopes_key", p.scopesKey),
    (.text "scopes", .list p.scopes), (.text "scopes_matcher", p.scopesMatcher),
    (.text "custom_fields", .mapping wanted)]

/-! ### Configuration -/

/-- The texts with one more wanted claim, whose key and value become texts. -/
def putText (done : Texts) (m : Value × Value) : Except Fault Texts := do
  return done.put (← m.1.toText) (← m.2.toText)

/-- Wanted claims with keys and values as texts. Where two keys become one text the later one
counts. -/
def asTexts (ms : Members) : Except Fault Texts := ms.foldlM putText []

/-- The flag that makes the roles key a path. -/
def nestedFlag (ms : Members) : Except Fault Bool :=
  let given := (ms.find? (.text "roles_key_is_nested")).getD (.bool false)
  match Setting.flag? given with
  | some b => .ok b
  | none => .error (SetupError.nestedFlagNotBoolean given).fault

/-- The wanted claims, as they are given. -/
def wantedClaims (ms : Members) : Except Fault Members :=
  match (ms.get "custom_fields").orElse (.mapping []) with
  | .mapping fields => .ok fields
  | other => .error (SetupError.customFieldsNotMapping other).fault

/-- The name of the way to match scopes. -/
def matcherName (ms : Members) : Except Fault Value :=
  let given := (ms.get "scopes_matcher").orElse defaultMatcher
  if given.isText then .ok given else .error (SetupError.scopesMatcherNotText given).fault

/-- A policy from configuration data. What is missing or empty requires nothing. -/
def ofData (data : Value) : Except Fault Policy := do
  let ms ← Setting.members data
  let nested ← nestedFlag ms
  let fields ← wantedClaims ms
  let matcher ← matcherName ms
  let roles ← Setting.items (ms.get "roles")
  let scopes ← Setting.items (ms.get "scopes")
  let wanted ← asTexts fields
  return {
    rolesKey := (ms.get "roles_key").orElse (.text "")
    rolesKeyIsNested := .bool nested
    roles := roles.map .text
    scopesKey := (ms.get "scopes_key").orElse (.text "")
    scopes := scopes.map .text
    scopesMatcher := matcher
    wanted := .mapping wanted.toMembers }

end Policy

end AccessGate
