import AccessGate.Demo.Walk

/-!
# The pieces one by one

What a gate is made of also works without one: matching claims, asking a policy, copying claims into
headers, and signing fields.

* `AccessGate.Demo.pieces` – the **lines printed** while each of them is tried out.
-/

namespace AccessGate.Demo

/-- The claims that are tried. -/
def sample : Members :=
  [(.text "sub", .text "user-7"), (.text "roles", .text "admin auditor"),
    (.text "scope", .text "invoices:read"),
    (.text "org", .mapping [(.text "id", .float (Double.ofInt 12)), (.text "name", .text "Acme")]),
    (.text "https://example.com/region", .text "eu-west")]

/-- A policy that the claims satisfy. -/
def auditors : Policy :=
  { Policy.unrestricted with
    rolesKey := .text "roles"
    roles := [.text "auditor"]
    scopesKey := .text "scope"
    scopes := [.text "invoices:read"]
    scopesMatcher := .text "all" }

/-- Rules with a flat, a nested and a namespaced claim. -/
def rules : Value :=
  .list [texts ["sub", "X-User"], texts ["org.id", "X-Org-Id"],
    texts ["https://example.com/region", "X-Region"], texts ["sub", "X-User-Hash", "true"]]

/-- A response with one field to sign and one that stays. -/
def account : Members :=
  [(.text "profile", .mapping [(.text "sub", .text "user-7"), (.text "org", .text "Acme")]),
    (.text "count", .int 3)]

/-- The signer of the response. -/
def signer : Except Fault Signer :=
  (TokenSigner.make (.text "HS256") (.text "example-signing-secret-long-enough") .null .null).map
    TokenSigner.toSigner

/-- A line that tells whether something holds. -/
def told (what : String) (b : Bool) : String :=
  "✓ " ++ what ++ ": " ++ if b then "True" else "False"

/-- The lines printed. -/
def pieces : Except Fault (List String) := do
  let claims : Value := .mapping sample
  let isAdmin ← Matcher.roles (.text "roles") claims (texts ["admin"])
  let anyScope ← Matcher.Scopes.any.holds (.text "scope") claims
    (texts ["invoices:read", "invoices:write"])
  let permitted ← auditors.permits claims
  let headers ← Propagation.headers rules claims
  let signer ← signer
  let signed := Response.sign (texts ["profile", "count"]) signer [] (.mapping account)
  signed.result
  let start ← signedStart 24 signed.payload "profile"
  return ["Basic claimgate Example", rule '=' 30, told "admin role" isAdmin,
      told "any invoice scope" anyScope, told "policy allows request" permitted] ++
    headers.map (fun (name, v) => "  " ++ name ++ ": " ++ v) ++
    ["✓ profile signed: " ++ start ++ "..."]

end AccessGate.Demo
