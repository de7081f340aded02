import AccessGate.Gate

/-!
# A walk through a gate

One request goes through a gate and one response comes back, with a line printed for each step: the
token is made here, in place of an identity provider.

* `AccessGate.Demo.settings` – the **settings** of the gate;
* `AccessGate.Demo.walk` – the **walk**, given the surroundings and the settings: what it prints and
  the exit code. An error that has a report is printed and ends the walk; any other fault is the
  walk's own.
-/

namespace AccessGate.Demo

/-! ### The gate and the token -/

/-- The secret of the identity provider and of the signer. -/
def secret : String := "claimgate-demo-secret-with-enough-entropy"

/-- The issuer of the token. -/
def issuer : String := "https://idp.example.com/"

/-- A list of texts. -/
def texts (ss : List String) : Value := .list (ss.map .text)

/-- The settings of the gate. -/
def settings : Members :=
  [(.text "signature", .mapping
      [(.text "alg", .text "HS256"), (.text "secret", .text secret),
        (.text "audience", texts ["demo-api"]), (.text "issuer", .text issuer)]),
    (.text "policy", .mapping
      [(.text "roles_key", .text "realm_access.roles"), (.text "roles_key_is_nested", .bool true),
        (.text "roles", texts ["admin", "operator"]), (.text "scopes_key", .text "scope"),
        (.text "scopes", texts ["orders:read"]), (.text "scopes_matcher", .text "all"),
        (.text "custom_fields", .mapping [(.text "tenant", .text "acme")])]),
    (.text "propagate_claims", .list
      [texts ["sub", "X-User"], texts ["profile.employee_id", "X-Employee-Id"],
        texts ["email", "X-Email-Hash", "true"],
        texts ["http://example.com/department", "X-Department"]]),
    (.text "signer", .mapping
      [(.text "alg", .text "HS256"), (.text "key", .text secret), (.text "kid", .text "demo"),
        (.text "keys_to_sign", texts ["id_token"])])]

/-- The claims of the token, which expires after five minutes. -/
def claims (now : Int) : Members :=
  [(.text "iss", .text issuer), (.text "aud", .text "demo-api"), (.text "sub", .text "user-42"),
    (.text "iat", .int now), (.text "exp", .int (now + 300)),
    (.text "email", .text "jane@example.com"), (.text "scope", .text "orders:read orders:write"),
    (.text "tenant", .text "acme"),
    (.text "realm_access", .mapping [(.text "roles", texts ["operator"])]),
    (.text "profile", .mapping [(.text "employee_id", .float (Double.ofInt 1042))]),
    (.text "http://example.com/department", .text "logistics")]

/-- The token, made at a time that a clock shows. -/
def token (now : Double) : Except Fault String :=
  match now.truncate? with
  | some seconds =>
      (Token.sign (.secret .bits256) (.text secret) [] (.mapping (claims seconds))).mapError
        EncodingError.fault
  | none => .error .badValue

/-- The request that brings the token. -/
def request (token : String) : Value :=
  .mapping [(.text "headers", .mapping [(.text "Authorization", .text ("Bearer " ++ token))])]

/-- The response to the request of a subject. -/
def response (subject : Value) : Members :=
  [(.text "id_token", .mapping [(.text "sub", subject), (.text "tenant", .text "acme")]),
    (.text "status", .text "ok")]

/-! ### The walk -/

/-- What a walk has printed, and its exit code. -/
structure Walked where
  lines : List String
  exit : Nat
deriving DecidableEq, Repr

/-- The first characters of a text. Anything else cannot be cut. -/
def beginning (n : Nat) : Value → Except Fault String
  | .text s => .ok (String.ofList (s.toList.take n))
  | _ => .error .wrongKind

/-- The first characters of what a payload has under a name. -/
def signedStart (n : Nat) (payload : Value) (name : String) : Except Fault String := do
  let signed ← payload.item (.text name)
  beginning n signed

/-- The line under a heading. -/
def rule (c : Char) (n : Nat) : String := String.ofList (List.replicate n c)

/-- The heading of a step. -/
def heading (title : String) : List String := [title, rule '-' 40]

/-- The end of a walk by an error that has a report. -/
def stopped (lines : List String) (what : String) (f : Fault) : Except Fault Walked :=
  match f.report? with
  | some r => .ok ⟨lines ++ ["✗ " ++ what ++ ": " ++ r.text], 1⟩
  | none => .error f

/-- The gate for settings. -/
def opened (w : World) (settings : Members) : Except Fault Gate := do
  let s ← GateSettings.ofData (some w.environment) (.mapping settings)
  Gate.ofSettings w s

/-- The way out, after the lines printed so far. -/
def wayOut (g : Gate) (subject : Value) (lines : List String) : Except Fault Walked :=
  let before := lines ++ heading "Step 3: Sign response fields"
  match g.signResponse (.mapping (response subject)) with
  | (.error f, _, _) => stopped before "Signing failed" f
  | (.ok (), payload, _) => do
      let start ← signedStart 32 payload "id_token"
      let signed := "✓ id_token signed: " ++ start ++ "..."
      return ⟨before ++ [signed, "", "Demo completed successfully"], 0⟩

/-- The way in, after the lines printed so far. -/
def wayIn (w : World) (g : Gate) (lines : List String) : Except Fault Walked := do
  let before := lines ++ heading "Step 1: Authorize request"
  let token ← token w.now
  match g.authorize w (request token) with
  | (.error f, _) => stopped before "Authentication failed" f
  | (.ok decision, after) =>
      if decision.allowed then
        let subject := decision.claims.get "sub"
        let shown ← subject.toText
        let allowed := ["✓ Request allowed for subject: " ++ shown, ""]
        let headers := decision.headers.map fun (name, v) => "  " ++ name ++ ": " ++ v
        wayOut after subject
          (before ++ allowed ++ heading "Step 2: Propagated headers" ++ headers ++ [""])
      else return ⟨before ++ ["✗ Request denied by policy"], 1⟩

/-- The whole walk. -/
def walk (w : World) (settings : Members) : Except Fault Walked :=
  let title := ["claimgate Demo Application", rule '=' 50, ""]
  match opened w settings with
  | .error f => stopped title "Error creating gate" f
  | .ok g => wayIn w g (title ++ ["✓ Created gate from configuration", ""])

/-- The text of printed lines. -/
def printed (lines : List String) : String := String.join (lines.map (· ++ "\n"))

end AccessGate.Demo
