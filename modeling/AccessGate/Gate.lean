import AccessGate.Setting.Gate
import AccessGate.Signer.Response
import AccessGate.Validator

/-!
# Gates

A gate stands before one protected route. On the way in it verifies the token of a request, asks the
policy, and copies claims into headers; on the way out it signs fields of the response.

* `AccessGate.Gate` – a **gate**;
* `AccessGate.Gate.make` and `AccessGate.Gate.ofSettings` – a gate **of given parts** and one for
  settings;
* `AccessGate.Gate.decide` – the **decision** about verified claims;
* `AccessGate.Gate.authorize` – the decision **about a request**;
* `AccessGate.Gate.signResponse` – a response **with its fields signed**.
-/

namespace AccessGate

/-- A gate, with the mappings that its signer was handed so far. -/
structure Gate where
  validator : Option Validator
  policy : Policy
  rules : List Rule
  signer : Option Signer
  fields : Value
  handed : List Members

/-- What a gate decides about a request. -/
structure Decision where
  allowed : Bool
  claims : Members
  headers : Texts
deriving DecidableEq, Repr

namespace Gate

/-! ### Making a gate -/

/-- A gate of given parts. Rules and fields are read from configuration data. -/
def make (validator : Option Validator) (policy : Policy) (rules : Value) (signer : Option Signer)
    (fields : Value) : Except Fault Gate := do
  let parsed ← Rule.ofData rules
  match fields.elements? with
  | some keys => return ⟨validator, policy, parsed, signer, .list keys, []⟩
  | none => throw .wrongKind

/-- A gate for settings. Every error of the setup shows now, and not at the first request. -/
def ofSettings (w : World) (s : GateSettings) : Except Fault Gate := do
  s.signature.check
  let validator ← Validator.make w s.signature
  match s.signer with
  | none => return ⟨some validator, s.policy, s.rules, none, .list [], []⟩
  | some signing =>
      let signer ← TokenSigner.ofSettings signing
      return ⟨some validator, s.policy, s.rules, some signer.toSigner,
        .list (signing.fields.map .text), []⟩

/-! ### Changing a gate -/

/-- The gate with another signer, which was handed nothing yet. -/
def withSigner (g : Gate) (signer : Option Signer) : Gate :=
  { g with signer := signer, handed := [] }

/-- The gate with other rules. -/
def withRules (g : Gate) (rules : Value) : Except Fault Gate := do
  let parsed ← Rule.ofData rules
  return { g with rules := parsed }

/-! ### Requests -/

/-- The decision about verified claims. A request that is denied passes no headers on. -/
def decide (g : Gate) (claims : Members) : Except Fault Decision := do
  if ← g.policy.permits (.mapping claims) then
    let headers ←
      if g.rules.isEmpty then pure [] else Propagation.headersOf g.rules (.mapping claims)
    return ⟨true, claims, headers⟩
  else return ⟨false, claims, []⟩

/-- The decision about verified claims of any shape: the members of a mapping, or pairs one after
the other. -/
def decideAbout (g : Gate) (claims : Value) : Except Fault Decision := do
  let ms ← Members.read claims
  g.decide ms

/-- The decision about a request, and the gate after it. -/
def authorize (w : World) (g : Gate) (request : Value) : Except Fault Decision × Gate :=
  match g.validator with
  | none => (.error (.setup .validatorMissing), g)
  | some v =>
      let (claims, after) := v.checkRequest w request
      (claims.bind g.decide, { g with validator := some after })

/-! ### Responses -/

/-- A response with its fields signed, or as it was if one of them cannot be signed. -/
def signResponse (g : Gate) (payload : Value) : Except Fault Unit × Value × Gate :=
  match g.signer with
  | some signer =>
      if g.fields.isTruthy then
        let done := Response.sign g.fields signer g.handed payload
        (done.result, done.payload, { g with handed := done.handed })
      else (.ok (), payload, g)
  | none => (.ok (), payload, g)

end Gate

end AccessGate
