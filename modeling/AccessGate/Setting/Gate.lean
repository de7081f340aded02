import AccessGate.File.Configuration
import AccessGate.Policy.Access
import AccessGate.Propagation
import AccessGate.Setting.Expansion
import AccessGate.Setting.Signature
import AccessGate.Setting.Signing
import AccessGate.World

/-!
# Settings of a gate

* `AccessGate.GateSettings` – the **complete settings** of one protected route;
* `AccessGate.GateSettings.ofData` and `AccessGate.GateSettings.ofFile` – the settings **from
  configuration data** and from a file, with the variables of the surroundings put in;
* `AccessGate.GateSettings.toMapping` – the settings **as data again**.
-/

namespace AccessGate

/-- The settings of a protected route. -/
structure GateSettings where
  signature : SignatureSettings
  policy : Policy
  rules : List Rule
  signer : Option SignerSettings
deriving DecidableEq, Repr

namespace GateSettings

/-- The settings in the members of configuration data. -/
def ofMembers (ms : Members) : Except Fault GateSettings :=
  match ms.find? (.text "signature") with
  | none => .error (.setup .signatureMissing)
  | some data => do
      let signature ← SignatureSettings.ofData data
      let policy ← Policy.ofData (ms.get "policy")
      let rules ← Rule.ofData (ms.get "propagate_claims")
      let signer ←
        if (ms.get "signer").isTruthy then (SignerSettings.ofData (ms.get "signer")).map some
        else pure none
      return ⟨signature, policy, rules, signer⟩

/-- Settings from configuration data, with the given variables put in if there are any. -/
def ofData (vars : Option Texts) : Value → Except Fault GateSettings
  | .mapping ms => ofMembers ((vars.map (Expansion.members · ms)).getD ms)
  | _ => .error (.setup .gateNotMapping)

/-- Settings from a file, with the variables of the surroundings put in. -/
def ofFile (w : World) (path : Value) : Except Fault GateSettings := do
  let ms ← Configuration.load w.files path
  ofData (some w.environment) (.mapping ms)

/-- The settings as a mapping. -/
def toMapping (s : GateSettings) : Except Fault Members := do
  let policy ← s.policy.toMapping
  return [(.text "signature", .mapping s.signature.toMapping), (.text "policy", .mapping policy),
    (.text "propagate_claims", .list (s.rules.map fun r => .list (r.toList.map .text)))] ++
    match s.signer with
    | some signer => [(.text "signer", .mapping signer.toMapping)]
    | none => []

end GateSettings

end AccessGate
