import AccessGate.Key.Source
import AccessGate.Request.Token
import AccessGate.Token.Verified

/-!
# Validators

A validator turns a request into verified claims.

* `AccessGate.Validator` – a **validator**. Its algorithm, its source of keys and its way to find a
  token are fixed when it is made; audience, issuer and leeway are read from its settings each time;
* `AccessGate.Validator.make` – a validator **for settings**;
* `AccessGate.Validator.checkToken` and `AccessGate.Validator.checkRequest` – the **claims** of a
  token and of a request.
-/

namespace AccessGate

/-- A validator, with what its source of keys remembers. -/
structure Validator where
  algorithm : Algorithm
  source : KeySource
  extractor : Extractor
  settings : SignatureSettings
  cache : KeyCache

namespace Validator

/-- A validator for settings. It looks for a token in the headers first, and then where `elsewhere`
looks for the cookie that the settings name. A source that is given takes the place of the one that
the settings name. -/
def make (w : World) (s : SignatureSettings) (elsewhere : Value → Extractor := Extractor.cookie)
    (source : Option KeySource := none) : Except Fault Validator := do
  let algorithm ← Algorithm.lookup s.algorithm
  let chosen ←
    match source with
    | some given => pure given
    | none => KeySource.ofSettings w.files s
  return ⟨algorithm, chosen, .firstOf [.header, elsewhere s.cookie], s, .empty⟩

/-- The validator with one of its settings changed. -/
def put (v : Validator) (name : String) (value : Value) : Validator :=
  { v with settings := v.settings.put name value }

/-- What the validator expects of claims now. -/
def expectation (w : World) (v : Validator) : Expectation :=
  ⟨v.settings.audience, v.settings.issuer, v.settings.leeway, w.now⟩

/-- The claims of a token, and the validator after it. -/
def checkToken (w : World) (v : Validator) (token : Value) : Except Fault Members × Validator :=
  let (key, cache) := v.source.keyFor w v.cache token
  (key.bind fun k => Token.verify v.algorithm k (v.expectation w) token, { v with cache := cache })

/-- The claims of the token of a request, and the validator after it. -/
def checkRequest (w : World) (v : Validator) (request : Value) : Except Fault Members × Validator :=
  match v.extractor request with
  | .error f => (.error f, v)
  | .ok token =>
      if token.isTruthy then v.checkToken w token
      else (.error (.authentication .tokenMissing), v)

end Validator

end AccessGate
