import AccessGate.Setting.Flag

/-!
# Settings for signing

* `AccessGate.SignerSettings` – the **settings** of the signer of response fields, and which fields
  it signs.
-/

namespace AccessGate

/-- How response fields are signed, and which. -/
structure SignerSettings where
  algorithm : Value
  key : Value
  kid : Value
  fields : List String
deriving DecidableEq, Repr

namespace SignerSettings

/-- Settings from configuration data. -/
def ofData (data : Value) : Except Fault SignerSettings := do
  let ms ← Setting.members data
  let fields ← Setting.items (ms.get "keys_to_sign")
  return ⟨(ms.find? (.text "alg")).getD (.text "HS256"), ms.get "key", ms.get "kid", fields⟩

/-- The settings as a mapping. -/
def toMapping (s : SignerSettings) : Members :=
  [(.text "alg", s.algorithm), (.text "key", s.key), (.text "kid", s.kid),
    (.text "keys_to_sign", .list (s.fields.map .text))]

/-- A key has to be given. -/
def check (s : SignerSettings) : Except SetupError Unit :=
  if s.key.isTruthy then .ok () else .error .signerKeyMissing

end SignerSettings

end AccessGate
