import AccessGate.Error.Fault
import AccessGate.Json.Writer

/-!
# What can be wrong with claims to sign

* `AccessGate.EncodingError` – why claims cannot be **written as a token**;
* `AccessGate.EncodingError.failure` and `AccessGate.EncodingError.fault` – how a signer **fails for
  it**, and what comes of it where no response is signed.
-/

namespace AccessGate

/-- Why claims cannot be written as a token. -/
inductive EncodingError where
  | notClaims (e : PairsError)
  | issuerNotText
  | unwritable (e : Json.Unwritable)
  | kidNotText
  | extensionsNotListed
  | algorithmNotName (kind : String)
  | algorithmUnknown
  | keyWithoutAlgorithm
  | key (e : SecretError)
  | uselessKey
  | unknownKeyType (type : List UInt8)
deriving DecidableEq, Repr

namespace EncodingError

def message : EncodingError → String
  | notClaims e => e.message
  | issuerNotText => "Issuer (iss) must be a string."
  | unwritable e => e.message
  | kidNotText => "Key ID header parameter must be a string"
  | extensionsNotListed => "Invalid 'crit' header: must be a list"
  | algorithmNotName kind => "unhashable type: '" ++ kind ++ "'"
  | algorithmUnknown => "Algorithm not supported"
  | keyWithoutAlgorithm => "When alg = \"none\", key value must be None."
  | key e => e.message
  | uselessKey => "Could not parse the provided public key."
  | unknownKeyType type => "Unsupported key type: " ++ Quote.bytes type

/-- The error that a signer reports. It does not know the field yet. -/
def toSigningError (e : EncodingError) : SigningError :=
  .make ("JWT signing failed: " ++ e.message) .null (some e.message)

/-- How a signer fails. It has no error of its own for a key of a type that nobody knows. -/
def failure : EncodingError → SignerFailure
  | unknownKeyType type => .other (unknownKeyType type).message
  | e => .signing e.toSigningError

/-- The fault of a token that was asked for by itself. -/
def fault : EncodingError → Fault
  | unknownKeyType _ => .unsupportedKey
  | e => .signing e.toSigningError

end EncodingError

end AccessGate
