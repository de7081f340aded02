import AccessGate.Error.Report

/-!
# What can be wrong with a token

* `AccessGate.TokenError` – the **checks a token can fail**, in the order in which they are made;
* `AccessGate.AuthenticationError` – why a request is **not authenticated**: it has no token, or its
  token has expired or fails another check.
-/

namespace AccessGate

/-- The parts of a token between its points. -/
inductive Segment where
  | header
  | payload
  | signature
deriving DecidableEq, Repr

/-- The word for a part. -/
def Segment.name : Segment → String
  | header => "header"
  | payload => "payload"
  | signature => "crypto"

/-- The claims that hold a time. -/
inductive TimeClaim where
  | issuedAt
  | notBefore
  | expiry
deriving DecidableEq, Repr

def TimeClaim.name : TimeClaim → String
  | issuedAt => "iat"
  | notBefore => "nbf"
  | expiry => "exp"

def TimeClaim.title : TimeClaim → String
  | issuedAt => "Issued At claim"
  | notBefore => "Not Before claim"
  | expiry => "Expiration Time claim"

/-- Why a key cannot serve a digest with a shared secret. -/
inductive SecretError where
  | notSecret
  | empty
  | asymmetric
  | document
deriving DecidableEq, Repr

def SecretError.message : SecretError → String
  | notSecret => "Expected a string or bytes value"
  | empty => "HMAC key must not be empty."
  | asymmetric =>
      "The specified key is an asymmetric key or x509 certificate " ++
        "and should not be used as an HMAC secret."
  | document =>
      "The specified key looks like a JWK and should not be used directly as an HMAC secret. " ++
        "Load it via PyJWK / HMACAlgorithm.from_jwk first."

/-- Why the extensions that a token calls critical are refused. -/
inductive ExtensionError where
  | notListed
  | notText
  | unsupported (name : String)
  | absent (name : String)
  | detachmentNotListed
deriving DecidableEq, Repr

def ExtensionError.message : ExtensionError → String
  | notListed => "Invalid 'crit' header: must be a non-empty list"
  | notText => "Invalid 'crit' header: values must be strings"
  | unsupported name => "Unsupported critical extension: " ++ name
  | absent name => "Critical extension '" ++ name ++ "' is missing from headers"
  | detachmentNotListed => "The 'b64' header parameter requires 'b64' to be listed in 'crit'."

/-- Why a key set has no key for a token. -/
inductive KeySourceError where
  | severalKeys
  | noMatch (kid : String)
  | noRemoteMatch (kid : String)
  | unreachable (reason : String)
  | notObject
  | emptySet (reason : String)
  | noSigningKeys
deriving DecidableEq, Repr

def KeySourceError.message : KeySourceError → String
  | severalKeys => "Token has no kid and the key set holds several keys"
  | noMatch kid => "Unable to find a signing key that matches: " ++ kid
  | noRemoteMatch kid => "Unable to find a signing key that matches: \"" ++ kid ++ "\""
  | unreachable reason => "Fail to fetch data from the url, err: \"" ++ reason ++ "\""
  | notObject => "The JWKS endpoint did not return a JSON object"
  | emptySet reason => reason
  | noSigningKeys => "The JWKS endpoint did not contain any signing keys"

/-- Why a token is not accepted. -/
inductive TokenError where
  | lookup (e : KeySourceError)
  | notText
  | tooFewSegments
  | padding (segment : Segment)
  | notJson (segment : Segment)
  | notObject (segment : Segment)
  | payloadPresent
  | detachedPayload
  | kidNotText
  | extension (e : ExtensionError)
  | algorithmMissing
  | algorithmRefused
  | key (e : SecretError)
  | uselessKey
  | wrongCurve (given expected : String)
  | wrongSignature
  | timeNotWhole (claim : TimeClaim)
  | notYetValid (claim : TimeClaim)
  | expired
  | claimMissing (name : String)
  | issuerNotText
  | issuerSettingShape
  | wrongIssuer
  | audienceShape
  | wrongAudience
  | subjectNotText
  | identifierNotText
deriving DecidableEq, Repr

def TokenError.message : TokenError → String
  | lookup e => e.message
  | notText => "Invalid token type. Token must be a <class 'bytes'>"
  | tooFewSegments => "Not enough segments"
  | padding segment => "Invalid " ++ segment.name ++ " padding"
  | notJson segment => "Invalid " ++ segment.name ++ " string"
  | notObject segment => "Invalid " ++ segment.name ++ " string: must be a json object"
  | payloadPresent => "Payload segment must be empty when 'b64' is false."
  | detachedPayload =>
      "It is required that you pass in a value for the \"detached_payload\" argument " ++
        "to decode a message having the b64 header set to false."
  | kidNotText => "Key ID header parameter must be a string"
  | extension e => e.message
  | algorithmMissing => "Algorithm not specified"
  | algorithmRefused => "The specified alg value is not allowed"
  | key e => e.message
  | uselessKey => "Could not parse the provided public key."
  | wrongCurve given expected =>
      "The key's curve '" ++ given ++ "' does not match the expected curve '" ++ expected ++
        "' for this algorithm"
  | wrongSignature => "Signature verification failed"
  | timeNotWhole claim => claim.title ++ " (" ++ claim.name ++ ") must be an integer."
  | notYetValid claim => "The token is not yet valid (" ++ claim.name ++ ")"
  | expired => "Signature has expired"
  | claimMissing name => "Token is missing the \"" ++ name ++ "\" claim"
  | issuerNotText => "Payload Issuer (iss) must be a string"
  | issuerSettingShape => "Issuer param must be \"str\" or \"Container[str]\""
  | wrongIssuer => "Invalid issuer"
  | audienceShape => "Invalid claim format in token"
  | wrongAudience => "Audience doesn't match"
  | subjectNotText => "Subject must be a string"
  | identifierNotText => "JWT ID must be a string"

/-- Why a request is not authenticated. -/
inductive AuthenticationError where
  | tokenMissing
  | tokenInvalid (e : TokenError)
deriving DecidableEq, Repr

namespace AuthenticationError

def message : AuthenticationError → String
  | tokenMissing => "Token not found"
  | tokenInvalid .expired => "Token has expired"
  | tokenInvalid e => "Invalid token: " ++ e.message

/-- The text of the failed check. -/
def cause : AuthenticationError → Option String
  | tokenMissing => none
  | tokenInvalid e => some e.message

def report (e : AuthenticationError) : Report := .authentication e.message .null e.cause

end AuthenticationError

end AccessGate
