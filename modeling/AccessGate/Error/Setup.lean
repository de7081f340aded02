import AccessGate.Error.Report

/-!
# What can be wrong with a setup

* `AccessGate.SetupError` – the **causes**, one for each way in which settings, rules, key sets and
  configuration files can be unusable;
* `AccessGate.SetupError.setting` – the **setting** a cause is about;
* `AccessGate.SetupError.report?` – its **report**, with the wording, where there is one.
-/

namespace AccessGate

/-- Why a document is no set of verification keys. -/
inductive KeySetError where
  | noKeys
  | keysNotList
  | noUsableKeys
deriving DecidableEq, Repr

def KeySetError.message : KeySetError → String
  | noKeys => "The JWK Set did not contain any keys"
  | keysNotList => "Invalid JWK Set value"
  | noUsableKeys =>
      "The JWK Set did not contain any usable keys. Perhaps 'cryptography' is not installed?"

/-- Why a setup is unusable. -/
inductive SetupError where
  | unknownAlgorithm (name : Value)
  | algorithmMissing
  | keySourceMissing
  | cacheDurationNegative (value : Value)
  | notBoolean (setting : String) (value : Value)
  | notDuration (setting message : String) (value : Value)
  | nestedFlagNotBoolean (value : Value)
  | customFieldsNotMapping (value : Value)
  | scopesMatcherNotText (value : Value)
  | ruleIncomplete (entry : Value)
  | rulesMissing
  | signerKeyMissing
  | signingKeyMissing
  | gateNotMapping
  | signatureMissing
  | validatorMissing
  | fileMissing (path : String)
  | fileFormatUnknown (suffix path : String)
  | fileRootNotMapping (path : String)
  | keySetUnreadable (reason path : String)
  | keySetNotJson (path : String)
  | keySetPathUnusable (path : String)
  | keySetInvalid (reason : KeySetError) (path : String)
deriving DecidableEq, Repr

namespace SetupError

/-- The setting that the cause is about. -/
def setting : SetupError → Option String
  | unknownAlgorithm _ => some "alg"
  | algorithmMissing => some "alg"
  | keySourceMissing => some "jwk_url"
  | cacheDurationNegative _ => some "cache_duration"
  | notBoolean key _ => some key
  | notDuration key _ _ => some key
  | nestedFlagNotBoolean _ => some "roles_key_is_nested"
  | customFieldsNotMapping _ => some "custom_fields"
  | scopesMatcherNotText _ => some "scopes_matcher"
  | ruleIncomplete _ => some "propagate_claims"
  | rulesMissing => some "propagate_claims"
  | signerKeyMissing => some "key"
  | signingKeyMissing => some "key"
  | gateNotMapping => none
  | signatureMissing => some "signature"
  | validatorMissing => some "validator"
  | fileMissing _ => some "file_path"
  | fileFormatUnknown _ _ => some "file_path"
  | fileRootNotMapping _ => none
  | keySetUnreadable _ _ => some "jwk_local_path"
  | keySetNotJson _ => some "jwk_local_path"
  | keySetPathUnusable _ => some "jwk_local_path"
  | keySetInvalid _ _ => some "jwk_local_path"

/-- The value shown with the setting, nothing where none is shown. -/
def shown : SetupError → Value
  | unknownAlgorithm name => name
  | cacheDurationNegative value => value
  | notBoolean _ value => value
  | notDuration _ _ value => value
  | nestedFlagNotBoolean value => value
  | customFieldsNotMapping value => value
  | scopesMatcherNotText value => value
  | ruleIncomplete entry => entry
  | fileMissing path => .text path
  | fileFormatUnknown _ path => .text path
  | keySetUnreadable _ path => .text path
  | keySetNotJson path => .text path
  | keySetPathUnusable path => .text path
  | keySetInvalid _ path => .text path
  | _ => .null

/-- The wording, given the text of the value that is shown. What the decoder of bytes or the parser
of JSON has to say about a file of keys is left out. -/
def message (shown : String) : SetupError → String
  | unknownAlgorithm _ => "Unknown algorithm " ++ shown
  | algorithmMissing => "alg is required"
  | keySourceMissing => "one of jwk_url, jwk_local_path or secret is required"
  | cacheDurationNegative _ => "cache_duration must not be negative"
  | notBoolean key _ => key ++ " must be a boolean"
  | notDuration _ message _ => message
  | nestedFlagNotBoolean _ => "roles_key_is_nested must be a boolean"
  | customFieldsNotMapping _ => "custom_fields must be a mapping of claim name to value"
  | scopesMatcherNotText _ => "scopes_matcher must be a string"
  | ruleIncomplete _ => "Propagation rule needs a claim and a header"
  | rulesMissing => "No headers to propagate. Config size: 0"
  | signerKeyMissing => "signer key is required"
  | signingKeyMissing => "Signing key is required"
  | gateNotMapping => "Gate configuration must be a mapping"
  | signatureMissing => "signature section is required"
  | validatorMissing => "ClaimsGate has no validator; use authorize_claims()"
  | fileMissing path => "Configuration file not found: " ++ path
  | fileFormatUnknown suffix _ => "Unsupported configuration file format: " ++ suffix
  | fileRootNotMapping path => "Configuration root must be a mapping: " ++ path
  | keySetUnreadable reason _ => "Cannot read JWKS file: " ++ reason
  | keySetNotJson _ => "Invalid JWKS file"
  | keySetPathUnusable _ => "Invalid JWKS file: embedded null byte"
  | keySetInvalid reason _ => "Invalid JWKS file: " ++ reason.message

/-- The report. There is none if the value to show has no text. -/
def report? (e : SetupError) : Option Report := do
  let shown ← e.shown.display?
  Report.ofSetting? (e.message shown) e.setting e.shown

end SetupError

end AccessGate
