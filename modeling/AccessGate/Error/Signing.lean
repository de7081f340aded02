import AccessGate.Error.Report

/-!
# Failures of signing

* `AccessGate.SigningError` – a response field **could not be signed**. It names the field once that
  is known;
* `AccessGate.SignerFailure` – how **a signer fails**: with such an error of its own, or with any
  other error, of which only the text is known.
-/

namespace AccessGate

/-- A field that could not be signed. The field is nothing while it is not known. -/
structure SigningError where
  message : String
  field : Value
  details : Value
  cause : Option String
deriving DecidableEq, Repr

namespace SigningError

/-- An error with details of its own, which name the field if there is one to name. Details that
cannot do so say why. -/
def withDetails (message : String) (field details : Value) (cause : Option String) :
    Except String SigningError := do
  let all ←
    if field.isTruthy then Report.putDetail (Report.given details) "field" field
    else pure (Report.given details)
  return ⟨message, field, all, cause⟩

/-- An error whose details name the field, if there is one to name. -/
def make (message : String) (field : Value) (cause : Option String) : SigningError :=
  ⟨message, field, .mapping (if field.isTruthy then [(.text "field", field)] else []), cause⟩

/-- The error with the field named, unless it names one already. Details that are no mapping have
no place for it. -/
def nameField (e : SigningError) (field : Value) : Except String SigningError :=
  match e.field with
  | .null => (Report.putDetail e.details "field" field).map fun details =>
      { e with field := field, details := details }
  | _ => .ok e

def report (e : SigningError) : Report := ⟨.signingFailed, e.message, e.details, e.cause⟩

end SigningError

/-- How a signer fails. -/
inductive SignerFailure where
  | signing (e : SigningError)
  | other (text : String)
deriving DecidableEq, Repr

/-- Why a failure cannot be reported for a field: the details of the error take no field, or the
field has no text. -/
inductive Unreported where
  | details (reason : String)
  | field
deriving DecidableEq, Repr

/-- The failure as the error that leaves the signing of `field`. The field is shown in any case, and
so needs a text. -/
def SignerFailure.toError (field : Value) (e : SignerFailure) : Except Unreported SigningError :=
  match field.display? with
  | none => .error .field
  | some shown =>
      match e with
      | signing own => (own.nameField field).mapError .details
      | other text =>
          .ok (.make ("Signing field " ++ shown ++ " failed: " ++ text) field (some text))

end AccessGate
