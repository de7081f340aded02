import AccessGate.Value.Display

/-!
# Error reports

What a caller sees of an error: a code, a message, details, and the text of the error that caused it
if there is one.

* `AccessGate.ErrorCode` – the **codes** that callers may tell errors by;
* `AccessGate.Report` – a **report**, as one line (`text`) or as a mapping (`toMapping`).

Denial is no error: a policy answers with a truth value. Reports are about setup, about tokens that
fail their checks and about response fields that cannot be signed.
-/

namespace AccessGate

/-- The codes of errors. -/
inductive ErrorCode where
  | unauthorized
  | internalError
  | configurationError
  | signingFailed
deriving DecidableEq, Repr

def ErrorCode.text : ErrorCode → String
  | unauthorized => "unauthorized"
  | internalError => "internal_error"
  | configurationError => "configuration_error"
  | signingFailed => "signing_failed"

/-- The code written with the given text. -/
def ErrorCode.ofText? (s : String) : Option ErrorCode :=
  [unauthorized, internalError, configurationError, signingFailed].find? (·.text == s)

/-- An error as its callers see it. The details are a mapping, unless somebody gave others. -/
structure Report where
  code : ErrorCode
  message : String
  details : Value
  cause : Option String
deriving DecidableEq, Repr

namespace Report

/-- The report as one line. -/
def text (r : Report) : String := r.code.text ++ ": " ++ r.message

/-- The report as a mapping; a cause is listed even when its text is empty. -/
def toMapping (r : Report) : Members :=
  [(.text "error", .text r.code.text), (.text "message", .text r.message),
    (.text "details", r.details)] ++
    match r.cause with
    | some cause => [(.text "cause", .text cause)]
    | none => []

/-! ### Details -/

/-- Details that were given, or none. -/
def given (details : Value) : Value := details.orElse (.mapping [])

/-- Details with `value` under a name. Only a mapping takes one; others say why they do not. -/
def putDetail (details : Value) (name : String) (value : Value) : Except String Value :=
  match details with
  | .mapping ms => .ok (.mapping (Members.put ms (.text name) value))
  | .list _ => .error "list indices must be integers or slices, not str"
  | other => .error ("'" ++ other.kind ++ "' object does not support item assignment")

/-- The details that name a setting and show its value, where there are any. A value that has no
text cannot be shown. -/
def settingDetails? (key value : Value) : Option (List (String × Value)) :=
  let named := if key.isTruthy then [("config_key", key)] else []
  match value with
  | .null => some named
  | v => v.display?.map fun shown => named ++ [("config_value", .text shown)]

/-! ### Reports by code -/

/-- A report about a setting, with the details that it adds to given ones. -/
def configuration (message : String) (added : List (String × Value)) (details : Value) :
    Except String Report := do
  let all ← added.foldlM (fun d m => putDetail d m.1 m.2) (given details)
  return ⟨.configurationError, message, all, none⟩

/-- A report about a setting, unless its value has no text. -/
def ofSetting? (message : String) (key : Option String) (value : Value) : Option Report :=
  (settingDetails? ((key.map Value.text).getD .null) value).map fun details =>
    ⟨.configurationError, message, .mapping (details.map fun m => (.text m.1, m.2)), none⟩

/-- A report about a token. -/
def authentication (message : String) (details : Value) (cause : Option String) : Report :=
  ⟨.unauthorized, message, given details, cause⟩

end Report

end AccessGate
